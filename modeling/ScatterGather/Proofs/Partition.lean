import Mathlib.Data.List.Basic
import Mathlib.Data.List.Flatten

/-!
# Partition — lists taken apart by a key and put together again

* `Partition.perm_parts` : the elements with each key, key by key, are the list in another order;
* `Partition.eq_parts_of_sorted` : in a list that the key sorts they are in that order;
* `Partition.eq_part_of_length` : parts that lie within given lists and together are as long as
  these are those lists.
-/

namespace ScatterGather

namespace Partition

variable {α β ι : Type}

/-- By induction on the keys; behind a key stands what has another one. -/
theorem perm_parts [DecidableEq ι] (key : α → ι) {keys : List ι} {xs : List α}
    (distinct : keys.Nodup) (covered : ∀ x ∈ xs, key x ∈ keys) :
    (keys.flatMap fun k => xs.filter fun x => key x == k).Perm xs := by
  induction keys generalizing xs with
  | nil =>
      have hnil : xs = [] := by
        rw [List.eq_nil_iff_forall_not_mem]
        intro x hx
        simpa using covered x hx
      simp [hnil]
  | cons k keys ih =>
      rcases List.nodup_cons.mp distinct with ⟨hk, hkeys⟩
      -- what the other keys pick out is not touched by taking this one away
      have hrest : (keys.flatMap fun k' => xs.filter fun x => key x == k').Perm
          (xs.filter fun x => !(key x == k)) := by
        have hcovered : ∀ x ∈ xs.filter (fun x => !(key x == k)), key x ∈ keys := by
          intro x hx
          rcases List.mem_filter.mp hx with ⟨hmem, hne⟩
          rcases List.mem_cons.mp (covered x hmem) with heq | hin
          · simp [heq] at hne
          · exact hin
        refine List.Perm.trans (.of_eq ?_) (ih hkeys hcovered)
        simp only [List.filter_filter]
        refine List.flatMap_congr fun k' hk' => List.filter_congr fun x _ => ?_
        have hkk : k' ≠ k := fun heq => hk (heq ▸ hk')
        by_cases hx : key x = k'
        · simp [hx, hkk]
        · simp [hx]
      rw [List.flatMap_cons]
      exact (hrest.append_left _).trans (List.filter_append_perm _ xs)

/-- A list that the key sorts has all small keys in front of all large ones. -/
theorem filter_append_of_sorted (key : α → Nat) (n : Nat) {xs : List α}
    (sorted : xs.Pairwise fun x y => key x ≤ key y) :
    xs.filter (fun x => decide (key x < n)) ++ xs.filter (fun x => decide (n ≤ key x)) = xs := by
  induction xs with
  | nil => rfl
  | cons x xs ih =>
      rcases List.pairwise_cons.mp sorted with ⟨hleast, hsorted⟩
      by_cases hx : key x < n
      · simp [hx, Nat.not_le.mpr hx, ih hsorted]
      · -- all that follows has a large key too
        have hlarge : ∀ y ∈ x :: xs, n ≤ key y := by
          intro y hy
          rcases List.mem_cons.mp hy with rfl | hy
          · exact Nat.not_lt.mp hx
          · exact Nat.le_trans (Nat.not_lt.mp hx) (hleast y hy)
        have hnone : (x :: xs).filter (fun x => decide (key x < n)) = [] :=
          List.filter_eq_nil_iff.mpr fun y hy => by simpa using hlarge y hy
        have hall : (x :: xs).filter (fun x => decide (n ≤ key x)) = x :: xs :=
          List.filter_eq_self.mpr fun y hy => by simpa using hlarge y hy
        rw [hnone, hall, List.nil_append]

/-- By induction on the bound; the elements with the largest key stand at the end. -/
theorem eq_parts_of_sorted (key : α → Nat) {n : Nat} {xs : List α}
    (sorted : xs.Pairwise fun x y => key x ≤ key y) (covered : ∀ x ∈ xs, key x < n) :
    ((List.range n).flatMap fun k => xs.filter fun x => key x == k) = xs := by
  induction n generalizing xs with
  | zero =>
      have hnil : xs = [] :=
        List.eq_nil_iff_forall_not_mem.mpr fun x hx => Nat.not_lt_zero _ (covered x hx)
      rw [hnil]
      rfl
  | succ n ih =>
      have hfront : ((List.range n).flatMap fun k => xs.filter fun x => key x == k) =
          xs.filter fun x => decide (key x < n) := by
        rw [← ih (sorted.filter _) fun x hx => by simpa using (List.mem_filter.mp hx).2]
        refine List.flatMap_congr fun k hk => ?_
        rw [List.filter_filter]
        refine List.filter_congr fun x _ => ?_
        have hkn : k < n := List.mem_range.mp hk
        by_cases hx : key x = k <;> simp [hx, hkn]
      have hback : (xs.filter fun x => key x == n) = xs.filter fun x => decide (n ≤ key x) := by
        refine List.filter_congr fun x hx => ?_
        have hle : key x ≤ n := Nat.le_of_lt_succ (covered x hx)
        rw [Bool.eq_iff_iff, beq_iff_eq, decide_eq_true_eq]
        exact ⟨fun heq => Nat.le_of_eq heq.symm, Nat.le_antisymm hle⟩
      rw [List.range_succ, List.flatMap_append, List.flatMap_singleton, hfront, hback]
      exact filter_append_of_sorted key n sorted

/-- Were one part shorter, so would be the whole. -/
theorem eq_part_of_length {f g : ι → List β} {is : List ι}
    (within : ∀ i ∈ is, (f i).Sublist (g i))
    (full : (is.flatMap f).length = (is.flatMap g).length) : ∀ i ∈ is, f i = g i := by
  induction is with
  | nil => simp
  | cons i is ih =>
      have hrest : ∀ i' ∈ is, (f i').Sublist (g i') :=
        fun i' hi' => within i' (List.mem_cons_of_mem i hi')
      have hle : (is.flatMap f).length ≤ (is.flatMap g).length :=
        (List.Sublist.flatMap_right is hrest).length_le
      have hfirst : (f i).Sublist (g i) := within i (List.mem_cons_self ..)
      have hfirstle : (f i).length ≤ (g i).length := hfirst.length_le
      simp only [List.flatMap_cons, List.length_append] at full
      -- neither the first part nor the rest can make up for a gap in the other
      have hsame : f i = g i := hfirst.eq_of_length (by omega)
      intro i' hi'
      rcases List.mem_cons.mp hi' with rfl | hi'
      · exact hsame
      · rw [hsame] at full
        exact ih hrest (by omega) i' hi'

/-- Elements without a part can be left out. -/
theorem flatMap_filter {f : α → List β} {p : α → Bool} {xs : List α}
    (h : ∀ x ∈ xs, p x = false → f x = []) : (xs.filter p).flatMap f = xs.flatMap f := by
  induction xs with
  | nil => rfl
  | cons x xs ih =>
      have hrest := ih fun y hy => h y (List.mem_cons_of_mem x hy)
      cases hx : p x with
      | true => simp [hx, hrest]
      | false => simp [hx, hrest, h x (List.mem_cons_self ..) hx]

/-- Where only one element has a part, that part is the whole. -/
theorem flatMap_of_only {f : α → List β} {xs : List α} {k : Nat} {x : α} (hk : xs[k]? = some x)
    (hothers : ∀ i y, xs[i]? = some y → i ≠ k → f y = []) : xs.flatMap f = f x := by
  induction xs generalizing k with
  | nil => cases hk
  | cons y xs ih =>
      cases k with
      | zero =>
          cases hk
          have hrest : xs.flatMap f = [] := by
            apply List.flatMap_eq_nil_iff.mpr
            intro z hz
            rcases List.getElem?_of_mem hz with ⟨i, hi⟩
            exact hothers (i + 1) z hi (Nat.succ_ne_zero i)
          rw [List.flatMap_cons, hrest, List.append_nil]
      | succ k =>
          have hrest : xs.flatMap f = f x :=
            ih hk fun i z hi hne => hothers (i + 1) z hi (by omega)
          rw [List.flatMap_cons, hothers 0 y rfl (Nat.succ_ne_zero k).symm, hrest, List.nil_append]

/-- An element that is not in the first part does not precede one that is not in the second. -/
theorem not_sublist_append {front back : List α} {x y : α} (hx : x ∉ front) (hy : y ∉ back) :
    ¬ [x, y].Sublist (front ++ back) := by
  intro hsub
  rcases List.sublist_append_iff.mp hsub with ⟨xs, ys, hpair, hfront, hback⟩
  rcases List.cons_eq_append_iff.mp hpair with ⟨rfl, hys⟩ | ⟨xs', rfl, -⟩
  · exact hy (hback.subset (hys ▸ List.mem_cons_of_mem _ (List.mem_cons_self ..)))
  · exact hx (hfront.subset (List.mem_cons_self ..))

end Partition

end ScatterGather
