import Mathlib.Data.List.Sort
import ScatterGather.Proofs.Partition
import ScatterGather.Registry

/-!
# Ordering — what the views of a registry show, and in which order

Handles are registered in any order and shown by position.  Sorting moves no two handles of one
position past each other, so a view is the handles of each position, one position after the other,
each in the order of their registration.

* `Registry.filter_mergeSort` : sorting keeps the handles of a position in their order;
* `Registry.ordered_eq_flatMap` : a view, position by position.
-/

namespace ScatterGather

namespace Registry

variable {ι : Type}

/-! ## Sorting by position -/

theorem position_trans (a b c : Tracked ι) (hab : decide (a.position ≤ b.position) = true)
    (hbc : decide (b.position ≤ c.position) = true) : decide (a.position ≤ c.position) = true := by
  simp only [decide_eq_true_eq] at *
  exact hab.trans hbc

theorem position_total (a b : Tracked ι) :
    (decide (a.position ≤ b.position) || decide (b.position ≤ a.position)) = true := by
  simpa using Nat.le_total a.position b.position

/-- The handles of one position are sorted already, so they stay in their order. -/
theorem filter_mergeSort (entries : List (Tracked ι)) (p : Nat) :
    (entries.mergeSort fun a b => decide (a.position ≤ b.position)).filter
        (fun t => t.position == p) =
      entries.filter fun t => t.position == p := by
  have hsorted : (entries.filter fun t => t.position == p).Pairwise
      fun a b => decide (a.position ≤ b.position) = true := by
    apply List.pairwise_of_forall_mem_list
    intro a ha b hb
    have hap : a.position = p := by simpa using (List.mem_filter.mp ha).2
    have hbp : b.position = p := by simpa using (List.mem_filter.mp hb).2
    simp [hap, hbp]
  have hsub := List.sublist_mergeSort position_trans position_total hsorted
    (List.filter_sublist (l := entries))
  -- they are still there after sorting, in this order, and no others are
  have hfiltered := hsub.filter fun t => t.position == p
  rw [List.filter_filter] at hfiltered
  have hperm := (List.mergeSort_perm entries
    fun a b => decide (a.position ≤ b.position)).filter fun t => t.position == p
  simp only [Bool.and_self] at hfiltered
  exact (hfiltered.eq_of_length hperm.length_eq.symm).symm

/-- A view shows the handles of each position in the order of their registration. -/
theorem ordered_eq_flatMap {entries : List (Tracked ι)} {n : Nat}
    (h : ∀ t ∈ entries, t.position < n) :
    ordered entries = (List.range n).flatMap fun p =>
      (entries.filter fun t => t.position == p).map Tracked.handle := by
  have hsorted : (entries.mergeSort fun a b => decide (a.position ≤ b.position)).Pairwise
      fun a b => a.position ≤ b.position := by
    simpa using List.pairwise_mergeSort position_trans position_total entries
  have hbelow : ∀ t ∈ entries.mergeSort fun a b => decide (a.position ≤ b.position),
      t.position < n := fun t ht => h t (List.mem_mergeSort.mp ht)
  rw [ordered, ← Partition.eq_parts_of_sorted Tracked.position hsorted hbelow, List.map_flatMap]
  simp only [filter_mergeSort]

end Registry

end ScatterGather
