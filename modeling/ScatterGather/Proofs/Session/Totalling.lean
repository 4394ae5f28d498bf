import ScatterGather.Proofs.Session.Capping

/-!
# Totalling — an update answers with the exact sum of its counts, or with none

The counts of an update come in from groups that race, and are added one by one in the order of the
route.  Sums only grow, so one of the additions overflows if and only if the sum of all counts does
not fit.  The answer is then a function of that sum, which no order of the counts can change.

* `Merge.sum`, `Response.ofSum` : the sum as a number, and the answer that it leads to;
* `Merge.foldlM_addCount`, `Response.ofAnswer_counts` : adding up step by step comes to the same;
* `Session.Updates` : an update all of whose units succeed;
* `Session.yields_sum` : what it answers;
* `Session.update_exact_or_loud` : so it is exact, and two updates with the same counts agree.
-/

namespace ScatterGather

/-! ## Sums -/

theorem weight_perm {α : Type} (measure : α → Nat) {xs ys : List α} (h : xs.Perm ys) :
    weight measure xs = weight measure ys := by
  induction h with
  | nil => rfl
  | cons x _ ih => rw [weight_cons, weight_cons, ih]
  | swap x y zs => simp only [weight_cons, Nat.add_left_comm]
  | trans _ _ ih ih' => exact ih.trans ih'

theorem weight_map {α γ : Type} (measure : γ → Nat) (f : α → γ) (xs : List α) :
    weight measure (xs.map f) = weight (fun a => measure (f a)) xs := by
  induction xs with
  | nil => rfl
  | cons x xs ih => rw [List.map_cons, weight_cons, weight_cons, ih]

namespace Merge

/-- The rows that all units together count; a unit without a count adds none. -/
def sum (counts : List (Option UInt64)) : Nat :=
  weight (fun n => (n.map UInt64.toNat).getD 0) counts

theorem toNat_count (n : Option UInt64) : (count (some n)).toNat = (n.map UInt64.toNat).getD 0 := by
  cases n <;> rfl

/-- An addition fails if and only if the sum of all counts does not fit: once a sum is too large, no
later count makes it smaller. -/
theorem foldlM_addCount (outcomes : List (Option (Option UInt64))) (total : UInt64) :
    outcomes.foldlM addCount total =
      if total.toNat + weight (fun o => (count o).toNat) outcomes < UInt64.size then
        some (.ofNat (total.toNat + weight (fun o => (count o).toNat) outcomes))
      else none := by
  induction outcomes generalizing total with
  | nil =>
      have hfits : total.toNat + weight (fun o => (count o).toNat) [] < UInt64.size :=
        total.toNat_lt
      rw [if_pos hfits, weight_nil, Nat.add_zero, UInt64.ofNat_toNat]
      rfl
  | cons o outcomes ih =>
      rw [List.foldlM_cons, weight_cons, addCount]
      -- where the first addition fits it is exact, and the rest starts from its sum
      by_cases hfits : total.toNat + (count o).toNat < UInt64.size
      · have hsum : (total + count o).toNat = total.toNat + (count o).toNat := by
          rw [UInt64.toNat_add]
          exact Nat.mod_eq_of_lt hfits
        rw [if_pos hfits, Option.bind_eq_bind, Option.bind_some, ih, hsum, Nat.add_assoc]
      · rw [if_neg hfits, if_neg (by omega)]
        rfl

theorem total?_counts (counts : List (Option UInt64)) :
    total? (counts.map some) =
      if sum counts < UInt64.size then some (.ofNat (sum counts)) else none := by
  have hsum : weight (fun o => (count o).toNat) (counts.map some) = sum counts := by
    rw [weight_map, sum]
    simp only [toNat_count]
  have hzero : (0 : UInt64).toNat = 0 := rfl
  rw [total?, foldlM_addCount, hsum, hzero, Nat.zero_add]

end Merge

namespace Response

/-- The answer to an update, by the sum of its counts. -/
def ofSum (n : Nat) : Response :=
  if n < UInt64.size then .total (.ofNat n) else .overflow

/-- The answer is exact if the sum fits into 64 bits, and else there is none. -/
theorem ofSum_exact (n : Nat) :
    (n < UInt64.size → ∃ total : UInt64, ofSum n = .total total ∧ total.toNat = n) ∧
      (ofSum n = .overflow ↔ UInt64.size ≤ n) := by
  by_cases hfits : n < UInt64.size
  · rw [ofSum, if_pos hfits]
    refine ⟨fun _ => ⟨_, rfl, UInt64.toNat_ofNat_of_lt hfits⟩, ?_⟩
    simp only [reduceCtorEq, false_iff, Nat.not_le]
    exact hfits
  · rw [ofSum, if_neg hfits]
    simp only [true_iff]
    exact ⟨fun h => absurd h hfits, Nat.le_of_not_lt hfits⟩

theorem ofAnswer_counts (queryId : Nat) (counts : List (Option UInt64)) :
    ofAnswer .update queryId (.ok (counts.map fun n => some (.count n))) =
      ofSum (Merge.sum counts) := by
  have hcounts : (counts.map fun n => some (Output.count n)).map
      (fun slot => slot.bind Output.count?) = counts.map some := by
    rw [List.map_map]
    rfl
  rw [ofAnswer, hcounts, Merge.total?_counts, ofSum]
  by_cases hfits : Merge.sum counts < UInt64.size
  · simp only [hfits, if_true]
  · simp only [hfits, if_false]

end Response

/-! ## Updates -/

namespace Session

variable {β : Type} {s : Session β} {x : Nat} {e : Executor} {counts : List (Option UInt64)}
  {groups : List (Group Connection BoundUnit)} {w : World}
  {threads : Nat} {backend : Backend} {executors : List Executor} {recorders : Nat}

/-- An update of the executor gets all it asks for, and its units count these rows, in the order of
the route. -/
structure Updates (s : Session β) (e : Executor) (counts : List (Option UInt64)) : Prop where
  granted : s.Granted e
  length : counts.length = e.route.length
  answers : ∀ groups w, s.Grouped e groups w → ∀ g ∈ groups, ∀ u ∈ g.units,
    ∃ n, counts[u.position]? = some n ∧ s.backend.update u.unit.statement = .answer n

namespace Updates

/-- A backend may tell the counts by the units of the route. -/
theorem of_route {f : RouteUnit → Option UInt64} (hgranted : s.Granted e)
    (hupdate : ∀ statement : Statement, statement.route ∈ e.route →
      s.backend.update statement = .answer (f statement.route)) :
    s.Updates e (e.route.map f) := by
  refine ⟨hgranted, List.length_map .., fun groups w h g hg u hu => ?_⟩
  rcases statement_of_mem h hg hu with ⟨hsame, hmem⟩
  have hroute := (Grouping.bound_of_mem h hg hu).1
  refine ⟨f u.unit.route, by rw [List.getElem?_map, hroute]; rfl, ?_⟩
  rw [hupdate _ hmem, hsame]

/-- Each unit comes out with the count at its position. -/
theorem outcome (hupdates : s.Updates e counts) (x : Nat) (h : s.Grouped e groups w)
    {u : Work Effect Output} (hu : u ∈ (s.task x e .update groups).units) :
    ∃ n, counts[u.position]? = some n ∧ u.outcome = .value (.count n) := by
  rw [task_units] at hu
  rcases List.mem_map.mp hu with ⟨p, hp, rfl⟩
  rcases List.mem_flatMap.mp hp with ⟨g, hg, hpg⟩
  rcases hupdates.answers groups w h g hg p hpg with ⟨n, hn, hreply⟩
  refine ⟨n, hn, ?_⟩
  simp only [Assignment.work, Assignment.afterCall, assignment, hreply, Assignment.simple]

/-- The values of all units are the counts in the order of the route. -/
theorem slots_eq (hupdates : s.Updates e counts) (h : s.Grouped e groups w)
    {answer : Answer Output} (hj : Share.Judged (s.task x e .update groups).units answer) :
    answer = .ok (counts.map fun n => some (.count n)) := by
  rcases task_numbered x .update h with ⟨hnum, htotal⟩
  cases hj with
  | failures mem failure lowest =>
      rcases hupdates.outcome x h mem with ⟨n, -, hvalue⟩
      rw [failure] at hvalue
      cases hvalue
  | @values slots succeed length placed =>
      have hlength : slots.length = counts.length := by
        rw [hupdates.length, ← htotal, length, Task.total]
      refine congrArg Except.ok (List.ext_getElem? fun i => ?_)
      by_cases hlt : i < (s.task x e .update groups).total
      · -- the slot at this position is that of the unit there
        rcases hnum.exists_unit hlt with ⟨u, hu, rfl⟩
        rcases placed u hu with ⟨a, ha, hslot⟩
        rcases hupdates.outcome x h hu with ⟨n, hn, hvalue⟩
        rw [ha] at hvalue
        cases hvalue
        rw [hslot, List.getElem?_map, hn]
        rfl
      · -- neither list has anything behind the last unit
        have hle : slots.length ≤ i := by
          rw [hlength, hupdates.length, ← htotal]
          exact Nat.le_of_not_lt hlt
        rw [List.getElem?_eq_none hle,
          List.getElem?_eq_none (by rw [List.length_map]; exact hlength ▸ hle)]

end Updates

theorem yields_sum (x : Nat) (sweeping : Bool)
    (hrun : Run step? (Session.start threads backend executors recorders) s)
    (hupdates : s.Updates e counts) :
    s.Yields x e .update sweeping fun r _ => r = .ofSum (Merge.sum counts) := by
  rcases hupdates.granted.exists_groups with ⟨groups, w, h⟩
  have hsucceeds : ∀ u ∈ (s.task x e .update groups).units, u.Succeeds := by
    intro u hu
    rcases hupdates.outcome x h hu with ⟨n, -, hvalue⟩
    exact ⟨_, hvalue⟩
  -- where all units succeed every policy comes to the same judgement
  apply yields_of_answered hrun h
  intro s' s₂ sh answer _ _ _ v hanswered
  have hnum := (task_numbered x .update h).1
  have hjudged := hanswered.judged_of v hnum (fun u hu hp => hp.not_succeeds (hsucceeds u hu))
    (.inr fun u hu hf => hf.not_succeeds (hsucceeds u hu))
  rw [hupdates.slots_eq h hjudged, Response.ofAnswer_counts]

/-- An update all of whose units succeed answers with the sum of their counts if it fits into 64
bits, and panics if and only if it does not, under any policy, any cap and in every run.  So another
update with the same counts, in any order and grouped in any way, comes to the same. -/
theorem update_exact_or_loud (x : Nat) (sweeping : Bool)
    (hrun : Run step? (Session.start threads backend executors recorders) s)
    (hupdates : s.Updates e counts) :
    ∃ r, (Merge.sum counts < UInt64.size →
        ∃ total : UInt64, r = .total total ∧ total.toNat = Merge.sum counts) ∧
      (r = .overflow ↔ UInt64.size ≤ Merge.sum counts) ∧
      s.Yields x e .update sweeping (fun r' _ => r' = r) ∧
      ∀ (γ : Type) (threads' : Nat) (backend' : Backend) (executors' : List Executor)
        (recorders' : Nat) (s' : Session γ) (x' : Nat) (e' : Executor) (sweeping' : Bool)
        (counts' : List (Option UInt64)),
        Run step? (Session.start threads' backend' executors' recorders') s' →
        s'.Updates e' counts' → counts'.Perm counts →
        s'.Yields x' e' .update sweeping' (fun r' _ => r' = r) := by
  refine ⟨.ofSum (Merge.sum counts), (Response.ofSum_exact _).1, (Response.ofSum_exact _).2,
    yields_sum x sweeping hrun hupdates, ?_⟩
  intro γ threads' backend' executors' recorders' s' x' e' sweeping' counts' hrun' hupdates' hperm
  have hsame : Merge.sum counts' = Merge.sum counts := weight_perm _ hperm
  exact hsame ▸ yields_sum x' sweeping' hrun' hupdates'

end Session

/-! ## An example -/

/-- Counts that exceed 64 bits by one together, with a unit between them that counts nothing. -/
def Backend.brimming : Backend :=
  { Backend.willing with
    update := fun s => .answer
      (if s.route.target = "ds_0" then some 18446744073709551615
        else if s.route.target = "ds_1" then none else some 1) }

/-- The route of three targets backwards, on one connection. -/
def Executor.backwards : Executor :=
  { Executor.triple with cap := 1, route := Executor.triple.route.reverse }

/-- The first two targets only. -/
def Executor.pair : Executor :=
  { Executor.triple with route := Executor.triple.route.take 2 }

namespace Session

theorem update_exact_or_loud_brimming :
    ((Session.start 2 .brimming [.triple] 0 : Session Unit).Yields 0 .triple .update true
      fun r _ => r = .overflow) ∧
    ((Session.start 1 .brimming [.backwards] 0 : Session Unit).Yields 0 .backwards .update true
      fun r _ => r = .overflow) ∧
    ((Session.start 2 .brimming [.pair] 0 : Session Unit).Yields 0 .pair .update true
      fun r _ => ∃ n : UInt64, r = .total n ∧ n.toNat + 1 = UInt64.size) := by
  have hupdates (threads : Nat) (e : Executor) : (Session.start threads .brimming [e] 0 :
      Session Unit).Updates e (e.route.map fun u =>
        if u.target = "ds_0" then some 18446744073709551615
          else if u.target = "ds_1" then none else some 1) :=
    .of_route (Grouping.granted_of_accepts e.options e.cap _ (fun _ _ => rfl) fun _ _ _ => rfl)
      fun _ _ => rfl
  rcases update_exact_or_loud 0 true .refl (hupdates 2 .triple) with
    ⟨r, -, hloud, hyields, hothers⟩
  have hoverflow : r = .overflow := hloud.mpr (by decide)
  have hbackwards := hothers Unit 1 .brimming [.backwards] 0 _ 0 .backwards true _ .refl
    (hupdates 1 .backwards) ((List.reverse_perm Executor.triple.route).map _)
  rcases update_exact_or_loud 0 true .refl (hupdates 2 .pair) with ⟨r', hexact, -, hyields', -⟩
  rcases hexact (by decide) with ⟨n, rfl, hn⟩
  refine ⟨hoverflow ▸ hyields, hoverflow ▸ hbackwards, hyields'.mono ?_⟩
  rintro _ _ rfl
  exact ⟨n, rfl, by rw [hn]; rfl⟩

end Session

end ScatterGather
