import ScatterGather.Proofs.Grouping.Sequence
import ScatterGather.Proofs.Session.Query
import ScatterGather.Proofs.Session.Tracking

/-!
# Failing — the failure that a call on one connection comes to

A cap of one leaves a route one connection, on which its units run one by one.  Fail-fast stops at
the first of them that fails, so there is no race, and the order in which the units were planned
decides which failure the client takes.  It is not the order of the route if that comes back to a
target, and then a failure at a lower position may not come to light.

* `Session.yields_failure` : the first unit of the one group that fails is answered for;
* `Session.Yields.agree` : a call has one response;
* `Session.first_failure_on_one_connection` : the failure that comes first in the order of planning;
* `Session.lower_failure_hidden` : a route that comes back to a target.
-/

namespace ScatterGather

namespace Session

variable {β : Type} {s : Session β} {x : Nat} {e : Executor} {kind : EntryPoint}
  {groups : List (Group Connection BoundUnit)} {g : Group Connection BoundUnit} {w : World}
  {threads : Nat} {backend : Backend} {executors : List Executor} {recorders : Nat}

/-- A unit as the call of the executor would run it. -/
def workOf (s : Session β) (x : Nat) (e : Executor) (kind : EntryPoint) (u : Placed BoundUnit) :
    Work Effect Output :=
  (s.assignment x e kind).work s.backend u

/-- The units of the one group run one behind the other, up to the first that fails. -/
theorem yields_failure (x : Nat) (kind : EntryPoint) (sweeping : Bool)
    (hrun : Run step? (start threads backend executors recorders) s)
    (h : s.Grouped e [g] w) (hpolicy : s.policy = .failFast) {front back : List (Placed BoundUnit)}
    {u : Placed BoundUnit} {err : ExecutionError} (hunits : g.units = front ++ u :: back)
    (hfront : ∀ v ∈ front, (s.workOf x e kind v).Succeeds)
    (hfailure : (s.workOf x e kind u).outcome = .failure err) :
    s.Yields x e kind sweeping fun r _ => r = .failed (.execution err) := by
  apply yields_of_answered hrun h
  intro s' s₂ sh answer _ _ _ v hanswered
  have hnum := (task_numbered x kind h).1
  have hbatch : (batchOf s.backend (s.assignment x e kind) g).units =
      front.map (s.workOf x e kind) ++ s.workOf x e kind u :: back.map (s.workOf x e kind) := by
    rw [batchOf, hunits, List.map_append, List.map_cons]
    rfl
  have hsucceed : ∀ v ∈ front.map (s.workOf x e kind), v.Succeeds := by
    simpa using hfront
  have hfails : (s.workOf x e kind u).Fails := ⟨err, hfailure⟩
  rcases hanswered.failure_of_batch v hnum hpolicy (List.mem_singleton.mpr rfl) hbatch hsucceed
    hfails with ⟨err', rfl⟩
  rcases hanswered.genuine v hnum hpolicy with
    ⟨i, b, front', u', back', -, -, hb, hunits', hfront', hfailure', -⟩
  -- there is no other batch, and it has one first unit that does not succeed
  have hone : b = batchOf s.backend (s.assignment x e kind) g :=
    List.mem_singleton.mp (List.mem_of_getElem? hb)
  have hsame : s.workOf x e kind u = u' :=
    Work.first_failing_unique (hbatch.symm.trans (hone ▸ hunits')) hsucceed hfails.not_succeeds
      hfront' (Work.Fails.not_succeeds ⟨err', hfailure'⟩)
  rw [← hsame, hfailure] at hfailure'
  cases hfailure'
  rfl

/-- Whatever a call is known to yield, one response has it all. -/
theorem Yields.agree {sweeping : Bool} {P Q : Response → Session β → Prop}
    (hP : s.Yields x e kind sweeping P) (hQ : s.Yields x e kind sweeping Q) :
    ∃ r s₂, P r s₂ ∧ Q r s₂ := by
  rcases hP with ⟨number, s₁, hopen, hP⟩
  rcases hQ with ⟨number', s₁', hopen', hQ⟩
  rw [hopen] at hopen'
  cases hopen'
  rcases (hP _ .refl).1.exists_run with ⟨e', hmoves, hreturned⟩
  have hothers := others_of_moves number sweeping hmoves
  rcases (hP _ hothers).2 hreturned with ⟨r, s₂, hconclude, hr⟩
  rcases (hQ _ hothers).2 hreturned with ⟨r', s₂', hconclude', hr'⟩
  rw [hconclude] at hconclude'
  cases hconclude'
  exact ⟨r, s₂, hr, hr'⟩

/-- The first of the elements that have a property. -/
theorem exists_first {α : Type} {p : α → Prop} {xs : List α} (h : ∃ a ∈ xs, p a) :
    ∃ front a back, xs = front ++ a :: back ∧ p a ∧ ∀ b ∈ front, ¬ p b := by
  classical
  rcases h with ⟨a, ha, hpa⟩
  have hfound : (xs.find? fun a => decide (p a)).isSome := by
    simpa using ⟨a, ha, hpa⟩
  rcases Option.isSome_iff_exists.mp hfound with ⟨b, hb⟩
  rcases List.find?_eq_some_iff_append.mp hb with ⟨hpb, front, back, hxs, hfront⟩
  exact ⟨front, b, back, hxs, by simpa using hpb, by simpa using hfront⟩

/-- Under a cap of one and fail-fast, a call with a unit that fails and none that panics answers
with the failure of one unit.  That unit was planned before all others that fail, whether or not
they stand before it in the route.  So among those of its own target it has the lowest position, and
among all of them if the units of every target stand together. -/
theorem first_failure_on_one_connection (x : Nat) (kind : EntryPoint) (sweeping : Bool)
    (hrun : Run step? (start threads backend executors recorders) s)
    (h : s.Grouped e groups w) (hcap : e.cap ≤ 1) (hpolicy : s.policy = .failFast)
    (calm : ∀ u ∈ groups.flatMap Group.units, ¬ (s.workOf x e kind u).Panics)
    (hfails : ∃ u ∈ groups.flatMap Group.units, (s.workOf x e kind u).Fails) :
    ∃ u reason, u ∈ groups.flatMap Group.units ∧ e.route[u.position]? = some u.unit.route ∧
      (s.workOf x e kind u).outcome =
        .failure (.unit u.position u.unit.route.target reason) ∧
      (∀ v ∈ groups.flatMap Group.units, (s.workOf x e kind v).Fails →
        v = u ∨ Grouping.Precedes e.route u.planned v.planned) ∧
      (∀ v ∈ groups.flatMap Group.units, (s.workOf x e kind v).Fails →
        v.unit.route.target = u.unit.route.target ∨ Grouping.Clustered e.route →
          u.position ≤ v.position) ∧
      s.Yields x e kind sweeping fun r _ =>
        r = .failed (.execution (.unit u.position u.unit.route.target reason)) := by
  rcases exists_first hfails with ⟨front, u, back, hunits, ⟨err, hfailure⟩, hfront⟩
  rcases Assignment.failure_of_work hfailure with ⟨reason, rfl⟩
  -- there is a unit, and so there is the one group that the cap allows
  obtain ⟨g, rfl⟩ : ∃ g, groups = [g] := by
    have hle : groups.length ≤ 1 := by
      have hle := Grouping.length_le_cap h
      omega
    have hpos : 0 < groups.length := by
      apply List.length_pos_of_ne_nil
      rintro rfl
      simp at hunits
    exact List.length_eq_one_iff.mp (Nat.le_antisymm hle hpos)
  have hmem : u ∈ [g].flatMap Group.units := by simp [hunits]
  have hroute : ∀ v ∈ [g].flatMap Group.units, e.route[v.position]? = some v.unit.route := by
    intro v hv
    rcases List.mem_flatMap.mp hv with ⟨g', hg', hvg⟩
    exact (Grouping.bound_of_mem h hg' hvg).1
  have hfirst : ∀ v ∈ [g].flatMap Group.units, (s.workOf x e kind v).Fails →
      v = u ∨ Grouping.Precedes e.route u.planned v.planned := by
    have hordered := Grouping.pairwise_units h
    rw [hunits] at hordered ⊢
    intro v hv hvfails
    rcases List.mem_append.mp hv with hv | hv
    · exact absurd hvfails (hfront v hv)
    · rcases List.mem_cons.mp hv with hv | hv
      · exact .inl hv
      · exact .inr ((List.pairwise_cons.mp (List.pairwise_append.mp hordered).2.1).1 v hv)
  refine ⟨u, reason, hmem, hroute u hmem, hfailure, hfirst, ?_, ?_⟩
  · intro v hv hvfails hplaced
    rcases hfirst v hv hvfails with rfl | hprecedes
    · exact Nat.le_refl _
    · rcases hplaced with htarget | hclustered
      · exact Nat.le_of_lt (hprecedes.position_lt_of_target htarget.symm)
      · exact Nat.le_of_lt (hprecedes.position_lt hclustered (hroute u hmem) (hroute v hv))
  · have hsucceed : ∀ v ∈ front, (s.workOf x e kind v).Succeeds := by
      intro v hv
      have hvmem : v ∈ [g].flatMap Group.units := by simp [hunits, hv]
      rcases (s.workOf x e kind v).outcome_cases with hsucceeds | hvfails | hpanics
      · exact hsucceeds
      · exact absurd hvfails (hfront v hv)
      · exact absurd hpanics (calm v hvmem)
    rw [List.flatMap_singleton] at hunits
    exact yields_failure x kind sweeping hrun h hpolicy hunits hsucceed hfailure

end Session

/-! ## An example -/

/-- The second unit of `ds_0` comes behind the unit of `ds_1`. -/
def Executor.recurring : Executor :=
  { cap := 1
    sqlType := .dml
    options := {}
    route := [⟨"ds_0", ⟨"U0", []⟩⟩, ⟨"ds_1", ⟨"U1", []⟩⟩, ⟨"ds_0", ⟨"U2", []⟩⟩]
    bus := .empty }

/-- Grants everything, and fails two of three statements. -/
def Backend.faulty : Backend :=
  { Backend.willing with
    update := fun s =>
      if s.route.statement.sql = "U1" then .failure (.ofMessage "one")
      else if s.route.statement.sql = "U2" then .failure (.ofMessage "two") else .answer (some 1) }

namespace Session

/-- An executor by itself, under fail-fast. -/
def recurring : Session Unit :=
  start 1 .faulty [.recurring] 0

theorem run_recurring :
    Run step? (start 1 .faulty [.recurring] 0) recurring :=
  .refl

/-- The unit at position 2 is planned with the other one of its target. -/
theorem grouped_recurring : ∃ (g : Group Connection BoundUnit) (w : World)
    (u₀ u₂ u₁ : Placed BoundUnit) (a : Output), recurring.Grouped .recurring [g] w ∧
      g.units = [u₀, u₂, u₁] ∧ u₂.position = 2 ∧ u₁.position = 1 ∧
      u₂.unit.route.target = "ds_0" ∧ u₁.unit.route.target = "ds_1" ∧
      (recurring.workOf 0 .recurring .update u₀).outcome = .value a ∧
      (recurring.workOf 0 .recurring .update u₂).outcome = .failure (.unit 2 "ds_0" "two") ∧
      (recurring.workOf 0 .recurring .update u₁).outcome = .failure (.unit 1 "ds_1" "one") :=
  ⟨_, _, _, _, _, _, rfl, rfl, rfl, rfl, rfl, rfl, rfl, rfl, rfl⟩

/-- No unit panics and two of them fail, and the one that was planned first is answered for. -/
theorem first_failure_on_one_connection_recurring :
    ∃ (groups : List (Group Connection BoundUnit)) (w : World),
      recurring.Grouped .recurring groups w ∧ Executor.recurring.cap ≤ 1 ∧
      recurring.policy = .failFast ∧
      (∀ u ∈ groups.flatMap Group.units, ¬ (recurring.workOf 0 .recurring .update u).Panics) ∧
      (∃ u ∈ groups.flatMap Group.units, (recurring.workOf 0 .recurring .update u).Fails) ∧
      recurring.Yields 0 .recurring .update true fun r _ =>
        r = .failed (.execution (.unit 2 "ds_0" "two")) := by
  rcases grouped_recurring with
    ⟨g, w, u₀, u₂, u₁, a, h, hunits, h₂, h₁, ht₂, ht₁, hvalue, htwo, hone⟩
  have hcalm : ∀ u ∈ [g].flatMap Group.units,
      ¬ (recurring.workOf 0 .recurring .update u).Panics := by
    simp [hunits, Work.Panics, hvalue, htwo, hone]
  have hfails : ∃ u ∈ [g].flatMap Group.units, (recurring.workOf 0 .recurring .update u).Fails :=
    ⟨u₂, by simp [hunits], _, htwo⟩
  refine ⟨[g], w, h, by decide, rfl, hcalm, hfails, ?_⟩
  rcases first_failure_on_one_connection 0 .update true run_recurring h (by decide) rfl hcalm
    hfails with ⟨u, reason, hu, -, hfailure, hfirst, -, hyields⟩
  have hu : u = u₀ ∨ u = u₂ ∨ u = u₁ := by simpa [hunits] using hu
  rcases hu with rfl | rfl | rfl
  · rw [hvalue] at hfailure
    cases hfailure
  · rw [htwo] at hfailure
    rwa [← Outcome.failure.inj hfailure] at hyields
  · -- the other failure was planned before this one
    rcases hfirst u₂ (by simp [hunits]) ⟨_, htwo⟩ with rfl | hbefore
    · omega
    · simp [Grouping.Precedes, Placed.planned, Grouping.debut, Executor.recurring, ht₂, ht₁]
        at hbefore

/-- The failure at position 1 is the lowest of two, and it is not the answer. -/
theorem lower_failure_hidden :
    ∃ (groups : List (Group Connection BoundUnit)) (w : World) (u : Placed BoundUnit),
      recurring.Grouped .recurring groups w ∧ Executor.recurring.cap ≤ 1 ∧
      recurring.policy = .failFast ∧
      (∀ v ∈ groups.flatMap Group.units, ¬ (recurring.workOf 0 .recurring .update v).Panics) ∧
      u ∈ groups.flatMap Group.units ∧
      (recurring.workOf 0 .recurring .update u).outcome = .failure (.unit 1 "ds_1" "one") ∧
      (∀ v ∈ groups.flatMap Group.units, (recurring.workOf 0 .recurring .update v).Fails →
        u.position ≤ v.position) ∧
      ¬ recurring.Yields 0 .recurring .update true fun r _ =>
        r = .failed (.execution (.unit 1 "ds_1" "one")) := by
  rcases grouped_recurring with
    ⟨g, w, u₀, u₂, u₁, a, h, hunits, h₂, h₁, -, -, hvalue, htwo, hone⟩
  refine ⟨[g], w, u₁, h, by decide, rfl, ?_, by simp [hunits], hone, ?_, ?_⟩
  · simp [hunits, Work.Panics, hvalue, htwo, hone]
  · simp [hunits, Work.Fails, hvalue, h₁, h₂]
  · intro hlowest
    have hsplit : g.units = [u₀] ++ u₂ :: [u₁] := hunits
    have hsecond := yields_failure 0 .update true run_recurring h rfl hsplit
      (by simpa [Work.Succeeds] using ⟨a, hvalue⟩) htwo
    rcases hlowest.agree hsecond with ⟨r, s₂, rfl, hr⟩
    cases hr

end Session

end ScatterGather
