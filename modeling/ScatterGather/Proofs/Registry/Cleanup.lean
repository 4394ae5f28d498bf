import Mathlib.Algebra.Order.Group.Multiset
import Mathlib.Tactic.Abel
import ScatterGather.Proofs.Run
import ScatterGather.Registry.Sweep

/-!
# Cleanup — closing what others still register

Workers register what they open, and any number of sweeps close it, each step by step.  All of them
share one registry, and nothing is said about who comes next.  Books are kept of every handle that
was registered and of every attempt to close one, and between the two no handle is lost or doubled.

* `Cleanup.step?` : a registration, the beginning of a sweep, or the next step of one;
* `Cleanup.Balanced` : each handle is tracked, taken by a sweep, or attempted;
* `Cleanup.Balanced.step` : every step keeps it so, whatever fails to close;
* `Cleanup.Drained` : what a sweep leaves behind when nothing more is registered;
* `Cleanup.Located` : a handle is in one of three places, and there once;
* `Cleanup.every_handle_attempted_once` : every handle is located, and all are attempted in the end.
-/

namespace ScatterGather

/-- A registry with the sweeps that were begun on it. -/
structure Cleanup (η θ : Type) where
  registry : Registry η θ
  sweeps : List (Sweep η θ)
  /-- Every handle that was ever registered. -/
  registered : List (Resource η θ)
  /-- Every attempt to close a handle. -/
  attempted : List (Resource η θ)

namespace Cleanup

variable {η θ : Type}

/-! ## Steps -/

def empty : Cleanup η θ :=
  ⟨.empty, [], [], []⟩

inductive Move (η θ : Type)
  | trackStatement (position : Nat) (handle : η)
  | trackCursor (position : Nat) (handle : θ)
  | beginSweep
  /-- The next step of sweep `i`, where `fails` tells what cannot be closed at that time. -/
  | sweep (i : Nat) (fails : Resource η θ → Option String)

def sweepStep? (c : Cleanup η θ) (i : Nat) (fails : Resource η θ → Option String) :
    Option (Cleanup η θ) := do
  let sweep ← c.sweeps[i]?
  let (sweep, registry, attempt) ← sweep.step? fails c.registry
  some { c with
    registry
    sweeps := c.sweeps.set i sweep
    attempted := c.attempted ++ attempt.toList }

def step? (c : Cleanup η θ) : Move η θ → Option (Cleanup η θ)
  | .trackStatement position handle =>
      some { c with
        registry := c.registry.trackStatement position handle
        registered := c.registered ++ [.statement handle] }
  | .trackCursor position handle =>
      some { c with
        registry := c.registry.trackCursor position handle
        registered := c.registered ++ [.cursor handle] }
  | .beginSweep => some { c with sweeps := c.sweeps ++ [.fresh] }
  | .sweep i fails => c.sweepStep? i fails

variable {c c' c₁ c₂ : Cleanup η θ} {i : Nat} {fails : Resource η θ → Option String}

theorem sweepStep?_eq_some : c.sweepStep? i fails = some c' ↔
    ∃ sweep sweep' registry attempt, c.sweeps[i]? = some sweep ∧
      sweep.step? fails c.registry = some (sweep', registry, attempt) ∧
      c' = { c with
        registry
        sweeps := c.sweeps.set i sweep'
        attempted := c.attempted ++ attempt.toList } := by
  simp only [sweepStep?, Option.bind_eq_bind, Option.bind_eq_some_iff, Option.some.injEq,
    Prod.exists]
  constructor
  · rintro ⟨sweep, hsweep, sweep', registry, attempt, hstep, rfl⟩
    exact ⟨sweep, sweep', registry, attempt, hsweep, hstep, rfl⟩
  · rintro ⟨sweep, sweep', registry, attempt, hsweep, hstep, rfl⟩
    exact ⟨sweep, hsweep, sweep', registry, attempt, hstep, rfl⟩

end Cleanup

/-! ## One sweep -/

namespace Registry

variable {η θ : Type} (r : Registry η θ) (position : Nat)

theorem resources_trackStatement (handle : η) :
    (r.trackStatement position handle).resources = r.resources ++ [.statement handle] := by
  simp [resources, trackStatement]

theorem resources_trackCursor (handle : θ) :
    (r.trackCursor position handle).resources.Perm (r.resources ++ [.cursor handle]) := by
  simp only [resources, trackCursor, List.map_append, List.map_singleton, List.append_assoc]
  exact List.perm_append_comm.append_left _

end Registry

namespace Sweep

variable {η θ : Type} {fails : Resource η θ → Option String} {r r' : Registry η θ}
  {sweep sweep' : Sweep η θ} {attempt : Option (Resource η θ)}

/-- A sweep takes from the registry and attempts what it has taken, and that is all. -/
theorem step?_perm (h : sweep.step? fails r = some (sweep', r', attempt)) :
    (r.resources ++ sweep.taken).Perm (r'.resources ++ sweep'.taken ++ attempt.toList) := by
  cases sweep with
  | fresh =>
      cases h
      simp only [Registry.resources, taken, Option.toList_none, List.append_nil, List.map_nil,
        List.nil_append]
      exact List.perm_append_comm
  | tookCursors cursors =>
      cases h
      simp only [Registry.resources, taken, Option.toList_none, List.append_nil, List.map_nil,
        List.append_assoc]
      exact List.perm_append_comm.append_left _
  | closing left failure =>
      cases left with
      | nil => cases h
      | cons x left =>
          cases h
          simp only [taken, Option.toList_some, List.append_assoc]
          exact (List.perm_append_singleton x left).symm.append_left _

/-- A sweep that has its answer has nothing left to attempt. -/
theorem taken_of_answer (h : sweep.answer?.isSome) : sweep.taken = [] := by
  cases sweep with
  | fresh | tookCursors => cases h
  | closing left failure =>
      cases left with
      | nil => rfl
      | cons x left => cases h

end Sweep

namespace Cleanup

variable {η θ : Type} {c c' c₁ c₂ : Cleanup η θ} {i : Nat}

/-! ## The books -/

/-- The handles that are tracked, that a sweep has taken, and that were attempted are together all
that were registered. -/
def Balanced (c : Cleanup η θ) : Prop :=
  c.registered.Perm (c.registry.resources ++ c.sweeps.flatMap Sweep.taken ++ c.attempted)

theorem balanced_empty : (empty : Cleanup η θ).Balanced :=
  .refl []

/-- What one sweep has taken, and what the others have. -/
theorem exists_others {sweep : Sweep η θ} (h : c.sweeps[i]? = some sweep) :
    ∃ others, (c.sweeps.flatMap Sweep.taken).Perm (sweep.taken ++ others) ∧
      ∀ sweep', ((c.sweeps.set i sweep').flatMap Sweep.taken).Perm (sweep'.taken ++ others) := by
  rcases List.getElem?_eq_some_iff.mp h with ⟨hlt, hget⟩
  have hset (sweep' : Sweep η θ) : ((c.sweeps.set i sweep').flatMap Sweep.taken).Perm
      (sweep'.taken ++ ((c.sweeps.take i).flatMap Sweep.taken ++
        (c.sweeps.drop (i + 1)).flatMap Sweep.taken)) := by
    rw [List.set_eq_take_append_cons_drop, if_pos hlt, List.flatMap_append, List.flatMap_cons]
    exact List.perm_append_comm_assoc ..
  refine ⟨_, ?_, hset⟩
  have hself : c.sweeps.set i sweep = c.sweeps := hget ▸ List.set_getElem_self hlt
  simpa only [hself] using hset sweep

theorem Balanced.sweep {fails : Resource η θ → Option String} (h : c.Balanced)
    (hstep : c.sweepStep? i fails = some c') : c'.Balanced := by
  rcases sweepStep?_eq_some.mp hstep with ⟨sweep, sweep', r, attempt, hsweep, hmove, rfl⟩
  rcases exists_others hsweep with ⟨others, hold, hnew⟩
  have hone := Sweep.step?_perm hmove
  have hnew := hnew sweep'
  simp only [Balanced, ← Multiset.coe_eq_coe, ← Multiset.coe_add] at h hold hnew hone ⊢
  -- the registry and this sweep balance between them, and nobody else has moved
  calc
    (c.registered : Multiset (Resource η θ))
        = (↑c.registry.resources + ↑sweep.taken) + ↑others + ↑c.attempted := by rw [h, hold]; abel
    _ = ↑r.resources + (↑sweep'.taken + ↑others) + (↑c.attempted + ↑attempt.toList) := by
          rw [hone]
          abel
    _ = _ := by rw [hnew]

theorem Balanced.step {m : Move η θ} (h : c.Balanced) (hstep : c.step? m = some c') :
    c'.Balanced := by
  cases m with
  | trackStatement position handle =>
      cases hstep
      rw [Balanced, Registry.resources_trackStatement]
      simp only [Balanced, ← Multiset.coe_eq_coe, ← Multiset.coe_add] at h ⊢
      rw [h]
      abel
  | trackCursor position handle =>
      cases hstep
      have htracked := Registry.resources_trackCursor c.registry position handle
      simp only [Balanced, ← Multiset.coe_eq_coe, ← Multiset.coe_add] at h htracked ⊢
      rw [h, htracked]
      abel
  | beginSweep =>
      cases hstep
      simpa [Balanced, Sweep.taken] using h
  | sweep i fails => exact h.sweep hstep

theorem balanced_of_run (h : Run step? empty c) : c.Balanced :=
  Run.preserves Balanced.step h balanced_empty

/-! ## The last sweep -/

/-- Sweep `i` leaves nothing in the lists that it has taken. -/
def Drained (i : Nat) (c : Cleanup η θ) : Prop :=
  ∃ sweep, c.sweeps[i]? = some sweep ∧
    match sweep with
    | .fresh => True
    | .tookCursors _ => c.registry.cursors = []
    | .closing _ _ => c.registry = .empty

theorem registered_grows {m : Move η θ} (h : c.step? m = some c') :
    c.registered <+: c'.registered := by
  cases m with
  | trackStatement | trackCursor =>
      cases h
      exact List.prefix_append ..
  | beginSweep =>
      cases h
      exact List.prefix_rfl
  | sweep i fails =>
      rcases sweepStep?_eq_some.mp h with ⟨sweep, sweep', r, attempt, -, -, rfl⟩
      exact List.prefix_rfl

/-- A sweep that takes an empty list leaves it empty. -/
theorem Drained.sweep {k : Nat} {fails : Resource η θ → Option String} (h : c.Drained i)
    (hstep : c.sweepStep? k fails = some c') : c'.Drained i := by
  rcases sweepStep?_eq_some.mp hstep with ⟨sweep, sweep', r, attempt, hsweep, hmove, rfl⟩
  rcases h with ⟨mine, hmine, hdrained⟩
  have hlt : k < c.sweeps.length := (List.getElem?_eq_some_iff.mp hsweep).1
  by_cases hki : k = i
  · subst hki
    have hsame : sweep = mine := Option.some.inj (hsweep.symm.trans hmine)
    subst hsame
    refine ⟨sweep', List.getElem?_set_self hlt, ?_⟩
    cases sweep with
    | fresh =>
        cases hmove
        rfl
    | tookCursors cursors =>
        cases hmove
        exact congrArg (Registry.mk []) hdrained
    | closing left failure =>
        cases left with
        | nil => cases hmove
        | cons x left =>
            cases hmove
            exact hdrained
  · -- another sweep may take from the lists, but it adds nothing to them
    refine ⟨mine, (List.getElem?_set_ne hki).trans hmine, ?_⟩
    have hless : (c.registry.cursors = [] → r.cursors = []) ∧
        (c.registry = .empty → r = .empty) := by
      cases sweep with
      | fresh =>
          cases hmove
          exact ⟨fun _ => rfl, fun he => by rw [he]; rfl⟩
      | tookCursors cursors =>
          cases hmove
          exact ⟨id, fun he => by rw [he]; rfl⟩
      | closing left failure =>
          cases left with
          | nil => cases hmove
          | cons x left =>
              cases hmove
              exact ⟨id, id⟩
    cases mine with
    | fresh => trivial
    | tookCursors cursors => exact hless.1 hdrained
    | closing left failure => exact hless.2 hdrained

theorem Drained.step {m : Move η θ} (h : c.Drained i) (hstep : c.step? m = some c')
    (hsame : c'.registered = c.registered) : c'.Drained i := by
  cases m with
  | trackStatement | trackCursor =>
      -- nothing was registered
      cases hstep
      simp at hsame
  | beginSweep =>
      cases hstep
      rcases h with ⟨mine, hmine, hdrained⟩
      have hlt : i < c.sweeps.length := (List.getElem?_eq_some_iff.mp hmine).1
      exact ⟨mine, (List.getElem?_append_left hlt).trans hmine, hdrained⟩
  | sweep k fails => exact h.sweep hstep

/-- By induction on the run, in which nothing is registered up to any point of it. -/
theorem drained_of_run (hbegin : c₁.step? .beginSweep = some c₂) (hrun : Run step? c₂ c)
    (hlast : c.registered = c₁.registered) : c.Drained c₁.sweeps.length := by
  cases hbegin
  have hbegun : ({ c₁ with sweeps := c₁.sweeps ++ [.fresh] } : Cleanup η θ).Drained
      c₁.sweeps.length := ⟨.fresh, by simp, trivial⟩
  -- registrations are never taken back, so if there are no more in the end there were none before
  have hkept : c₁.registered <+: c.registered ∧
      (c.registered = c₁.registered → c.Drained c₁.sweeps.length) := by
    refine Run.preserves (P := fun c : Cleanup η θ => c₁.registered <+: c.registered ∧
      (c.registered = c₁.registered → c.Drained c₁.sweeps.length)) ?_ hrun
        ⟨List.prefix_rfl, fun _ => hbegun⟩
    rintro c c' m ⟨hmore, hdrained⟩ hstep
    have hgrows := registered_grows hstep
    refine ⟨hmore.trans hgrows, fun hsame => ?_⟩
    have hbefore : c.registered = c₁.registered := (hsame ▸ hgrows).eq_of_length_le hmore.length_le
    exact (hdrained hbefore).step hstep (hsame.trans hbefore.symm)
  exact hkept.2 hlast

/-! ## Every handle -/

/-- What occurs once in all lists together is in one of them, once. -/
theorem exists_of_count_flatMap {α β : Type} [DecidableEq β] {f : α → List β} {as : List α} {x : β}
    (h : (as.flatMap f).count x = 1) : ∃ front a back, as = front ++ a :: back ∧
      (f a).count x = 1 ∧ ∀ a' ∈ front ++ back, x ∉ f a' := by
  have hmem : x ∈ as.flatMap f := List.count_pos_iff.mp (by omega)
  rcases List.mem_flatMap.mp hmem with ⟨a, ha, hx⟩
  rcases List.append_of_mem ha with ⟨front, back, rfl⟩
  have hpos : 0 < (f a).count x := List.count_pos_iff.mpr hx
  rw [List.flatMap_append, List.flatMap_cons, List.count_append, List.count_append] at h
  refine ⟨front, a, back, rfl, by omega, ?_⟩
  intro a' ha' hx'
  have hone : 0 < ((front ++ back).flatMap f).count x :=
    List.count_pos_iff.mpr (List.mem_flatMap.mpr ⟨a', ha', hx'⟩)
  rw [List.flatMap_append, List.count_append] at hone
  omega

/-- The one place of a handle that was registered once. -/
inductive Located [DecidableEq η] [DecidableEq θ] (c : Cleanup η θ) (x : Resource η θ) : Prop
  /-- In its list, where the next sweep finds it. -/
  | tracked (htracked : c.registry.resources.count x = 1)
      (htaken : ∀ sweep ∈ c.sweeps, x ∉ sweep.taken) (hattempted : x ∉ c.attempted)
  /-- With one sweep, which has not come to it. -/
  | taken (front : List (Sweep η θ)) (sweep : Sweep η θ) (back : List (Sweep η θ))
      (hsweeps : c.sweeps = front ++ sweep :: back) (htaken : sweep.taken.count x = 1)
      (hothers : ∀ other ∈ front ++ back, x ∉ other.taken)
      (htracked : x ∉ c.registry.resources) (hattempted : x ∉ c.attempted)
  | attempted (hattempted : c.attempted.count x = 1) (htracked : x ∉ c.registry.resources)
      (htaken : ∀ sweep ∈ c.sweeps, x ∉ sweep.taken)

theorem Balanced.located [DecidableEq η] [DecidableEq θ] (h : c.Balanced) {x : Resource η θ}
    (hx : c.registered.count x = 1) : c.Located x := by
  have hcount := h.count_eq x
  have huntaken (hnone : (c.sweeps.flatMap Sweep.taken).count x = 0) :
      ∀ sweep ∈ c.sweeps, x ∉ sweep.taken := fun sweep hs hmem =>
    List.count_eq_zero.mp hnone (List.mem_flatMap.mpr ⟨sweep, hs, hmem⟩)
  -- three counts add up to one, so one of them is one and the others are nothing
  rw [hx, List.count_append, List.count_append] at hcount
  by_cases htracked : c.registry.resources.count x = 1
  · exact .tracked htracked (huntaken (by omega)) (List.count_eq_zero.mp (by omega))
  · have hfree : x ∉ c.registry.resources := List.count_eq_zero.mp (by omega)
    by_cases htaken : (c.sweeps.flatMap Sweep.taken).count x = 1
    · rcases exists_of_count_flatMap htaken with ⟨front, sweep, back, hsweeps, hone, hothers⟩
      exact .taken front sweep back hsweeps hone hothers hfree (List.count_eq_zero.mp (by omega))
    · exact .attempted (by omega) hfree (huntaken (by omega))

/-- A sweep that was begun after the last registration leaves nothing tracked behind, and sweeps
that are over have nothing left. -/
theorem attempted_perm (hrun : Run step? empty c) (hbegin : c₁.step? .beginSweep = some c₂)
    (hlater : Run step? c₂ c) (hlast : c.registered = c₁.registered)
    (hover : ∀ sweep ∈ c.sweeps, sweep.answer?.isSome) : c.attempted.Perm c.registered := by
  have hbalanced := balanced_of_run hrun
  rcases drained_of_run hbegin hlater hlast with ⟨sweep, hsweep, hdrained⟩
  have hempty : c.registry = .empty := by
    have hanswer := hover sweep (List.mem_of_getElem? hsweep)
    cases sweep with
    | fresh | tookCursors => cases hanswer
    | closing left failure => exact hdrained
  have htaken : c.sweeps.flatMap Sweep.taken = [] :=
    List.flatMap_eq_nil_iff.mpr fun sweep hs => Sweep.taken_of_answer (hover sweep hs)
  rw [Balanced, hempty, htaken] at hbalanced
  exact hbalanced.symm

/-- At any time the handles that were registered are those that are tracked, those that sweeps have
taken and not attempted, and those that were attempted, and one that was registered once is in one
of these places, once.  When all sweeps are over, and one of them was begun after the last
registration, every handle was attempted as often as it was registered. -/
theorem every_handle_attempted_once [DecidableEq η] [DecidableEq θ] (hrun : Run step? empty c) :
    c.registered.Perm (c.registry.resources ++ c.sweeps.flatMap Sweep.taken ++ c.attempted) ∧
    (∀ x, c.registered.count x = 1 → c.Located x) ∧
    ∀ c₁ c₂ : Cleanup η θ, c₁.step? .beginSweep = some c₂ → Run step? c₂ c →
      c.registered = c₁.registered → (∀ sweep ∈ c.sweeps, sweep.answer?.isSome) →
      c.attempted.Perm c.registered := by
  have hbalanced := balanced_of_run hrun
  refine ⟨hbalanced, fun x => hbalanced.located, ?_⟩
  intro c₁ c₂ hbegin hlater hlast hover
  exact attempted_perm hrun hbegin hlater hlast hover

/-! ## An example -/

/-- A straggler registers a cursor after the first sweep has taken the cursors and before it takes
the statements.  The second sweep comes to the cursor.  Nothing can be closed. -/
def straggling : List (Move String String) :=
  let sweep (i : Nat) : Move String String := .sweep i fun _ => some "timed out"
  [.trackStatement 0 "s0", .trackCursor 0 "c0", .beginSweep, sweep 0, .trackStatement 1 "s1",
    .trackCursor 1 "c1", sweep 0, .beginSweep, sweep 0, sweep 1, sweep 1, sweep 0, sweep 1, sweep 0]

theorem every_handle_attempted_once_straggling : ∃ c₁ c₂ c : Cleanup String String,
    Run step? empty c ∧ c₁.step? .beginSweep = some c₂ ∧ Run step? c₂ c ∧
      c.registered = c₁.registered ∧ (∀ sweep ∈ c.sweeps, sweep.answer?.isSome) ∧
      c.registered.count (.cursor "c1") = 1 ∧ c.Located (.cursor "c1") ∧
      c.attempted.Perm c.registered := by
  obtain ⟨c₁, c₂, c, hfirst, hbegin, hrest, hlast, hover, hone⟩ :
      ∃ c₁ c₂ c : Cleanup String String, (straggling.take 7).foldlM step? empty = some c₁ ∧
        c₁.step? .beginSweep = some c₂ ∧ (straggling.drop 8).foldlM step? c₂ = some c ∧
        c.registered = c₁.registered ∧ c.sweeps.all (fun sweep => sweep.answer?.isSome) ∧
        c.registered.count (.cursor "c1") = 1 :=
    ⟨_, _, _, rfl, rfl, rfl, rfl, rfl, by decide⟩
  have hover := List.all_eq_true.mp hover
  have hlater := Run.of_moves hrest
  have hrun : Run step? empty c := ((Run.of_moves hfirst).snoc hbegin).trans hlater
  rcases every_handle_attempted_once hrun with ⟨-, hlocated, hend⟩
  exact ⟨c₁, c₂, c, hrun, hbegin, hlater, hlast, hover, hone, hlocated _ hone,
    hend c₁ c₂ hbegin hlater hlast hover⟩

end Cleanup

end ScatterGather
