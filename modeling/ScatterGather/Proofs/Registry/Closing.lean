import Mathlib.Data.List.DropRight
import ScatterGather.Proofs.Registry.Cleanup

/-!
# Closing — a registry with nobody else at work

One client registers handles and closes everything from time to time.  Whatever fails to close, and
at whichever attempt, the registry is empty afterwards, so the next time there is nothing to attempt
but what was registered in between.

* `Cleanup.Deed` : what the client does, each deed being moves that nobody interrupts;
* `Deed.recent` : the deeds since everything was closed last;
* `Sweep.failure?` : the failure that a sweep remembers, which is that of the first attempt to fail;
* `Cleanup.attempt_all` : a sweep comes to the end of what it has taken;
* `Cleanup.perform?_closeAll` : closing everything as a whole;
* `Cleanup.closing_attempts_everything` : what every history of deeds comes to.
-/

namespace ScatterGather

variable {η θ : Type}

/-! ## The failure of a sweep -/

namespace Sweep

variable {fails : Nat → Resource η θ → Option String} {attempts : List (Resource η θ)}

/-- The first failure among attempts that are numbered from `n` on. -/
def failure? (fails : Nat → Resource η θ → Option String) (n : Nat)
    (attempts : List (Resource η θ)) : Option ExecutionError :=
  (attempts.zipIdx n).findSome? fun (x, k) => Registry.closeError? (fails k) x

theorem failure?_cons (n : Nat) (x : Resource η θ) : failure? fails n (x :: attempts) =
    (Registry.closeError? (fails n) x).or (failure? fails (n + 1) attempts) := by
  rw [failure?, List.zipIdx_cons, List.findSome?_cons]
  cases hx : Registry.closeError? (fails n) x <;> simp [hx, failure?]

theorem failure?_eq_none : failure? fails 0 attempts = none ↔
    ∀ (k : Nat) x, attempts[k]? = some x → fails k x = none := by
  simp only [failure?, List.findSome?_eq_none_iff, Prod.forall, List.mem_zipIdx_iff_getElem?,
    Registry.closeError?, Option.map_eq_none_iff]
  exact forall_comm

/-- No attempt before it has failed. -/
theorem of_failure? {e : ExecutionError} (h : failure? fails 0 attempts = some e) :
    ∃ (k : Nat) (x : Resource η θ) (reason : String), attempts[k]? = some x ∧
      fails k x = some reason ∧ e = .close x.kind reason ∧
      ∀ i < k, ∀ y, attempts[i]? = some y → fails i y = none := by
  rcases List.findSome?_eq_some_iff.mp h with ⟨front, ⟨x, k⟩, back, hsplit, hfails, hfront⟩
  have hnumbered (i : Nat) : (front ++ (x, k) :: back)[i]? = attempts[i]?.map fun y => (y, i) := by
    rw [← hsplit, List.getElem?_zipIdx, Nat.zero_add]
  -- the attempt stands where its number says
  have hx := hnumbered front.length
  rw [List.getElem?_append_right (Nat.le_refl _), Nat.sub_self, List.getElem?_cons_zero] at hx
  rcases Option.map_eq_some_iff.mp hx.symm with ⟨_, hk, heq⟩
  cases heq
  rcases Option.map_eq_some_iff.mp hfails with ⟨reason, hreason, rfl⟩
  refine ⟨_, x, reason, hk, hreason, rfl, ?_⟩
  intro i hi y hy
  have hmem := hnumbered i
  rw [List.getElem?_append_left hi, hy] at hmem
  simpa [Registry.closeError?] using hfront (y, i) (List.mem_of_getElem? hmem)

/-- Where the failures do not depend on the number of the attempt. -/
theorem failure?_const (f : Resource η θ → Option String) (attempts : List (Resource η θ)) :
    failure? (fun _ => f) 0 attempts = attempts.findSome? (Registry.closeError? f) := by
  conv_rhs => rw [← List.zipIdx_map_fst 0 attempts, List.findSome?_map]
  rfl

end Sweep

namespace Cleanup

variable {c c' : Cleanup η θ}

/-! ## Deeds -/

/-- What a client does to a registry that nobody else uses. -/
inductive Deed (η θ : Type)
  | trackStatement (position : Nat) (handle : η)
  | trackCursor (position : Nat) (handle : θ)
  /-- Closes everything, where `fails n` tells what cannot be closed at attempt `n`. -/
  | closeAll (fails : Nat → Resource η θ → Option String)

namespace Deed

def isClosing : Deed η θ → Bool
  | closeAll _ => true
  | _ => false

def statement? : Deed η θ → Option (Tracked η)
  | trackStatement position handle => some ⟨position, handle⟩
  | _ => none

def cursor? : Deed η θ → Option (Tracked θ)
  | trackCursor position handle => some ⟨position, handle⟩
  | _ => none

/-- The deeds since everything was closed last. -/
def recent (ds : List (Deed η θ)) : List (Deed η θ) :=
  ds.rtakeWhile fun d => !d.isClosing

/-- A sweep takes two steps to take both lists, and one for each attempt. -/
def moves (c : Cleanup η θ) : Deed η θ → List (Move η θ)
  | trackStatement position handle => [.trackStatement position handle]
  | trackCursor position handle => [.trackCursor position handle]
  | closeAll fails =>
      let sweep (n : Nat) : Move η θ := .sweep c.sweeps.length (fails n)
      .beginSweep :: sweep 0 :: sweep 0 :: (List.range' 0 c.registry.resources.length).map sweep

end Deed

def perform? (c : Cleanup η θ) (d : Deed η θ) : Option (Cleanup η θ) :=
  (d.moves c).foldlM step? c

/-- By induction on the handles that the sweep has still to attempt. -/
theorem attempt_all {i : Nat} {left : List (Resource η θ)} {failure : Option ExecutionError}
    (fails : Nat → Resource η θ → Option String) (n : Nat)
    (h : c.sweeps[i]? = some (.closing left failure)) :
    ((List.range' n left.length).map fun k => .sweep i (fails k)).foldlM step? c =
      some { c with
        sweeps := c.sweeps.set i (.closing [] (failure.or (Sweep.failure? fails n left)))
        attempted := c.attempted ++ left } := by
  induction left generalizing c n failure with
  | nil =>
      rcases List.getElem?_eq_some_iff.mp h with ⟨hlt, hget⟩
      have hsame : c.sweeps.set i (.closing [] failure) = c.sweeps :=
        hget ▸ List.set_getElem_self hlt
      simp [Sweep.failure?, hsame]
  | cons x left ih =>
      have hlt := (List.getElem?_eq_some_iff.mp h).1
      -- the first attempt is made, whether or not it fails
      obtain ⟨c₁, hc₁⟩ : ∃ c₁, c₁ = { c with
          sweeps := c.sweeps.set i
            (.closing left (failure.or (Registry.closeError? (fails n) x)))
          attempted := c.attempted ++ [x] } := ⟨_, rfl⟩
      have hstep : c.step? (.sweep i (fails n)) = some c₁ :=
        hc₁ ▸ sweepStep?_eq_some.mpr ⟨_, _, _, _, h, rfl, rfl⟩
      have hsweep : c₁.sweeps[i]? =
          some (.closing left (failure.or (Registry.closeError? (fails n) x))) := by
        rw [hc₁]
        exact List.getElem?_set_self hlt
      rw [List.length_cons, List.range'_succ, List.map_cons, List.foldlM_cons, hstep]
      refine (ih (n + 1) hsweep).trans ?_
      simp [hc₁, Sweep.failure?_cons, Option.or_assoc]

/-- Closing everything attempts what is tracked, forgets it, and comes to an answer. -/
theorem perform?_closeAll (c : Cleanup η θ) (fails : Nat → Resource η θ → Option String) :
    c.perform? (.closeAll fails) = some { c with
      registry := .empty
      sweeps := c.sweeps ++ [.closing [] (Sweep.failure? fails 0 c.registry.resources)]
      attempted := c.attempted ++ c.registry.resources } := by
  obtain ⟨c₁, hc₁⟩ : ∃ c₁, c₁ = { c with
      registry := .empty
      sweeps := c.sweeps ++ [Sweep.closing c.registry.resources none] } := ⟨_, rfl⟩
  -- the sweep begins and takes both lists
  have htake (moves : List (Move η θ)) :
      (.beginSweep :: .sweep c.sweeps.length (fails 0) :: .sweep c.sweeps.length (fails 0) ::
        moves).foldlM step? c = moves.foldlM step? c₁ := by
    simp [step?, sweepStep?, Sweep.step?, hc₁, Registry.empty]
  have hsweep : c₁.sweeps[c.sweeps.length]? = some (.closing c.registry.resources none) := by
    simp [hc₁]
  rw [perform?, Deed.moves, htake, attempt_all fails 0 hsweep]
  simp [hc₁]

/-! ## Histories -/

section

open Deed

/-- By induction on the deeds: each adds its handle, and closing forgets them all. -/
theorem exists_performed (ds : List (Deed η θ)) : ∃ c, ds.foldlM perform? empty = some c ∧
    c.registry = ⟨(recent ds).filterMap statement?, (recent ds).filterMap cursor?⟩ := by
  induction ds using List.reverseRecOn with
  | nil => exact ⟨empty, rfl, rfl⟩
  | append_singleton ds d ih =>
      rcases ih with ⟨c, hc, hregistry⟩
      have hlast {c' : Cleanup η θ} (h : c.perform? d = some c') :
          (ds ++ [d]).foldlM perform? empty = some c' := by
        simp [List.foldlM_append, hc, h]
      cases d with
      | trackStatement position handle =>
          refine ⟨_, hlast rfl, ?_⟩
          simp [recent, isClosing, statement?, cursor?,
            Registry.trackStatement, hregistry]
      | trackCursor position handle =>
          refine ⟨_, hlast rfl, ?_⟩
          simp [recent, isClosing, statement?, cursor?,
            Registry.trackCursor, hregistry]
      | closeAll fails =>
          refine ⟨_, hlast (c.perform?_closeAll fails), ?_⟩
          simp [recent, isClosing, Registry.empty]

/-- At any time a registry with one client tracks what was registered since everything was closed
last, in that order, and counts it.  Closing everything then attempts just that, the cursors first,
and leaves nothing tracked.  Its answer is a success if and only if no attempt fails, and else the
failure of the first that does.  Where the failures do not depend on the number of the attempt, this
is what `Registry.closeAll` does in one step. -/
theorem closing_attempts_everything (ds : List (Deed η θ)) :
    ∃ c, ds.foldlM perform? empty = some c ∧
      c.registry.statements = (recent ds).filterMap statement? ∧
      c.registry.cursors = (recent ds).filterMap cursor? ∧
      c.registry.counts = ((recent ds).countP fun d => d.statement?.isSome,
        (recent ds).countP fun d => d.cursor?.isSome) ∧
      ∀ fails, ∃ c' sweep answer attempts, c.perform? (.closeAll fails) = some c' ∧
        attempts = ((recent ds).filterMap cursor?).map (fun x => .cursor x.handle) ++
          ((recent ds).filterMap statement?).map (fun x => .statement x.handle) ∧
        c'.attempted = c.attempted ++ attempts ∧
        c'.registry.statements = [] ∧ c'.registry.cursors = [] ∧
        c'.sweeps = c.sweeps ++ [sweep] ∧ sweep.answer? = some answer ∧
        (answer = .ok () ↔ ∀ (k : Nat) x, attempts[k]? = some x → fails k x = none) ∧
        (∀ e, answer = .error e → ∃ (k : Nat) (x : Resource η θ) (reason : String),
          attempts[k]? = some x ∧ fails k x = some reason ∧ e = .close x.kind reason ∧
            ∀ i < k, ∀ y, attempts[i]? = some y → fails i y = none) ∧
        ∀ f, (∀ k, fails k = f) → c.registry.closeAll f = (answer, attempts, c'.registry) := by
  rcases exists_performed ds with ⟨c, hc, hregistry⟩
  have hstatements : c.registry.statements = (recent ds).filterMap statement? := by rw [hregistry]
  have hcursors : c.registry.cursors = (recent ds).filterMap cursor? := by rw [hregistry]
  refine ⟨c, hc, hstatements, hcursors, ?_, ?_⟩
  · rw [Registry.counts, hstatements, hcursors, List.length_filterMap_eq_countP,
      List.length_filterMap_eq_countP]
  · intro fails
    have hattempts : c.registry.resources =
        ((recent ds).filterMap cursor?).map (fun x => .cursor x.handle) ++
          ((recent ds).filterMap statement?).map (fun x => .statement x.handle) := by
      rw [Registry.resources, hstatements, hcursors]
    rw [← hattempts]
    have hperformed := c.perform?_closeAll fails
    have hsame (f : Resource η θ → Option String) (hf : ∀ k, fails k = f) :
        Sweep.failure? fails 0 c.registry.resources =
          c.registry.resources.findSome? (Registry.closeError? f) := by
      rw [funext hf, Sweep.failure?_const]
    cases hfailure : Sweep.failure? fails 0 c.registry.resources with
    | none =>
        rw [hfailure] at hperformed hsame
        refine ⟨_, _, .ok (), _, hperformed, rfl, rfl, rfl, rfl, rfl, rfl, ?_, ?_, ?_⟩
        · exact iff_of_true rfl (Sweep.failure?_eq_none.mp hfailure)
        · rintro e ⟨⟩
        · intro f hf
          rw [Registry.closeAll, ← hsame f hf]
    | some e =>
        rw [hfailure] at hperformed hsame
        refine ⟨_, _, .error e, _, hperformed, rfl, rfl, rfl, rfl, rfl, rfl, ?_, ?_, ?_⟩
        · refine iff_of_false (by rintro ⟨⟩) ?_
          intro hnone
          rw [Sweep.failure?_eq_none.mpr hnone] at hfailure
          cases hfailure
        · rintro _ ⟨⟩
          exact Sweep.of_failure? hfailure
        · intro f hf
          rw [Registry.closeAll, ← hsame f hf]

end

end Cleanup

end ScatterGather
