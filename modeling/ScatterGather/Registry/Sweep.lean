import ScatterGather.Registry

/-!
# Sweep — closing everything while others still register

Closing everything is not one step: a sweep takes the list of cursors, then takes the list of
statements, and then attempts one handle after the other. Registrations and other sweeps may come
in between.

* `Sweep.step?` : the next step of a sweep, and the handle that it attempts.
* `Sweep.answer?` : the answer of a sweep that is over.
-/

namespace ScatterGather

inductive Sweep (η θ : Type)
  /-- About to take the cursors. -/
  | fresh
  /-- Has taken the cursors and is about to take the statements. -/
  | tookCursors (cursors : List (Tracked θ))
  /-- Has the handles `left` still to attempt. -/
  | closing (left : List (Resource η θ)) (failure : Option ExecutionError)

namespace Sweep

variable {η θ : Type}

def step? (fails : Resource η θ → Option String) (r : Registry η θ) :
    Sweep η θ → Option (Sweep η θ × Registry η θ × Option (Resource η θ))
  | fresh => some (tookCursors r.cursors, { r with cursors := [] }, none)
  | tookCursors cursors =>
      some (closing (Registry.resources ⟨r.statements, cursors⟩) none,
        { r with statements := [] }, none)
  | closing (x :: left) failure =>
      some (closing left (failure.or (Registry.closeError? fails x)), r, some x)
  | closing [] _ => none

def answer? : Sweep η θ → Option (Except ExecutionError Unit)
  | closing [] none => some (.ok ())
  | closing [] (some e) => some (.error e)
  | _ => none

/-- The handles that a sweep has taken and not attempted. -/
def taken : Sweep η θ → List (Resource η θ)
  | fresh => []
  | tookCursors cursors => cursors.map fun c => .cursor c.handle
  | closing left _ => left

end Sweep

end ScatterGather
