/-!
# Schedule — one run out of the many that a machine allows

A machine says which moves are possible; a schedule picks. `Schedule.run` gives every mover its
turn in rotation and passes over moves that are held back, until the goal is reached, nothing can
move, or the steps that it was given are used up.

Named passages let one mover wait for another: a passage is entered, and it is left only once its
gate is open.

* `Gate` : what has to have happened before a passage can be left.
* `Passage` : entering or leaving a named passage.
* `Schedule.run` : the rotation.
-/

namespace ScatterGather

/-! ## Gates -/

structure Gate where
  /-- Passages that have to be entered first. -/
  afterStart : List String
  /-- Passages that have to be left first. -/
  afterEnd : List String
  /-- Whether the call that started the work has to return first. -/
  afterReturn : Bool

inductive Passage
  | entering (name : String)
  | leaving (name : String)
  deriving DecidableEq

/-- Whether the passages behind and the return of the call open a gate. -/
def Gate.isOpen (g : Gate) (passed : List Passage) (returned : Bool) : Bool :=
  g.afterStart.all (fun name => passed.contains (.entering name)) &&
    g.afterEnd.all (fun name => passed.contains (.leaving name)) &&
      (returned || !g.afterReturn)

/-- Whether a passage may happen, where `gate` knows the gates by name. -/
def Passage.isOpen (gate : String → Gate) (passed : List Passage) (returned : Bool) :
    Passage → Bool
  | .entering _ => true
  | .leaving name => (gate name).isOpen passed returned

/-! ## Rotation -/

namespace Schedule

variable {σ μ : Type}

/-- The first of the moves that is possible and not held back, its successor state, and the moves
rotated so that the mover comes last. -/
def pick (step? : σ → μ → Option σ) (held : σ → μ → Bool) (s : σ) :
    List μ → List μ → Option (σ × List μ)
  | _, [] => none
  | passedOver, m :: rest =>
    match if held s m then none else step? s m with
    | some next => some (next, rest ++ passedOver ++ [m])
    | none => pick step? held s (passedOver ++ [m]) rest

def run (step? : σ → μ → Option σ) (held : σ → μ → Bool) (goal : σ → Bool) :
    Nat → List μ → σ → σ
  | 0, _, s => s
  | steps + 1, moves, s =>
    if goal s then s
    else
      match pick step? held s [] moves with
      | some (next, moves) => run step? held goal steps moves next
      | none => s

end Schedule

end ScatterGather
