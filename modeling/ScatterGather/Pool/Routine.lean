import ScatterGather.Pool

/-!
# Routine — a job that leaves marks and then ends or panics

The simplest job of a pool performs a list of effects, one a step, and adds each to a shared
history.
-/

namespace ScatterGather

structure Routine (κ : Type) where
  effects : List κ
  panics : Bool

namespace Routine

variable {κ : Type}

def advance (r : Routine κ) (history : List κ) : Progress (Routine κ) × List κ :=
  match r.effects with
  | effect :: left => (.continues { r with effects := left }, history ++ [effect])
  | [] => (if r.panics then .panics else .ends, history)

def size (r : Routine κ) : Nat :=
  r.effects.length + 3

end Routine

end ScatterGather
