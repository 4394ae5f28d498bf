import ScatterGather.Engine
import ScatterGather.Schedule

/-!
# Gated — runs of an engine in which units wait for each other

Some effects of a unit are passages. A gated run is a schedule that holds a worker back while it
stands before a passage whose gate is closed.

* `Engine.isHeld` : whether a move is held back.
* `Engine.runUntil` : a gated run to a goal.
* `Engine.isQuiet` : no worker has anything left to do.
-/

namespace ScatterGather

/-- How the passages of a machine are told: which effects are passages, which passages lie behind
in a world, and what their gates are. -/
structure Gating (κ ω : Type) where
  passage? : κ → Option Passage
  passed : ω → List Passage
  gate : String → Gate

namespace Engine

variable {κ α ω : Type}

def isHeld (g : Gating κ ω) (returned : Bool) (e : Engine κ α ω) (m : Move) : Bool :=
  match (e.nextEffect? m).bind g.passage? with
  | some p => !p.isOpen g.gate (g.passed e.world) returned
  | none => false

/-- Runs until the goal is reached or all that could move is held back. -/
def runUntil (note : Occurrence κ α → ω → ω) (g : Gating κ ω) (returned : Bool)
    (goal : Engine κ α ω → Bool) (e : Engine κ α ω) : Engine κ α ω :=
  Schedule.run (step? note) (isHeld g returned) goal (e.cost + 1) e.moves e

def isQuiet (e : Engine κ α ω) : Bool :=
  e.pool.isQuiet

end Engine

end ScatterGather
