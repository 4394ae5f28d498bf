import ScatterGather.Error

/-!
# Registry — statements and cursors that are still to be closed

Units append what they open, in any order; readers see it in the order of the positions. Closing
everything takes both lists, attempts every handle, cursors first, and reports the first failure.

* `Registry.openStatements`, `Registry.openCursors` : the ordered views.
* `Registry.closeAll` : closes and forgets everything.
-/

namespace ScatterGather

/-- A handle with the position of the unit that opened it. -/
structure Tracked (η : Type) where
  position : Nat
  handle : η

/-- Handles in the order of their registration. -/
structure Registry (η θ : Type) where
  statements : List (Tracked η)
  cursors : List (Tracked θ)

/-- Something that can be closed. -/
inductive Resource (η θ : Type)
  | cursor (handle : θ)
  | statement (handle : η)
  deriving DecidableEq

def Resource.kind {η θ : Type} : Resource η θ → String
  | cursor _ => "cursor"
  | statement _ => "statement"

namespace Registry

variable {η θ : Type}

def empty : Registry η θ :=
  ⟨[], []⟩

def trackStatement (r : Registry η θ) (position : Nat) (handle : η) : Registry η θ :=
  { r with statements := r.statements ++ [⟨position, handle⟩] }

def trackCursor (r : Registry η θ) (position : Nat) (handle : θ) : Registry η θ :=
  { r with cursors := r.cursors ++ [⟨position, handle⟩] }

/-! ## Views -/

/-- By position; handles of one position stay in the order of their registration. -/
def ordered {ι : Type} (entries : List (Tracked ι)) : List ι :=
  (entries.mergeSort fun a b => decide (a.position ≤ b.position)).map Tracked.handle

def openStatements (r : Registry η θ) : List η :=
  ordered r.statements

def openCursors (r : Registry η θ) : List θ :=
  ordered r.cursors

/-- How many statements and cursors are tracked. -/
def counts (r : Registry η θ) : Nat × Nat :=
  (r.statements.length, r.cursors.length)

/-! ## Closing -/

/-- What closing everything attempts, in this order. -/
def resources (r : Registry η θ) : List (Resource η θ) :=
  r.cursors.map (fun c => .cursor c.handle) ++ r.statements.map fun s => .statement s.handle

/-- The failure of one attempt, where `fails` tells the message. -/
def closeError? (fails : Resource η θ → Option String) (x : Resource η θ) :
    Option ExecutionError :=
  (fails x).map fun reason => .close x.kind reason

/-- The answer, the attempts in order, and the registry afterwards. -/
def closeAll (fails : Resource η θ → Option String) (r : Registry η θ) :
    Except ExecutionError Unit × List (Resource η θ) × Registry η θ :=
  let answer :=
    match r.resources.findSome? (closeError? fails) with
    | some e => .error e
    | none => .ok ()
  (answer, r.resources, empty)

end Registry

end ScatterGather
