import ScatterGather.Route

/-!
# Event — what listeners learn about the units of a call

Every unit that runs is announced before its call, and again with the success or the failure of
the call. Recorders keep the events that reach them.

* `Event` : one announcement.
* `Bus` : the recorders that events are passed on to, each as often as it was registered.
* `Recorders` : the events of each recorder, in the order of their arrival.
-/

namespace ScatterGather

inductive EventKind
  | before
  | success
  | failure (reason : String)
  deriving DecidableEq

structure Event where
  queryId : Nat
  position : Nat
  target : String
  sql : String
  sqlType : SqlType
  kind : EventKind
  deriving DecidableEq

/-! ## Recorders -/

/-- The events of each recorder, by the number of the recorder. -/
abbrev Recorders : Type :=
  List (List Event)

namespace Recorders

def add (rs : Recorders) : Recorders :=
  rs ++ [[]]

def record (rs : Recorders) (recorder : Nat) (e : Event) : Recorders :=
  rs.modify recorder (· ++ [e])

def clear (rs : Recorders) (recorder : Nat) : Recorders :=
  rs.modify recorder fun _ => []

def events (rs : Recorders) (recorder : Nat) : List Event :=
  rs[recorder]?.getD []

end Recorders

def countSuccesses (events : List Event) : Nat :=
  events.countP fun e => e.kind == .success

def isFailure : EventKind → Bool
  | .failure _ => true
  | _ => false

def countFailures (events : List Event) : Nat :=
  events.countP fun e => isFailure e.kind

/-! ## Buses -/

/-- The recorders of a bus, in the order of their registration. -/
structure Bus where
  listeners : List Nat
  deriving DecidableEq

namespace Bus

def empty : Bus :=
  ⟨[]⟩

def register (b : Bus) (recorder : Nat) : Bus :=
  ⟨b.listeners ++ [recorder]⟩

def post (b : Bus) (e : Event) (rs : Recorders) : Recorders :=
  b.listeners.foldl (fun rs recorder => rs.record recorder e) rs

end Bus

end ScatterGather
