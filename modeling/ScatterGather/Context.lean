import Std.Data.TreeMap

/-!
# Context — settings that a call takes along

The ambient context of a session can be changed at any time. A call works on a snapshot, which
later changes do not reach; each snapshot has a number of its own.

* `Ambient` : the settings in force.
* `Context` : what one call sees of them.
-/

namespace ScatterGather

/-- Settings by key, in the order of their keys. -/
abbrev Settings (β : Type) : Type :=
  Std.TreeMap String β

structure Context (β : Type) where
  queryId : Nat
  /-- Whether the first failure of a unit ends the call. -/
  rethrow : Bool
  data : Settings β

namespace Context

variable {β : Type}

def get? (c : Context β) (key : String) : Option β :=
  c.data[key]?

def toList (c : Context β) : List (String × β) :=
  c.data.toList

/-- A context with given settings; of two values for one key the later one counts. -/
def ofList (queryId : Nat) (rethrow : Bool) (data : List (String × β)) : Context β :=
  { queryId, rethrow, data := data.foldl (fun m (k, v) => m.insert k v) ∅ }

end Context

structure Ambient (β : Type) where
  rethrow : Bool
  data : Settings β

namespace Ambient

variable {β : Type}

/-- A fresh context has no settings, and the first failure ends a call. -/
def fresh : Ambient β :=
  { rethrow := true, data := ∅ }

def insert (a : Ambient β) (key : String) (value : β) : Ambient β :=
  { a with data := a.data.insert key value }

/-- Removes a setting and answers with its value. -/
def remove (a : Ambient β) (key : String) : Option β × Ambient β :=
  (a.data[key]?, { a with data := a.data.erase key })

def clear (a : Ambient β) : Ambient β :=
  { a with data := ∅ }

def setRethrow (a : Ambient β) (value : Bool) : Ambient β :=
  { a with rethrow := value }

def snapshot (a : Ambient β) (queryId : Nat) : Context β :=
  { queryId, rethrow := a.rethrow, data := a.data }

end Ambient

end ScatterGather
