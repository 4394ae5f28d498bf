import ScatterGather.Error

/-!
# Connection — what statements are prepared on

* `Connection` : a physical connection.
* `leadConnection` : the connection of the first target, for a source that offers nothing better
  to units of several targets.
* `BackendError` : what a data source says when something fails behind a connection.
-/

namespace ScatterGather

/-- A physical connection, told apart by its number. -/
structure Connection where
  id : Nat
  target : String
  deriving DecidableEq

/-- Serves all targets only if one source holds them all. -/
def leadConnection {m : Type → Type} [Monad m] {γ : Type}
    (connect : String → m (Except ConnectionError γ)) :
    List String → m (Except ConnectionError γ)
  | [] => pure (.error (.unknownTarget ""))
  | lead :: _ => connect lead

structure BackendError where
  message : String
  sqlState : Option String
  deriving DecidableEq

namespace BackendError

def ofMessage (message : String) : BackendError :=
  { message, sqlState := none }

def withSqlState (e : BackendError) (state : String) : BackendError :=
  { e with sqlState := some state }

end BackendError

end ScatterGather
