import ScatterGather.Cursor
import ScatterGather.Options
import ScatterGather.Registry
import ScatterGather.Route

/-!
# Backend — how the data sources behave

A backend is known by its answers: which connections it refuses, which statements it cannot
prepare, how each call of a prepared statement comes out, which handles fail to close, and which
read of a cursor panics.

* `Statement` : a prepared statement, which may be asked more than its text shows.
* `BoundUnit` : a unit that is ready to run.
* `Reply` : how one call comes out.
* `Backend` : the answers.
-/

namespace ScatterGather

/-- A prepared statement, told apart by its number. -/
structure Statement where
  id : Nat
  connection : Connection
  route : RouteUnit
  options : StatementOptions
  deriving DecidableEq

/-- A unit of a route with the connection and the statement that it will run on. -/
structure BoundUnit where
  route : RouteUnit
  connection : Connection
  statement : Statement
  mode : Mode

/-- A cursor, known by the statement that opened it. -/
structure CursorHandle where
  statement : Statement
  deriving DecidableEq

inductive Reply (α : Type)
  | answer (a : α)
  | failure (e : BackendError)
  /-- The call panics in the thread of its caller. -/
  | panic

/-- What units of several targets get to share. -/
inductive Sharing
  /-- The connection of the first target. -/
  | lead
  /-- A connection of its own that reaches all targets. -/
  | joined
  deriving DecidableEq

structure Backend where
  refusal? : String → Option ConnectionError
  sharing : Sharing
  prepareError? : Connection → RouteUnit → Option StatementError
  query : Statement → Reply Cursor
  update : Statement → Reply (Option UInt64)
  execute : Statement → Reply Bool
  closeStatementError? : Statement → Option String
  closeCursorError? : CursorHandle → Option String
  /-- The read that panics in the thread of a unit that reads its cursor at once, by the number of
  reads in front of it. -/
  drainPanic? : Statement → Option Nat := fun _ => none

/-- The message with which closing fails. -/
def Backend.closeError? (b : Backend) : Resource Statement CursorHandle → Option String
  | .statement s => b.closeStatementError? s
  | .cursor c => b.closeCursorError? c

end ScatterGather
