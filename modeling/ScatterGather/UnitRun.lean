import ScatterGather.Engine
import ScatterGather.QueryResult
import ScatterGather.World

/-!
# UnitRun — what one unit does and how it comes out

A unit announces itself, makes its call, counts itself, and announces its success or failure. A
query tracks its statement and its cursor as soon as the cursor is open; on a shared connection it
then reads the cursor to its end, on one of its own it leaves the rows for later. A call that
panics leaves its first announcement and nothing behind it, and a read that panics leaves what was
tracked and read in front of it as well.

* `Output` : what a unit yields, by entry point.
* `Assignment` : what all units of one call have in common.
* `Assignment.work` : a unit as the effects that it performs and its outcome.
-/

namespace ScatterGather

inductive Output
  | rows (r : QueryResult)
  | count (n : Option UInt64)
  | flag (producedRows : Bool)

namespace Output

/-- The connections that an output keeps open. -/
def held : Output → List Connection
  | rows r => r.held
  | _ => []

def rows? : Output → Option QueryResult
  | rows r => some r
  | _ => none

def count? : Output → Option (Option UInt64)
  | count n => some n
  | _ => none

def flag? : Output → Option Bool
  | flag b => some b
  | _ => none

end Output

/-- The settings of a call that its units run under. -/
structure Assignment where
  kind : EntryPoint
  sqlType : SqlType
  queryId : Nat
  bus : Bus
  /-- The registry that tracks what queries open. -/
  registry : Nat

namespace Assignment

def event (a : Assignment) (u : Placed BoundUnit) (kind : EventKind) : Event :=
  { queryId := a.queryId
    position := u.position
    target := u.unit.route.target
    sql := u.unit.route.statement.sql
    sqlType := a.sqlType
    kind }

def announce (a : Assignment) (u : Placed BoundUnit) (kind : EventKind) : List Effect :=
  a.bus.listeners.map fun recorder => .announce recorder (a.event u kind)

/-! ## Calls -/

/-- The failure of a unit, whatever connection it ran on. -/
def unitError (u : Placed BoundUnit) (reason : String) : ExecutionError :=
  .unit u.position u.unit.route.target reason

/-- A simple call: its effects end with the reply. -/
def simple {α : Type} (u : Placed BoundUnit) (output : α → Output) :
    Reply α → List Effect × Outcome Output
  | .answer a => ([], .value (output a))
  | .failure e => ([], .failure (unitError u e.message))
  | .panic => ([], .panic)

/-- How a unit comes out that has read its cursor to the end or to a failure. -/
def drained (u : Placed BoundUnit) : Except ExecutionError Buffer → Outcome Output
  | .ok buffer => .value (.rows (.memory buffer))
  | .error e => .failure (unitError u e.message)

/-- Reads the rows at once, or leaves them in the cursor. What the reads come to is told by the
cursor as it was opened, which is as long as nobody else closes it. -/
def receive (b : Backend) (u : Placed BoundUnit) (cursor : Cursor) :
    List Effect × Outcome Output :=
  match u.unit.mode with
  | .stream =>
    ([], .value (.rows (.stream
      (.ofCursor u.unit.route.target u.unit.statement.id cursor u.unit.connection))))
  | .memory =>
    let (result, after) := Buffer.drain u.unit.route.target cursor
    let reads := after.reads - cursor.reads
    match (b.drainPanic? u.unit.statement).filter (· < reads) with
    | some n => (List.replicate n (.readCursor ⟨u.unit.statement⟩), .panic)
    | none => (List.replicate reads (.readCursor ⟨u.unit.statement⟩), drained u result)

def afterQuery (b : Backend) (a : Assignment) (u : Placed BoundUnit) :
    Reply Cursor → List Effect × Outcome Output
  | .answer cursor =>
    let handle : CursorHandle := ⟨u.unit.statement⟩
    let (reads, outcome) := receive b u cursor
    (.openCursor handle cursor ::
      .trackStatement a.registry u.position u.unit.statement ::
      .trackCursor a.registry u.position handle :: reads, outcome)
  | .failure e => ([], .failure (unitError u e.message))
  | .panic => ([], .panic)

/-- What happens once the call was made, and how the unit comes out. -/
def afterCall (b : Backend) (a : Assignment) (u : Placed BoundUnit) :
    List Effect × Outcome Output :=
  match a.kind with
  | .query => afterQuery b a u (b.query u.unit.statement)
  | .update => simple u .count (b.update u.unit.statement)
  | .execute => simple u .flag (b.execute u.unit.statement)

/-- The effects that close a unit, none where its call panicked. -/
def conclude (a : Assignment) (u : Placed BoundUnit) : Outcome Output → List Effect
  | .value _ => .countUnit a.kind true :: a.announce u .success
  | .failure e => .countUnit a.kind false :: a.announce u (.failure e.message)
  | .panic => []

def work (b : Backend) (a : Assignment) (u : Placed BoundUnit) : Work Effect Output :=
  let (effects, outcome) := afterCall b a u
  { position := u.position
    effects :=
      a.announce u .before ++
        .beginCall a.kind u.unit.statement :: .endCall a.kind u.unit.statement ::
          (effects ++ a.conclude u outcome)
    outcome }

end Assignment

/-- Runs a unit by itself. -/
def World.run (w : World) (u : Work Effect Output) : Outcome Output × World :=
  (u.outcome, u.effects.foldl World.perform w)

end ScatterGather
