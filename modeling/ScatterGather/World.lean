import ScatterGather.Backend
import ScatterGather.Event
import ScatterGather.Grouping
import ScatterGather.Metrics
import ScatterGather.Schedule

/-!
# World — what executors and data sources leave behind

The world holds what was opened and prepared, the state of every cursor, what listeners recorded,
what was counted, and a log of all requests to the data sources. It changes through two doors:
opening and preparing while units are grouped, and the effects of units while they run.

* `Effect`, `World.perform` : what a running unit does, one atomic access each.
* `World.binder` : grouping against a backend.
* `World.close` : closing a handle.
-/

namespace ScatterGather

/-- A request to a data source. -/
inductive Request
  | connect (target : String)
  | connectShared (targets : List String)
  | prepare (connection : Connection) (route : RouteUnit) (mode : Mode)
      (options : StatementOptions)
  | call (kind : EntryPoint) (statement : Statement)
  | closeStatement (statement : Statement)

/-- One access of a running unit to the world. -/
inductive Effect
  | announce (recorder : Nat) (event : Event)
  | beginCall (kind : EntryPoint) (statement : Statement)
  | endCall (kind : EntryPoint) (statement : Statement)
  | openCursor (handle : CursorHandle) (cursor : Cursor)
  | trackStatement (registry position : Nat) (statement : Statement)
  | trackCursor (registry position : Nat) (handle : CursorHandle)
  | readCursor (handle : CursorHandle)
  | countUnit (kind : EntryPoint) (success : Bool)

def Effect.passage? : Effect → Option Passage
  | beginCall _ s => some (.entering s.route.statement.sql)
  | endCall _ s => some (.leaving s.route.statement.sql)
  | _ => none

/-- The state of a cursor and the handle that it is known by. -/
structure OpenCursor where
  handle : CursorHandle
  cursor : Cursor

abbrev Tracking : Type :=
  Registry Statement CursorHandle

structure World where
  /-- Every connection that was handed out, by its number. -/
  connections : List Connection
  /-- How many statements were prepared. -/
  prepared : Nat
  /-- The numbers of the statements whose close was attempted. -/
  closed : List Nat
  cursors : List OpenCursor
  registries : List Tracking
  recorders : Recorders
  metrics : Metrics
  log : List Request
  /-- The calls that began and ended, by the text of their statement. -/
  passages : List Passage
  /-- The connections on which a call is running. -/
  calling : List Nat
  /-- How many calls began on a connection on which another one was running. -/
  overlaps : Nat

namespace World

def empty : World :=
  { connections := []
    prepared := 0
    closed := []
    cursors := []
    registries := []
    recorders := []
    metrics := .empty
    log := []
    passages := []
    calling := []
    overlaps := 0 }

def note (w : World) (r : Request) : World :=
  { w with log := w.log ++ [r] }

def count (w : World) (s : Series) (n : Nat) : World :=
  { w with metrics := w.metrics.add s n }

/-! ## Connections and statements -/

/-- A fresh connection. -/
def connect (w : World) (target : String) : Connection × World :=
  let connection : Connection := ⟨w.connections.length, target⟩
  (connection, { w with connections := w.connections ++ [connection] })

def prepare (b : Backend) (options : StatementOptions) (connection : Connection)
    (route : RouteUnit) (mode : Mode) (w : World) : Except StatementError Statement × World :=
  let w := w.note (.prepare connection route mode options)
  match b.prepareError? connection route with
  | some e => (.error e, w)
  | none =>
    (.ok { id := w.prepared, connection, route, options }, { w with prepared := w.prepared + 1 })

def requestConnection (b : Backend) (target : String) :
    StateM World (Except ConnectionError Connection) := fun w =>
  let w := w.note (.connect target)
  match b.refusal? target with
  | some e => (.error e, w)
  | none =>
    let (connection, w) := w.connect target
    (.ok connection, w)

def requestShared (b : Backend) (targets : List String) :
    StateM World (Except ConnectionError Connection) :=
  match b.sharing with
  | .lead => leadConnection (requestConnection b) targets
  | .joined => fun w =>
    let w := w.note (.connectShared targets)
    match targets.findSome? b.refusal? with
    | some e => (.error e, w)
    | none =>
      let (connection, w) := w.connect ("+".intercalate targets)
      (.ok connection, w)

def prepareUnit (b : Backend) (options : StatementOptions) (connection : Connection)
    (route : RouteUnit) (mode : Mode) : StateM World (Except StatementError BoundUnit) := fun w =>
  let (result, w) := w.prepare b options connection route mode
  (result.map fun statement => { route, connection, statement, mode }, w)

/-- Connections and statements from a backend, all requests being logged. -/
def binder (b : Backend) (options : StatementOptions) :
    Binder (StateM World) Connection BoundUnit :=
  { connect := requestConnection b
    connectShared := requestShared b
    prepare := prepareUnit b options }

/-! ## Cursors -/

def cursor? (w : World) (handle : CursorHandle) : Option Cursor :=
  (w.cursors.find? fun c => c.handle == handle).map OpenCursor.cursor

/-- The handle of the cursor with a given number. -/
def handle? (w : World) (id : Nat) : Option CursorHandle :=
  (w.cursors.find? fun c => c.handle.statement.id == id).map OpenCursor.handle

def setCursor (w : World) (handle : CursorHandle) (cursor : Cursor) : World :=
  { w with cursors := w.cursors.map fun c => if c.handle = handle then { c with cursor } else c }

/-- Attempts to close a handle. A cursor is closed whether or not that fails. -/
def close (w : World) : Resource Statement CursorHandle → World
  | .statement s => { w.note (.closeStatement s) with closed := s.id :: w.closed }
  | .cursor handle =>
    match w.cursor? handle with
    | some c => w.setCursor handle c.close
    | none => w

/-! ## Effects of running units -/

def perform (w : World) (e : Effect) : World :=
  match e with
  | .announce recorder event => { w with recorders := w.recorders.record recorder event }
  | .beginCall _ s =>
    { w with
      passages := w.passages ++ [.entering s.route.statement.sql]
      overlaps := if w.calling.contains s.connection.id then w.overlaps + 1 else w.overlaps
      calling := s.connection.id :: w.calling }
  | .endCall kind s =>
    { w.note (.call kind s) with
      passages := w.passages ++ [.leaving s.route.statement.sql]
      calling := w.calling.erase s.connection.id }
  | .openCursor handle cursor => { w with cursors := w.cursors ++ [{ handle, cursor }] }
  | .trackStatement registry position s =>
    { w with registries := w.registries.modify registry fun r => r.trackStatement position s }
  | .trackCursor registry position handle =>
    { w with registries := w.registries.modify registry fun r => r.trackCursor position handle }
  | .readCursor handle =>
    match w.cursor? handle with
    | some c => w.setCursor handle c.read.2
    | none => w
  | .countUnit kind success => w.count (.units kind success) 1

end World

end ScatterGather
