import ScatterGather.Context
import ScatterGather.Engine.Gated
import ScatterGather.Merge
import ScatterGather.Registry.Sweep
import ScatterGather.UnitRun

/-!
# Session — executors that share one engine and one backend

An executor runs one logical statement on its route. Each of its calls takes a snapshot of the
ambient context, groups the route, runs the groups on the engine, and merges what the units yield.
A session is a state machine in which calls, workers, changes of the ambient context and sweeps of
the registries interleave; `Session.call` is the schedule in which one call runs by itself.

* `Executor` : a statement with its route and its limits.
* `Response` : the answer of a call.
* `Session.open`, `Session.conclude` : the two ends of a call.
* `Session.step?` : the machine.
* `Session.call` : one call from beginning to end.
* `Session.openConnections` : the connections that are still held.
-/

namespace ScatterGather

structure Executor where
  cap : Nat
  sqlType : SqlType
  options : StatementOptions
  route : List RouteUnit
  bus : Bus

/-- An executor with the limits of a configuration. -/
def Executor.ofConfig (config : Config) (sqlType : SqlType) (route : List RouteUnit) (bus : Bus) :
    Executor :=
  { cap := config.maxConnections, sqlType, options := config.statement, route, bus }

/-- A call that was admitted to the engine. -/
structure Issued where
  executor : Nat
  kind : EntryPoint
  queryId : Nat

inductive Response
  /-- One result for each unit, in the order of the route. -/
  | results (rs : List QueryResult)
  | total (n : UInt64)
  /-- The total does not fit into 64 bits, which panics. -/
  | overflow
  | flag (producedRows : Bool)
  | failed (e : Error)

structure Session (β : Type) where
  backend : Backend
  ambient : Ambient β
  executors : List Executor
  engine : Engine Effect Output World
  /-- The calls of the engine, by their number. -/
  issued : List Issued
  /-- How many snapshots were taken. -/
  snapshots : Nat
  /-- Sweeps under way, each with the executor whose registry it closes. -/
  sweeps : List (Nat × Sweep Statement CursorHandle)
  /-- Query results that a client keeps, by name. -/
  kept : List (String × List QueryResult)

/-! ## Merging -/

/-- All results, or the position of the first unit that has none. -/
def gatherResults : List (Option Output) → Nat → Except Nat (List QueryResult)
  | [], _ => .ok []
  | slot :: rest, position =>
    match slot.bind Output.rows? with
    | none => .error position
    | some r => (gatherResults rest (position + 1)).map (r :: ·)

def Response.ofAnswer (kind : EntryPoint) (queryId : Nat) : Answer Output → Response
  | .error e => .failed e
  | .ok slots =>
    match kind with
    | .query =>
      match gatherResults slots 0 with
      | .ok rs => .results rs
      | .error position => .failed (.bug (.missingResult queryId position slots.length))
    | .update =>
      match Merge.total? (slots.map fun slot => slot.bind Output.count?) with
      | some n => .total n
      | none => .overflow
    | .execute => .flag (Merge.first (slots.map fun slot => slot.bind Output.flag?))

namespace Session

variable {β : Type}

def noteWorld (o : Occurrence Effect Output) (w : World) : World :=
  match o with
  | .performed _ effect => w.perform effect
  | _ => w

def start (threads : Nat) (backend : Backend) (executors : List Executor) (recorders : Nat) :
    Session β :=
  let world :=
    { World.empty with
      registries := List.replicate executors.length .empty
      recorders := List.replicate recorders []
      metrics := Metrics.empty.set .poolThreads (max threads 1) }
  { backend
    ambient := .fresh
    executors
    engine := .new threads world
    issued := []
    snapshots := 0
    sweeps := []
    kept := [] }

def world (s : Session β) : World :=
  s.engine.world

def mapWorld (s : Session β) (f : World → World) : Session β :=
  { s with engine := { s.engine with world := f s.engine.world } }

/-! ## Calls -/

/-- One call is answered: it counts once, and its duration is a sample. -/
def countExecution (kind : EntryPoint) (success : Bool) (w : World) : World :=
  (w.count (.executions kind success) 1).count (.durations kind) 1

/-- Modes without a group are not recorded. -/
def countGroups (groups : List (Group Connection BoundUnit)) (w : World) : World :=
  [Mode.stream, .memory].foldl (fun w mode =>
    let n := groups.countP fun g => g.mode == mode
    if n = 0 then w else w.count (.groups mode) n) w

def batchOf (b : Backend) (a : Assignment) (g : Group Connection BoundUnit) :
    Batch Effect Output :=
  { connection := g.connection, units := g.units.map (a.work b) }

/-- Takes a snapshot and groups the route. Refusals answer the call; else it goes to the engine,
and the answer is its number there. -/
def «open» (s : Session β) (x : Nat) (e : Executor) (kind : EntryPoint) :
    Except Error Nat × Session β :=
  let ctx := s.ambient.snapshot (s.snapshots + 1)
  let s := { s with snapshots := s.snapshots + 1 }
  match (Grouping.group (World.binder s.backend e.options) e.cap e.route).run s.world with
  | (.error refusal, w) => (.error refusal, s.mapWorld fun _ => countExecution kind false w)
  | (.ok groups, w) =>
    let a : Assignment :=
      { kind, sqlType := e.sqlType, queryId := ctx.queryId, bus := e.bus, registry := x }
    let policy := if ctx.rethrow then .failFast else .bestEffort
    let s := s.mapWorld fun _ => countGroups groups w
    (.ok s.engine.calls.length,
      { s with
        engine := s.engine.start (.new policy ctx.queryId (groups.map (batchOf s.backend a)))
        issued := s.issued ++ [{ executor := x, kind, queryId := ctx.queryId }] })

/-- Takes over the answer of a call that has returned. -/
def conclude (s : Session β) (call : Nat) : Option (Response × Session β) := do
  let issued ← s.issued[call]?
  let (answer, engine) ← s.engine.collect call
  let success := match answer with
    | .ok _ => true
    | .error _ => false
  some (.ofAnswer issued.kind issued.queryId answer,
    { s with engine }.mapWorld (countExecution issued.kind success))

/-! ## Closing -/

def registry (s : Session β) (x : Nat) : Tracking :=
  s.world.registries[x]?.getD .empty

def setRegistry (s : Session β) (x : Nat) (r : Tracking) : Session β :=
  s.mapWorld fun w => { w with registries := w.registries.set x r }

/-- Attempts to close one handle, which stays tracked. -/
def close (s : Session β) (h : Resource Statement CursorHandle) : Option String × Session β :=
  (s.backend.closeError? h, s.mapWorld fun w => w.close h)

/-- A sweep that nothing interrupts. -/
def closeAll (s : Session β) (x : Nat) : Except Error Unit × Session β :=
  let (answer, attempted, r) := (s.registry x).closeAll s.backend.closeError?
  let s := (s.setRegistry x r).mapWorld fun w => attempted.foldl World.close w
  (answer.mapError .execution, s)

def sweepStep? (s : Session β) (i : Nat) : Option (Session β) := do
  let (x, sweep) ← s.sweeps[i]?
  let (sweep, r, attempted) ← sweep.step? s.backend.closeError? (s.registry x)
  let s := { s with sweeps := s.sweeps.set i (x, sweep) }.setRegistry x r
  some (s.mapWorld fun w => attempted.toList.foldl World.close w)

/-! ## The machine -/

inductive Step (β : Type)
  /-- A client begins a call of executor `x`. -/
  | begin (x : Nat) (kind : EntryPoint)
  | engine (m : Move)
  /-- The client of a call takes its answer. -/
  | conclude (call : Nat)
  | insert (key : String) (value : β)
  | remove (key : String)
  | clear
  | setRethrow (value : Bool)
  | beginSweep (x : Nat)
  | sweep (i : Nat)

def step? (s : Session β) : Step β → Option (Session β)
  | .begin x kind => do
    let e ← s.executors[x]?
    some (s.open x e kind).2
  | .engine m => (s.engine.step? noteWorld m).map fun engine => { s with engine }
  | .conclude call => (s.conclude call).map Prod.snd
  | .insert key value => some { s with ambient := s.ambient.insert key value }
  | .remove key => some { s with ambient := (s.ambient.remove key).2 }
  | .clear => some { s with ambient := s.ambient.clear }
  | .setRethrow value => some { s with ambient := s.ambient.setRethrow value }
  | .beginSweep x => some { s with sweeps := s.sweeps ++ [(x, .fresh)] }
  | .sweep i => s.sweepStep? i

/-! ## One call by itself -/

def gating (gate : String → Gate) : Gating Effect World :=
  ⟨Effect.passage?, World.passages, gate⟩

/-- Runs a call until it returns and then until no worker has anything left to do. There is no
answer if units wait for each other for ever. -/
def call (s : Session β) (gate : String → Gate) (x : Nat) (e : Executor) (kind : EntryPoint) :
    Option (Response × Session β) :=
  let s := s.mapWorld fun w => { w with passages := [] }
  match s.open x e kind with
  | (.error refusal, s) => some (.failed refusal, s)
  | (.ok number, s) => do
    let engine := s.engine.runUntil noteWorld (gating gate) false (·.isReturned number)
    let (response, s) ← { s with engine }.conclude number
    let engine := s.engine.runUntil noteWorld (gating gate) true (·.isQuiet)
    if engine.isQuiet then some (response, { s with engine }) else none

/-! ## Results -/

/-- Keeps results under a name, in place of those that it stood for. -/
def keep (s : Session β) (name : String) (rs : List QueryResult) : Session β :=
  { s with kept := (name, rs) :: s.kept.filter fun (n, _) => n != name }

def drop (s : Session β) (name : String) : Session β :=
  { s with kept := s.kept.filter fun (n, _) => n != name }

def results (s : Session β) (name : String) : List QueryResult :=
  ((s.kept.find? fun (n, _) => n == name).map Prod.snd).getD []

/-- The state of the cursor that a result reads from; a buffer reads from none. -/
def cursorOf (s : Session β) (r : QueryResult) : Option (CursorHandle × Cursor) := do
  let handle ← s.world.handle? (← r.cursor?)
  let cursor ← s.world.cursor? handle
  some (handle, cursor)

/-- Applies a reading operation to a kept result, by its name and the position of its unit. -/
def read {α : Type} (s : Session β) (name : String) (unit : Nat)
    (f : QueryResult → Cursor → α × QueryResult × Cursor) : Option (α × Session β) := do
  let rs := s.results name
  let r ← rs[unit]?
  match s.cursorOf r with
  | none =>
    let (answer, r, _) := f r (.ofScript [] [])
    some (answer, s.keep name (rs.set unit r))
  | some (handle, cursor) =>
    let (answer, r, cursor) := f r cursor
    some (answer, (s.keep name (rs.set unit r)).mapWorld fun w => w.setCursor handle cursor)

/-- The connections that the engine or a kept result holds, in the order of acquisition. -/
def openConnections (s : Session β) : List Connection :=
  let held :=
    s.engine.held Output.held ++ s.kept.flatMap fun (_, rs) => rs.flatMap QueryResult.held
  s.world.connections.filter held.contains

end Session

end ScatterGather
