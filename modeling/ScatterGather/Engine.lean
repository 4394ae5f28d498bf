import ScatterGather.Connection
import ScatterGather.Pool

/-!
# Engine — batches of units on a shared pool, gathered by their callers

A call scatters its units in batches, one job a batch, and gathers the reports of all units in the
order of their positions. The machine has one step for each access to what is shared: the queue of
the pool, the abort flag of a call, its inbox, and the world that the effects of the units change.

Within a batch the units run one after the other. Under `Policy.failFast` the first report of a
failure ends the call, and units that have not started are skipped; under `Policy.bestEffort` all
units run and the failure at the lowest position is reported with the number of failures. A job
that panics reports nothing more, which the caller notices when no job of its is left. Jobs whose
caller has gone stop at their next report.

* `Work` : one unit of a call, as the effects that it performs and how it comes out.
* `Job.advance` : the next step of a batch on its worker.
* `Call.gather` : the caller takes in one report.
* `Engine.step?` : the moves of callers and workers.
* `Engine.cost` : a bound on the steps that are left.
-/

namespace ScatterGather

/-! ## Units -/

/-- How a unit comes out once all its effects are performed. -/
inductive Outcome (α : Type)
  | value (a : α)
  | failure (e : ExecutionError)
  | panic
  deriving DecidableEq

/-- A unit of work, by its position in the route. -/
structure Work (κ α : Type) where
  position : Nat
  effects : List κ
  outcome : Outcome α

/-- The units that share a connection, in the order in which they run. -/
structure Batch (κ α : Type) where
  connection : Connection
  units : List (Work κ α)

inductive Report (α : Type)
  | done (position : Nat) (result : Except ExecutionError α)
  | skipped (position : Nat)

/-- The unit that something happened to. -/
structure Site where
  call : Nat
  batch : Nat
  position : Nat
  deriving DecidableEq

/-- What a batch does that others can see. -/
inductive Occurrence (κ α : Type)
  | begun (site : Site)
  | performed (site : Site) (effect : κ)
  | reported (site : Site) (report : Report α)

/-! ## Calls -/

inductive Policy
  | failFast
  | bestEffort
  deriving DecidableEq

abbrev Answer (α : Type) : Type :=
  Except Error (List (Option α))

inductive Phase (κ α : Type)
  /-- About to send the next of the batches `left`. -/
  | submitting (left : List (Nat × Batch κ α))
  /-- Has sent a batch and not yet counted it. -/
  | counting (left : List (Nat × Batch κ α))
  | gathering
  | returned (answer : Answer α)
  /-- The answer was handed over. -/
  | over

structure Call (κ α : Type) where
  policy : Policy
  queryId : Nat
  total : Nat
  phase : Phase κ α
  abort : Bool
  inbox : List (Report α)
  slots : List (Option α)
  /-- The failure at the lowest position so far. -/
  first : Option (Nat × ExecutionError)
  failed : Nat
  received : Nat

namespace Call

variable {κ α : Type}

def new (policy : Policy) (queryId : Nat) (batches : List (Batch κ α)) : Call κ α :=
  let total := (batches.flatMap (·.units)).length
  { policy
    queryId
    total
    phase :=
      if total = 0 then .returned (.ok [])
      else .submitting (batches.zipIdx.map fun (b, i) => (i, b))
    abort := false
    inbox := []
    slots := List.replicate total none
    first := none
    failed := 0
    received := 0 }

/-- Whether reports still have a receiver. -/
def isListening (c : Call κ α) : Bool :=
  match c.phase with
  | .returned _ => false
  | .over => false
  | _ => true

def isReturned (c : Call κ α) : Bool :=
  match c.phase with
  | .returned _ => true
  | .over => true
  | _ => false

def answer? (c : Call κ α) : Option (Answer α) :=
  match c.phase with
  | .returned answer => some answer
  | _ => none

/-- Returning drops what was received and not asked for. -/
def finish (c : Call κ α) (answer : Answer α) : Call κ α :=
  { c with phase := .returned answer, inbox := [], slots := [], first := none }

def deliver (c : Call κ α) (r : Report α) : Call κ α :=
  { c with inbox := c.inbox ++ [r] }

/-- The failure at the lower position; of two at one position the one that came first. -/
def lowest (position : Nat) (e : ExecutionError) :
    Option (Nat × ExecutionError) → Nat × ExecutionError
  | none => (position, e)
  | some first => if position < first.1 then (position, e) else first

/-- Ends the call once all reports are in. -/
def settle (c : Call κ α) : Call κ α :=
  if c.received < c.total then c
  else
    match c.first with
    | some (_, e) => c.finish (.error (.execution (.aggregate e c.failed)))
    | none => c.finish (.ok c.slots)

/-- The caller takes in one report. -/
def gather (c : Call κ α) (r : Report α) : Call κ α :=
  let c := { c with received := c.received + 1 }
  match r with
  | .skipped _ => c.settle
  | .done position (.ok a) =>
    if position < c.slots.length then
      { c with slots := c.slots.set position (some a) }.settle
    else c.finish (.error (.bug (.positionOutOfRange position c.total)))
  | .done position (.error e) =>
    match c.policy with
    | .failFast => c.finish (.error (.execution e))
    | .bestEffort =>
      { c with failed := c.failed + 1, first := some (lowest position e c.first) }.settle

end Call

/-! ## Jobs -/

inductive Stage (κ α : Type)
  /-- About to look whether to go on with the next unit. -/
  | checking
  /-- About to report a unit as skipped. -/
  | skipping (unit : Work κ α)
  /-- Has the effects `left` of a unit still to perform. -/
  | running (unit : Work κ α) (left : List κ)
  /-- About to report the result of a unit. -/
  | reporting (unit : Work κ α) (result : Except ExecutionError α)
  /-- Reports what is left of the batch as skipped. -/
  | draining

structure Job (κ α : Type) where
  call : Nat
  batch : Nat
  connection : Connection
  stage : Stage κ α
  rest : List (Work κ α)

namespace Job

variable {κ α ω : Type}

def ofBatch (call index : Nat) (b : Batch κ α) : Job κ α :=
  { call, batch := index, connection := b.connection, stage := .checking, rest := b.units }

def site (j : Job κ α) (u : Work κ α) : Site :=
  ⟨j.call, j.batch, u.position⟩

/-- Reports on unit `u` if the caller still listens, and then goes on at `next`; else the job is
over. -/
def report (note : Occurrence κ α → ω → ω) (j : Job κ α) (u : Work κ α) (r : Report α)
    (next : Stage κ α) (c : Call κ α) (world : ω) : Progress (Job κ α) × Call κ α × ω :=
  if c.isListening then
    (.continues { j with stage := next }, c.deliver r, note (.reported (j.site u) r) world)
  else (.ends, c, world)

/-- The next step of a job of call `c`. -/
def advance (note : Occurrence κ α → ω → ω) (j : Job κ α) (c : Call κ α) (world : ω) :
    Progress (Job κ α) × Call κ α × ω :=
  match j.stage with
  | .checking =>
    match j.rest with
    | [] => (.ends, c, world)
    | u :: rest =>
      if c.policy = .failFast ∧ c.abort then
        (.continues { j with stage := .skipping u, rest }, c, world)
      else
        (.continues { j with stage := .running u u.effects, rest }, c,
          note (.begun (j.site u)) world)
  | .skipping u => j.report note u (.skipped u.position) .checking c world
  | .running u (effect :: left) =>
    (.continues { j with stage := .running u left }, c, note (.performed (j.site u) effect) world)
  | .running u [] =>
    match u.outcome with
    | .panic => (.panics, c, world)
    | .value a => (.continues { j with stage := .reporting u (.ok a) }, c, world)
    | .failure e =>
      (.continues { j with stage := .reporting u (.error e) },
        { c with abort := c.abort || c.policy == .failFast }, world)
  | .reporting u (.ok a) => j.report note u (.done u.position (.ok a)) .checking c world
  | .reporting u (.error e) =>
    j.report note u (.done u.position (.error e))
      (if c.policy = .failFast then .draining else .checking) c world
  | .draining =>
    match j.rest with
    | [] => (.ends, c, world)
    | u :: rest =>
      { j with rest }.report note u (.skipped u.position) .draining c world

/-- The effect that the next step performs, if it performs one. -/
def nextEffect? (j : Job κ α) : Option κ :=
  match j.stage with
  | .running _ (effect :: _) => some effect
  | _ => none

end Job

/-! ## Connections

A value may keep connections open: `holds` tells which. -/

section

variable {κ α : Type} (holds : α → List Connection)

def Report.held : Report α → List Connection
  | .done _ (.ok a) => holds a
  | _ => []

def Stage.held : Stage κ α → List Connection
  | .reporting _ (.ok a) => holds a
  | _ => []

def Job.held (j : Job κ α) : List Connection :=
  j.connection :: j.stage.held holds

def slotsHeld (slots : List (Option α)) : List Connection :=
  slots.flatMap fun slot => (slot.map holds).getD []

def Phase.held : Phase κ α → List Connection
  | .submitting left => left.map fun b => b.2.connection
  | .counting left => left.map fun b => b.2.connection
  | .returned (.ok slots) => slotsHeld holds slots
  | _ => []

def Call.held (c : Call κ α) : List Connection :=
  c.phase.held holds ++ c.inbox.flatMap (Report.held holds) ++ slotsHeld holds c.slots

end

/-! ## The machine -/

/-- Calls on one pool, over a world that notes what the units do. -/
structure Engine (κ α ω : Type) where
  pool : Pool (Job κ α)
  calls : List (Call κ α)
  world : ω

/-- Either the thread of a call moves or a worker of the pool. -/
inductive Move
  | caller (call : Nat)
  | worker (index : Nat)
  deriving DecidableEq

namespace Engine

variable {κ α ω : Type}

def new (threads : Nat) (world : ω) : Engine κ α ω :=
  { pool := Pool.new threads, calls := [], world }

/-- Starts a call; its number is the number of calls before it. -/
def start (c : Call κ α) (e : Engine κ α ω) : Engine κ α ω :=
  { e with calls := e.calls ++ [c] }

def setCall (e : Engine κ α ω) (call : Nat) (c : Call κ α) : Engine κ α ω :=
  { e with calls := e.calls.set call c }

/-- The jobs that are not over, queued or running. -/
def jobs (e : Engine κ α ω) : List (Job κ α) :=
  e.pool.queue ++ e.pool.running

/-- Whether a report of call `call` can still come. -/
def hasReporter (e : Engine κ α ω) (call : Nat) : Bool :=
  e.jobs.any fun j => j.call == call

def callerStep? (e : Engine κ α ω) (call : Nat) : Option (Engine κ α ω) := do
  let c ← e.calls[call]?
  match c.phase with
  | .submitting ((index, b) :: left) =>
    some ({ e with pool := e.pool.send (.ofBatch call index b) }.setCall call
      { c with phase := .counting left })
  | .submitting [] => some (e.setCall call { c with phase := .gathering })
  | .counting left =>
    some ({ e with pool := e.pool.tally }.setCall call { c with phase := .submitting left })
  | .gathering =>
    match c.inbox with
    | r :: rest => some (e.setCall call ({ c with inbox := rest }.gather r))
    | [] =>
      if e.hasReporter call then none
      else
        some (e.setCall call
          (c.finish (.error (.bug (.workerStopped c.queryId c.received c.total)))))
  | .returned _ => none
  | .over => none

/-- The next step of a job, among all calls. -/
def advance (note : Occurrence κ α → ω → ω) (j : Job κ α) (shared : List (Call κ α) × ω) :
    Progress (Job κ α) × List (Call κ α) × ω :=
  match shared.1[j.call]? with
  | none => (.ends, shared)
  | some c =>
    let (progress, c, world) := j.advance note c shared.2
    (progress, shared.1.set j.call c, world)

def step? (note : Occurrence κ α → ω → ω) (e : Engine κ α ω) : Move → Option (Engine κ α ω)
  | .caller call => e.callerStep? call
  | .worker w =>
    (e.pool.work? (advance note) (e.calls, e.world) w).map fun (pool, calls, world) =>
      { pool, calls, world }

/-- The answer of a call is handed over to whoever asked for it. -/
def collect (e : Engine κ α ω) (call : Nat) : Option (Answer α × Engine κ α ω) := do
  let c ← e.calls[call]?
  let answer ← c.answer?
  some (answer, e.setCall call { c with phase := .over })

/-! ## Views -/

def isReturned (e : Engine κ α ω) (call : Nat) : Bool :=
  (e.calls[call]?.map Call.isReturned).getD true

/-- The effect that a move would perform. -/
def nextEffect? (e : Engine κ α ω) : Move → Option κ
  | .caller _ => none
  | .worker w => do
    let worker ← e.pool.workers[w]?
    let job ← worker.job?
    job.nextEffect?

/-- Every move that callers and workers could make. -/
def moves (e : Engine κ α ω) : List Move :=
  (List.range e.calls.length).map .caller ++ (List.range e.pool.threads).map .worker

/-! ## Connections -/

/-- The connections that something inside the engine keeps open. -/
def held (holds : α → List Connection) (e : Engine κ α ω) : List Connection :=
  e.calls.flatMap (Call.held holds) ++ e.jobs.flatMap (Job.held holds)

/-! ## Cost -/

def unitCost (u : Work κ α) : Nat :=
  u.effects.length + 4

def stageCost : Stage κ α → Nat
  | .checking => 0
  | .skipping _ => 2
  | .running _ left => left.length + 3
  | .reporting _ _ => 2
  | .draining => 0

/-- The steps left to a job and, for its reports, to its caller. -/
def jobCost (j : Job κ α) : Nat :=
  stageCost j.stage + weight unitCost j.rest + 3

def batchCost (b : Batch κ α) : Nat :=
  weight unitCost b.units + 6

def callCost (c : Call κ α) : Nat :=
  c.inbox.length +
    match c.phase with
    | .submitting left => weight (fun b => batchCost b.2) left + 2
    | .counting left => weight (fun b => batchCost b.2) left + 3
    | .gathering => 1
    | .returned _ => 0
    | .over => 0

def cost (e : Engine κ α ω) : Nat :=
  e.pool.cost jobCost + weight callCost e.calls

end Engine

end ScatterGather
