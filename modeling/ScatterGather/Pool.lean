import ScatterGather.Weight

/-!
# Pool — a fixed number of workers behind one queue

A pool is a state machine. A submitter sends a job to the queue and then counts it, which are two
steps; a worker takes the oldest job, runs it step by step, counts a panic and counts the
completion. Closing the queue lets the workers leave once nothing is left in it. What a job does
in one step is a parameter, `advance`, that may change a world which all jobs share.

* `Pool.Move`, `Pool.step?` : the moves of a pool, labelled by who moves.
* `Pool.work?` : the next step of one worker.
* `Pool.isQuiet` : nothing is queued, nothing runs and nothing is left to be counted.
* `Pool.cost` : a bound on the worker steps that are left.
-/

namespace ScatterGather

/-- What a job is after one of its steps. -/
inductive Progress (ι : Type)
  | continues (job : ι)
  | ends
  | panics

inductive Worker (ι : Type)
  | idle
  | busy (job : ι)
  /-- The job panicked and is gone; the panic has not been counted. -/
  | unwound
  /-- The job is over and, if it panicked, that was counted; its completion has not been counted. -/
  | finished (panicked : Bool)
  | gone

namespace Worker

variable {ι : Type}

def job? : Worker ι → Option ι
  | busy job => some job
  | _ => none

def isWaiting : Worker ι → Bool
  | idle => true
  | gone => true
  | _ => false

end Worker

structure Pool (ι : Type) where
  queue : List ι
  workers : List (Worker ι)
  /-- Jobs that were sent but not yet counted as submitted. -/
  uncounted : Nat
  /-- The counters are exact numbers, and words of 64 bits agree with them below 2 ^ 64 jobs. -/
  submitted : Nat
  completed : Nat
  panicked : Nat
  closed : Bool

namespace Pool

variable {ι ω : Type}

/-- A pool has at least one worker. -/
def new (threads : Nat) : Pool ι :=
  { queue := []
    workers := List.replicate (max threads 1) .idle
    uncounted := 0
    submitted := 0
    completed := 0
    panicked := 0
    closed := false }

def threads (p : Pool ι) : Nat :=
  p.workers.length

/-! ## Submitters -/

def send (job : ι) (p : Pool ι) : Pool ι :=
  { p with queue := p.queue ++ [job], uncounted := p.uncounted + 1 }

def tally (p : Pool ι) : Pool ι :=
  { p with uncounted := p.uncounted - 1, submitted := p.submitted + 1 }

def close (p : Pool ι) : Pool ι :=
  { p with closed := true }

/-! ## Workers -/

def assign (p : Pool ι) (w : Nat) (worker : Worker ι) : Pool ι :=
  { p with workers := p.workers.set w worker }

/-- The next step of worker `w`, unless it has nothing to do. -/
def work? (advance : ι → ω → Progress ι × ω) (p : Pool ι) (world : ω) (w : Nat) :
    Option (Pool ι × ω) :=
  match p.workers[w]? with
  | none => none
  | some .gone => none
  | some .idle =>
    match p.queue with
    | job :: rest => some ({ p with queue := rest }.assign w (.busy job), world)
    | [] => if p.closed then some (p.assign w .gone, world) else none
  | some (.busy job) =>
    match advance job world with
    | (.continues job, world) => some (p.assign w (.busy job), world)
    | (.ends, world) => some (p.assign w (.finished false), world)
    | (.panics, world) => some (p.assign w .unwound, world)
  | some .unwound => some ({ p with panicked := p.panicked + 1 }.assign w (.finished true), world)
  | some (.finished _) => some ({ p with completed := p.completed + 1 }.assign w .idle, world)

/-! ## The machine -/

inductive Move (ι : Type)
  | send (job : ι)
  | tally
  | close
  | work (worker : Nat)

def step? (advance : ι → ω → Progress ι × ω) (p : Pool ι) (world : ω) :
    Move ι → Option (Pool ι × ω)
  | .send job => if p.closed then none else some (p.send job, world)
  | .tally => if p.uncounted = 0 then none else some (p.tally, world)
  | .close => if p.closed then none else some (p.close, world)
  | .work w => p.work? advance world w

/-! ## Views -/

/-- The jobs on the workers, in the order of the workers. -/
def running (p : Pool ι) : List ι :=
  p.workers.filterMap Worker.job?

def isQuiet (p : Pool ι) : Bool :=
  p.queue.isEmpty && p.workers.all Worker.isWaiting && p.uncounted == 0

structure Stats where
  threads : Nat
  submitted : Nat
  completed : Nat
  panicked : Nat
  deriving DecidableEq

def stats (p : Pool ι) : Stats :=
  ⟨p.threads, p.submitted, p.completed, p.panicked⟩

/-! ## Cost -/

/-- The steps left to a worker, where `size` bounds the steps of a job until it is counted. -/
def workerCost (size : ι → Nat) (closed : Bool) : Worker ι → Nat
  | .idle => if closed then 1 else 0
  | .busy job => size job + (if closed then 1 else 0)
  | .unwound => 2 + (if closed then 1 else 0)
  | .finished _ => 1 + (if closed then 1 else 0)
  | .gone => 0

def cost (size : ι → Nat) (p : Pool ι) : Nat :=
  weight (fun job => size job + 1) p.queue + weight (workerCost size p.closed) p.workers

end Pool

end ScatterGather
