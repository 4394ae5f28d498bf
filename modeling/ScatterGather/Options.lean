import ScatterGather.Error

/-!
# Options — what an executor is configured with

* `StatementOptions` : options that every statement is prepared with.
* `Config` : the limits of an executor.
* `Config.poolSize` : how many workers let all groups of one statement run at once.
-/

namespace ScatterGather

/-! ## Statement options -/

inductive CursorType
  | forwardOnly
  | scrollInsensitive
  | scrollSensitive
  deriving DecidableEq

inductive Concurrency
  | readOnly
  | updatable
  deriving DecidableEq

inductive Holdability
  | holdOverCommit
  | closeAtCommit
  deriving DecidableEq

structure StatementOptions where
  cursorType : CursorType := .forwardOnly
  concurrency : Concurrency := .readOnly
  holdability : Holdability := .closeAtCommit
  returnGeneratedKeys : Bool := false
  deriving DecidableEq

def CursorType.name : CursorType → String
  | forwardOnly => "forward_only"
  | scrollInsensitive => "scroll_insensitive"
  | scrollSensitive => "scroll_sensitive"

def Concurrency.name : Concurrency → String
  | readOnly => "read_only"
  | updatable => "updatable"

def Holdability.name : Holdability → String
  | holdOverCommit => "hold_over_commit"
  | closeAtCommit => "close_at_commit"

def CursorType.ofName? : String → Option CursorType
  | "forward_only" => some forwardOnly
  | "scroll_insensitive" => some scrollInsensitive
  | "scroll_sensitive" => some scrollSensitive
  | _ => none

def Concurrency.ofName? : String → Option Concurrency
  | "read_only" => some readOnly
  | "updatable" => some updatable
  | _ => none

def Holdability.ofName? : String → Option Holdability
  | "hold_over_commit" => some holdOverCommit
  | "close_at_commit" => some closeAtCommit
  | _ => none

/-! ## Limits -/

structure Config where
  /-- How many connections one statement may hold at once. -/
  maxConnections : Nat := 1
  /-- The number of workers; zero leaves the choice to the machine. -/
  threads : Nat := 0
  statement : StatementOptions := {}
  deriving DecidableEq

namespace Config

def validate (c : Config) : Except ConfigError Config :=
  if c.maxConnections = 0 then .error (.invalid "max_connections_per_query" "must be at least 1")
  else .ok c

/-- The number of workers on a machine that runs `parallelism` threads at once. -/
def effectiveThreads (c : Config) (parallelism : Nat) : Nat :=
  if 0 < c.threads then c.threads else parallelism

/-- Never fewer workers than a statement may hold connections. -/
def poolSize (c : Config) (parallelism : Nat) : Nat :=
  max (c.effectiveThreads parallelism) c.maxConnections

end Config

end ScatterGather
