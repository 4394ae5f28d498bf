/-!
# Error — why a statement could not be run

Each error is a cause with the data that its message shows.

* `ConnectionError`, `StatementError`, `ExecutionError`, `ConfigError` : the causes by stage.
* `Bug` : a broken invariant of the executor itself, told apart by a code.
* `Error` : any of them, with its message, its severity and the chain of its sources.
-/

namespace ScatterGather

/-! ## Causes -/

/-- No connection could be obtained for a target. -/
inductive ConnectionError
  | unknownTarget (target : String)
  | acquire (target reason : String)
  deriving DecidableEq

/-- A statement could not be prepared. -/
inductive StatementError
  | prepare (target reason : String)
  deriving DecidableEq

/-- A statement failed while it ran, or a resource of it failed afterwards. -/
inductive ExecutionError
  /-- The unit at `index` of the route failed. -/
  | unit (index : Nat) (target reason : String)
  /-- Every unit was tried and `failed` of them failed, `first` being the earliest of the route. -/
  | aggregate (first : ExecutionError) (failed : Nat)
  | cursor (target reason : String)
  | close (resource reason : String)
  deriving DecidableEq

inductive ConfigError
  | unreadable (reason : String)
  | malformed (detail : String)
  | invalid (field reason : String)
  deriving DecidableEq

inductive Bug
  /-- The units of a call stopped reporting before all had reported. -/
  | workerStopped (queryId received expected : Nat)
  /-- A unit reported for a position that its call does not have. -/
  | positionOutOfRange (position units : Nat)
  /-- A query was answered without a result for one of its units. -/
  | missingResult (queryId position units : Nat)
  | other (code message context : String)
  deriving DecidableEq

inductive Error
  | connection (cause : ConnectionError)
  | statement (cause : StatementError)
  | execution (cause : ExecutionError)
  | config (cause : ConfigError)
  | bug (cause : Bug)
  deriving DecidableEq

/-! ## Messages -/

def ConnectionError.message : ConnectionError → String
  | unknownTarget target => s!"No data source registered for target '{target}'"
  | acquire target reason => s!"Failed to acquire connection to '{target}': {reason}"

def StatementError.message : StatementError → String
  | prepare target reason => s!"Failed to prepare statement on '{target}': {reason}"

namespace ExecutionError

def message : ExecutionError → String
  | unit index target reason => s!"Unit #{index} on '{target}' failed: {reason}"
  | aggregate first failed => toString failed ++ " unit(s) failed; first: " ++ first.message
  | cursor target reason => s!"Cursor on '{target}' failed: {reason}"
  | close resource reason => s!"Failed to close {resource}: {reason}"

/-- The position of the unit that an error belongs to. -/
def unitIndex? : ExecutionError → Option Nat
  | unit index _ _ => some index
  | aggregate first _ => first.unitIndex?
  | cursor _ _ => none
  | close _ _ => none

end ExecutionError

def ConfigError.message : ConfigError → String
  | unreadable reason => s!"IO error: {reason}"
  | malformed detail => s!"Parse error: {detail}"
  | invalid field reason => s!"Invalid value for {field}: {reason}"

namespace Bug

def code : Bug → String
  | workerStopped _ _ _ => "E-EXEC-001"
  | positionOutOfRange _ _ => "E-EXEC-002"
  | missingResult _ _ _ => "E-EXEC-003"
  | other code _ _ => code

def summary : Bug → String
  | workerStopped _ _ _ => "worker stopped before reporting every unit"
  | positionOutOfRange _ _ => "unit position out of range"
  | missingResult _ _ _ => "query unit produced no result"
  | other _ message _ => message

def context : Bug → String
  | workerStopped queryId received expected =>
      s!"query_id={queryId}, received={received}, expected={expected}"
  | positionOutOfRange position units => s!"position={position}, units={units}"
  | missingResult queryId position units =>
      s!"query_id={queryId}, position={position}, units={units}"
  | other _ _ context => context

def message (b : Bug) : String :=
  "InternalBug [" ++ b.code ++ "]: " ++ b.summary ++ " | context: " ++ b.context

end Bug

namespace Error

def message : Error → String
  | connection cause => "Connection error: " ++ cause.message
  | statement cause => "Statement error: " ++ cause.message
  | execution cause => "Execution error: " ++ cause.message
  | config cause => "Config error: " ++ cause.message
  | bug cause => cause.message

def unitIndex? : Error → Option Nat
  | execution cause => cause.unitIndex?
  | _ => none

/-- The messages of the errors below this one, the nearest first. -/
def sources : Error → List String
  | connection cause => [cause.message]
  | statement cause => [cause.message]
  | execution cause => [cause.message]
  | config (.unreadable reason) => [(ConfigError.unreadable reason).message, reason]
  | config cause => [cause.message]
  | bug _ => []

end Error

/-! ## Severity -/

/-- What a caller can do about an error: mend the request, try again, wait and try again, or
report it. -/
inductive Severity
  | userError
  | retryable
  | transient
  | internalBug
  deriving DecidableEq

def Error.severity : Error → Severity
  | .connection (.unknownTarget _) => .userError
  | .connection (.acquire _ _) => .transient
  | .statement _ => .retryable
  | .execution _ => .retryable
  | .config _ => .userError
  | .bug _ => .internalBug

end ScatterGather
