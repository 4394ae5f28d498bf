import ScatterGather.Route

/-!
# Metrics — counts of what was executed

* `EntryPoint` : the three ways to run a statement.
* `Series` : one time series, by what it counts and its labels.
* `Metrics` : the value of every series that was recorded.
-/

namespace ScatterGather

inductive EntryPoint
  | query
  | update
  | execute
  deriving DecidableEq

def EntryPoint.name : EntryPoint → String
  | query => "query"
  | update => "update"
  | execute => "execute"

inductive Series
  /-- Units whose call came to an end. -/
  | units (kind : EntryPoint) (success : Bool)
  /-- Calls that were answered. -/
  | executions (kind : EntryPoint) (success : Bool)
  /-- Samples of the duration of a call. -/
  | durations (kind : EntryPoint)
  | groups (mode : Mode)
  /-- The size of the pool, the last one being in force. -/
  | poolThreads
  deriving DecidableEq

namespace Series

def labels (pairs : List (String × String)) : String :=
  "\x7b" ++ ",".intercalate (pairs.map fun (key, value) => key ++ "=" ++ value) ++ "\x7d"

def flag (b : Bool) : String :=
  if b then "true" else "false"

def name : Series → String
  | units kind success =>
      "shardline_units_total" ++ labels [("kind", kind.name), ("success", flag success)]
  | executions kind success =>
      "shardline_executions_total" ++ labels [("kind", kind.name), ("success", flag success)]
  | durations kind => "shardline_execution_duration_us" ++ labels [("kind", kind.name)]
  | groups mode => "shardline_groups_total" ++ labels [("mode", mode.name)]
  | poolThreads => "shardline_worker_pool_threads" ++ labels []

def all : List Series :=
  let kinds := [EntryPoint.query, .update, .execute]
  (kinds.flatMap fun kind => [units kind true, units kind false]) ++
    (kinds.flatMap fun kind => [executions kind true, executions kind false]) ++
      kinds.map durations ++ [groups .stream, groups .memory, poolThreads]

end Series

/-- The value of each series, absent until it is first recorded. -/
structure Metrics where
  value? : Series → Option Nat

namespace Metrics

def empty : Metrics :=
  ⟨fun _ => none⟩

def add (m : Metrics) (s : Series) (n : Nat) : Metrics :=
  ⟨fun t => if t = s then some ((m.value? s).getD 0 + n) else m.value? t⟩

def set (m : Metrics) (s : Series) (n : Nat) : Metrics :=
  ⟨fun t => if t = s then some n else m.value? t⟩

def toList (m : Metrics) : List (Series × Nat) :=
  Series.all.filterMap fun s => (m.value? s).map (s, ·)

end Metrics

end ScatterGather
