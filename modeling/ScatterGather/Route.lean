import ScatterGather.Datum

/-!
# Route — which target runs which statement

* `RouteUnit` : one target and the form that the statement takes there.
* `SqlType` : the category of the logical statement.
* `Mode` : whether rows may be read later or have to be read at once.
-/

namespace ScatterGather

/-! ## Route units -/

structure SqlUnit where
  sql : String
  parameters : List Datum
  deriving DecidableEq

structure RouteUnit where
  target : String
  statement : SqlUnit
  deriving DecidableEq

/-! ## Statement categories -/

inductive SqlType
  | dql
  | dml
  | ddl
  | dcl
  | dal
  | tcl
  deriving DecidableEq

def SqlType.name : SqlType → String
  | dql => "DQL"
  | dml => "DML"
  | ddl => "DDL"
  | dcl => "DCL"
  | dal => "DAL"
  | tcl => "TCL"

/-! ## Connection modes -/

/-- `stream` leaves the rows in an open cursor, which needs a connection that no unit of another
target uses; `memory` reads them all before the next unit runs. -/
inductive Mode
  | stream
  | memory
  deriving DecidableEq

namespace Mode

/-- The mode of a connection that serves `count` targets. -/
def ofTargetCount (count : Nat) : Mode :=
  if count ≤ 1 then stream else memory

def name : Mode → String
  | stream => "per_connection_strict"
  | memory => "memory_strict"

end Mode

end ScatterGather
