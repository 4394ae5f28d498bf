import ScatterGather.Engine
import ScatterGather.Grouping
import ScatterGather.QueryResult
import ScatterGather.Text.Quoted
import ScatterGather.World

/-!
# Inspect — values as they appear in diagnostics

Every value is shown with the name of its kind and the names of its fields, texts between quotes,
on one line. Two dots stand for fields that are not shown.

* `Inspect.record`, `Inspect.variant`, `Inspect.sequence` : the shapes.
* `Inspect.datum`, `Inspect.group`, `Inspect.result` : the values.
-/

namespace ScatterGather

namespace Inspect

/-! ## Shapes -/

def sequence (items : List String) : String :=
  "[" ++ ", ".intercalate items ++ "]"

def variant (name : String) (fields : List String) : String :=
  name ++ "(" ++ ", ".intercalate fields ++ ")"

def fieldTexts (fields : List (String × String)) : List String :=
  fields.map fun (name, value) => name ++ ": " ++ value

def record (name : String) (fields : List (String × String)) : String :=
  name ++ " \x7b " ++ ", ".intercalate (fieldTexts fields) ++ " \x7d"

/-- A record with more fields than it shows. -/
def partialRecord (name : String) (fields : List (String × String)) : String :=
  name ++ " \x7b " ++ ", ".intercalate (fieldTexts fields ++ [".."]) ++ " \x7d"

def texts (items : List String) : String :=
  sequence (items.map Text.quote)

/-! ## Values -/

def datum : Datum → String
  | .null => "Null"
  | .boolean b => variant "Boolean" [if b then "true" else "false"]
  | .int32 i => variant "Int32" [toString i.toInt]
  | .int64 i => variant "Int64" [toString i.toInt]
  | .float64 x => variant "Float64" [Shortest.write Shortest.literal x]
  | .text s => variant "Text" [Text.quote s]
  | .timestamp t => variant "Timestamp" [toString t.toInt]
  | .decimal mantissa scale => variant "Decimal" [toString mantissa, toString scale.toNat]
  | .bytes b => variant "Bytea" [sequence (b.map fun x => toString x.toNat)]

def row (r : Row) : String :=
  record "OwnedRow" [("values", sequence (r.map datum))]

/-! ## Units and groups -/

def mode : Mode → String
  | .stream => "PerConnectionStrict"
  | .memory => "MemoryStrict"

def sqlUnit (s : SqlUnit) : String :=
  record "SqlUnit"
    [("sql", Text.quote s.sql), ("parameters", sequence (s.parameters.map datum))]

def routeUnit (r : RouteUnit) : String :=
  record "RouteUnit" [("target", Text.quote r.target), ("sql_unit", sqlUnit r.statement)]

def boundUnit (u : BoundUnit) : String :=
  partialRecord "ExecutionUnit"
    [("route_unit", routeUnit u.route), ("connection", Text.quote u.connection.target),
      ("mode", mode u.mode)]

def placed (p : Placed BoundUnit) : String :=
  record "PositionedUnit" [("position", toString p.position), ("unit", boundUnit p.unit)]

def group (g : Group Connection BoundUnit) : String :=
  record "ExecutionGroup"
    [("index", toString g.index), ("connection", Text.quote g.connection.target),
      ("mode", mode g.mode), ("targets", texts g.targets),
      ("units", sequence (g.units.map placed))]

/-! ## Results -/

def stream (s : Stream) : String :=
  partialRecord "StreamResult"
    [("target", Text.quote s.target), ("columns", texts s.columns),
      ("connection", Text.quote s.connection.target),
      ("exhausted", if s.exhausted then "true" else "false")]

def buffer (b : Buffer) : String :=
  record "MemoryResult"
    [("target", Text.quote b.target), ("columns", texts b.columns),
      ("rows", sequence (b.rows.map row)), ("next", toString b.next)]

def result : QueryResult → String
  | .stream s => variant "Stream" [stream s]
  | .memory b => variant "Memory" [buffer b]

end Inspect

end ScatterGather
