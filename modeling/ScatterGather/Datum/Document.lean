import ScatterGather.Datum
import ScatterGather.Json.Lexeme

/-!
# Document — values as JSON text

A value is an object whose one key names the type, or just that name for null:
`{"Int32":5}`, `{"Decimal":[-15,1]}`, `"Null"`.

* `Datum.toJson` : the text of a value.
* `Datum.ofJson?` : the value of a text, if it is the text of one.
-/

namespace ScatterGather

namespace Datum

/-! ## Writing -/

def jsonEscape (c : Char) : List Char :=
  match c with
  | '"' => ['\\', '"']
  | '\\' => ['\\', '\\']
  | '\x08' => ['\\', 'b']
  | '\x0c' => ['\\', 'f']
  | '\n' => ['\\', 'n']
  | '\r' => ['\\', 'r']
  | '\t' => ['\\', 't']
  | c =>
    if c < ' ' then '\\' :: 'u' :: '0' :: '0' :: hexByte c.toNat.toUInt8 else [c]

def jsonString (s : String) : String :=
  String.ofList ('"' :: s.toList.flatMap jsonEscape ++ ['"'])

def jsonList (items : List String) : String :=
  "[" ++ ",".intercalate items ++ "]"

def tagged (tag payload : String) : String :=
  "\x7b\"" ++ tag ++ "\":" ++ payload ++ "\x7d"

def toJson : Datum → String
  | null => "\"Null\""
  | boolean b => tagged "Boolean" (if b then "true" else "false")
  | int32 i => tagged "Int32" (toString i.toInt)
  | int64 i => tagged "Int64" (toString i.toInt)
  | float64 x =>
      tagged "Float64"
        (if x.isNaN || x.isInfinite then "null" else Shortest.write Shortest.document x)
  | text s => tagged "Text" (jsonString s)
  | timestamp t => tagged "Timestamp" (toString t.toInt)
  | decimal mantissa scale =>
      tagged "Decimal" (jsonList [toString mantissa, toString scale.toNat])
  | bytes b => tagged "Bytea" (jsonList (b.map fun x => toString x.toNat))

/-! ## Reading -/

open Json

/-- An integer between two bounds, both included. -/
def between? (low high : Int) (s : List Char) : Option (Int × List Char) := do
  let (n, rest) ← number? (skipBlank s)
  match ← n.value? with
  | .integer i => if low ≤ i ∧ i ≤ high then some (i, rest) else none
  | .real _ => none

def double? (s : List Char) : Option (Binary64 × List Char) := do
  let (n, rest) ← number? (skipBlank s)
  match ← n.value? with
  | .integer i => some (Binary64.ofInt i, rest)
  | .real x => some (x, rest)

/-- An integer of 128 bits with a sign. -/
def mantissa? (s : List Char) : Option (Int × List Char) := do
  let (i, rest) ← integer? (skipBlank s)
  if -(Nat.pow 2 127 : Nat) ≤ i ∧ i < (Nat.pow 2 127 : Nat) then some (i, rest) else none

def octet? (s : List Char) : Option (UInt8 × List Char) :=
  (between? 0 255 s).map fun (i, rest) => (i.toNat.toUInt8, rest)

def truth? (s : List Char) : Option (Bool × List Char) :=
  let s := skipBlank s
  match exactly? "true".toList s with
  | some rest => some (true, rest)
  | none => (exactly? "false".toList s).map fun rest => (false, rest)

/-- The octets behind the first one, up to the closing bracket; each round uses up a comma. -/
def moreOctets? (s : List Char) : Nat → Option (List UInt8 × List Char)
  | 0 => none
  | rounds + 1 =>
    match skipBlank s with
    | ']' :: rest => some ([], rest)
    | ',' :: rest => do
        let (b, rest) ← octet? rest
        let (bs, rest) ← moreOctets? rest rounds
        some (b :: bs, rest)
    | _ => none

def octets? (s : List Char) : Option (List UInt8 × List Char) := do
  let rest ← exactly? ['['] (skipBlank s)
  match skipBlank rest with
  | ']' :: rest => some ([], rest)
  | rest => do
      let (b, rest) ← octet? rest
      let (bs, rest) ← moreOctets? rest (rest.length + 1)
      some (b :: bs, rest)

def scaledInteger? (s : List Char) : Option ((Int × UInt8) × List Char) := do
  let rest ← exactly? ['['] (skipBlank s)
  let (mantissa, rest) ← mantissa? rest
  let rest ← exactly? [','] (skipBlank rest)
  let (scale, rest) ← octet? rest
  let rest ← exactly? [']'] (skipBlank rest)
  some ((mantissa, scale), rest)

/-- What stands behind the key `tag`. -/
def payload? (tag : String) (s : List Char) : Option (Datum × List Char) :=
  match tag with
  | "Null" => (exactly? "null".toList (skipBlank s)).map fun rest => (null, rest)
  | "Boolean" => (truth? s).map fun (b, rest) => (boolean b, rest)
  | "Int32" =>
      (between? Int32.minValue.toInt Int32.maxValue.toInt s).map fun (i, rest) =>
        (int32 (Int32.ofInt i), rest)
  | "Int64" =>
      (between? Int64.minValue.toInt Int64.maxValue.toInt s).map fun (i, rest) =>
        (int64 (Int64.ofInt i), rest)
  | "Float64" => (double? s).map fun (x, rest) => (float64 x, rest)
  | "Text" => (string? (skipBlank s)).map fun (t, rest) => (text t, rest)
  | "Timestamp" =>
      (between? Int64.minValue.toInt Int64.maxValue.toInt s).map fun (i, rest) =>
        (timestamp (Int64.ofInt i), rest)
  | "Decimal" => (scaledInteger? s).map fun ((m, n), rest) => (decimal m n, rest)
  | "Bytea" => (octets? s).map fun (b, rest) => (bytes b, rest)
  | _ => none

def document? (s : List Char) : Option (Datum × List Char) :=
  match skipBlank s with
  | '\x7b' :: rest => do
      let (tag, rest) ← string? (skipBlank rest)
      let rest ← exactly? [':'] (skipBlank rest)
      let (value, rest) ← payload? tag rest
      let rest ← exactly? ['\x7d'] (skipBlank rest)
      some (value, rest)
  | s => do
      let (tag, rest) ← string? s
      if tag = "Null" then some (null, rest) else none

def ofJson? (s : String) : Option Datum := do
  let (value, rest) ← document? s.toList
  if (skipBlank rest).isEmpty then some value else none

end Datum

end ScatterGather
