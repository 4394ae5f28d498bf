import ScatterGather.Number.Fixed
import ScatterGather.Number.Shortest

/-!
# Datum — the values that rows and parameters hold

* `Datum` : a value of one of the column types; no conversion happens between types.
* `Datum.eqValue` : equality of values, where floating-point numbers compare as numbers.
* `Datum.display?` : the text of a value, absent only where a decimal's scale has no power of ten.
* `Row` : the values of one row, and its text.
-/

namespace ScatterGather

inductive Datum
  | null
  | boolean (value : Bool)
  | int32 (value : Int32)
  | int64 (value : Int64)
  | float64 (value : Binary64)
  | text (value : String)
  | timestamp (micros : Int64)
  | decimal (mantissa : Int) (scale : UInt8)
  | bytes (value : List UInt8)
  deriving DecidableEq

namespace Datum

/-! ## Accessors -/

def isNull : Datum → Bool
  | null => true
  | _ => false

def asBool? : Datum → Option Bool
  | boolean b => some b
  | _ => none

def asInt? : Datum → Option Int
  | int32 i => some i.toInt
  | int64 i => some i.toInt
  | _ => none

/-- Numbers as doubles. A decimal divides its rounded mantissa by the rounded power of ten. -/
def asFloat? : Datum → Option Binary64
  | int32 i => some (Binary64.ofInt i.toInt)
  | int64 i => some (Binary64.ofInt i.toInt)
  | float64 x => some x
  | decimal mantissa scale =>
      some ((Binary64.ofInt mantissa).div (Binary64.powTen scale.toNat))
  | _ => none

def asText? : Datum → Option String
  | text s => some s
  | _ => none

/-! ## Equality of values -/

def eqValue : Datum → Datum → Bool
  | float64 x, float64 y => x.eqNumber y
  | a, b => decide (a = b)

/-! ## Text -/

/-- Two lower-case hexadecimal digits. -/
def hexByte (b : UInt8) : List Char :=
  [Nat.digitChar (b.toNat / 16), Nat.digitChar (b.toNat % 16)]

def display? : Datum → Option String
  | null => some "NULL"
  | boolean b => some (if b then "true" else "false")
  | int32 i => some (toString i.toInt)
  | int64 i => some (toString i.toInt)
  | float64 x => some (Shortest.write Shortest.plain x)
  | text s => some s
  | timestamp t => some (toString t.toInt)
  | decimal mantissa scale => (Fixed.write? mantissa scale.toNat).map String.ofList
  | bytes b => some (String.ofList ('\\' :: 'x' :: b.flatMap hexByte))

end Datum

/-! ## Rows -/

abbrev Row := List Datum

namespace Row

def display? (r : Row) : Option String := do
  let texts ← List.mapM Datum.display? r
  some ("(" ++ ", ".intercalate texts ++ ")")

def eqValue (r s : Row) : Bool :=
  r.length == s.length && (r.zip s).all fun (a, b) => a.eqValue b

end Row

end ScatterGather
