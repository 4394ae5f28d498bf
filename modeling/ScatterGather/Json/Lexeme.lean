import ScatterGather.Number.Binary64
import ScatterGather.Text.Digit

/-!
# Lexeme — the strings and numbers of JSON text

Readers take the characters that are left and answer with what they read and what is left behind
it, or with nothing.

* `Json.string?` : a quoted string; escapes name UTF-16 units, and a surrogate needs its partner.
* `Json.number?` : a number by its parts.
* `Json.Number.value?` : a number as an integer where it is written as one that fits into 64
  bits, else as a double.
-/

namespace ScatterGather

namespace Json

def isBlank (c : Char) : Bool :=
  c == ' ' || c == '\n' || c == '\t' || c == '\r'

def skipBlank (s : List Char) : List Char :=
  s.dropWhile isBlank

/-- The text `expected`, then the rest. -/
def exactly? (expected s : List Char) : Option (List Char) :=
  if expected.isPrefixOf s then some (s.drop expected.length) else none

/-! ## Strings -/

/-- A piece of a quoted string: a character as it stands, or one UTF-16 unit. -/
inductive Piece
  | plain (c : Char)
  | unit (code : Nat)

def shortEscape? : Char → Option Char
  | '"' => some '"'
  | '\\' => some '\\'
  | '/' => some '/'
  | 'b' => some '\x08'
  | 'f' => some '\x0c'
  | 'n' => some '\n'
  | 'r' => some '\r'
  | 't' => some '\t'
  | _ => none

/-- The pieces up to the closing quote. -/
def pieces? : List Char → Option (List Piece × List Char)
  | [] => none
  | '"' :: rest => some ([], rest)
  | '\\' :: 'u' :: a :: b :: c :: d :: rest => do
      let code ← Digit.hexadecimal? [a, b, c, d]
      let (pieces, rest) ← pieces? rest
      some (.unit code :: pieces, rest)
  | '\\' :: c :: rest => do
      let escaped ← shortEscape? c
      let (pieces, rest) ← pieces? rest
      some (.plain escaped :: pieces, rest)
  | c :: rest =>
      if c < ' ' ∨ c = '\\' then none
      else do
        let (pieces, rest) ← pieces? rest
        some (.plain c :: pieces, rest)

/-- Joins each high surrogate with the low one right behind it. -/
def join? : List Piece → Option (List Char)
  | [] => some []
  | .plain c :: rest => (join? rest).map (c :: ·)
  | .unit high :: .unit low :: rest =>
      if 0xD800 ≤ high ∧ high < 0xDC00 then
        if 0xDC00 ≤ low ∧ low < 0xE000 then
          (join? rest).map
            (Char.ofNat (0x10000 + (high - 0xD800) * 0x400 + (low - 0xDC00)) :: ·)
        else none
      else if 0xDC00 ≤ high ∧ high < 0xE000 then none
      else (join? (.unit low :: rest)).map (Char.ofNat high :: ·)
  | .unit code :: rest =>
      if 0xD800 ≤ code ∧ code < 0xE000 then none
      else (join? rest).map (Char.ofNat code :: ·)

def string? : List Char → Option (String × List Char)
  | '"' :: rest => do
      let (pieces, rest) ← pieces? rest
      let chars ← join? pieces
      some (String.ofList chars, rest)
  | _ => none

/-! ## Numbers -/

/-- A number by its parts, each a list of digit values. -/
structure Number where
  negative : Bool
  whole : List Nat
  fraction : Option (List Nat)
  exponent : Option (Bool × List Nat)

/-- One or more digits. -/
def digits? (s : List Char) : Option (List Nat × List Char) :=
  let digits := (s.takeWhile Digit.isDecimal).filterMap (Digit.value? 10)
  if digits.isEmpty then none else some (digits, s.dropWhile Digit.isDecimal)

/-- Digits that do not begin with a superfluous zero. -/
def whole? (s : List Char) : Option (List Nat × List Char) := do
  let (digits, rest) ← digits? s
  if digits.head? = some 0 ∧ 1 < digits.length then none else some (digits, rest)

def fraction? : List Char → Option (Option (List Nat) × List Char)
  | '.' :: rest => (digits? rest).map fun (digits, rest) => (some digits, rest)
  | s => some (none, s)

def exponentDigits? : List Char → Option ((Bool × List Nat) × List Char)
  | '+' :: rest => (digits? rest).map fun (digits, rest) => ((false, digits), rest)
  | '-' :: rest => (digits? rest).map fun (digits, rest) => ((true, digits), rest)
  | rest => (digits? rest).map fun (digits, rest) => ((false, digits), rest)

def exponent? : List Char → Option (Option (Bool × List Nat) × List Char)
  | 'e' :: rest => (exponentDigits? rest).map fun (e, rest) => (some e, rest)
  | 'E' :: rest => (exponentDigits? rest).map fun (e, rest) => (some e, rest)
  | s => some (none, s)

def minus : List Char → Bool × List Char
  | '-' :: rest => (true, rest)
  | s => (false, s)

def number? (s : List Char) : Option (Number × List Char) := do
  let (negative, s) := minus s
  let (whole, s) ← whole? s
  let (fraction, s) ← fraction? s
  let (exponent, s) ← exponent? s
  some (⟨negative, whole, fraction, exponent⟩, s)

/-- An integer on its own: the digits end the reading, whatever stands behind them. -/
def integer? (s : List Char) : Option (Int × List Char) := do
  let (negative, s) := minus s
  let (whole, s) ← whole? s
  let value : Int := Digit.valueOf 10 whole
  some (if negative then -value else value, s)

/-! ## Values of numbers -/

namespace Number

/-- The largest significand that is kept. -/
def capacity : Nat := UInt64.size - 1

/-- Takes digits into the significand while it stays within the capacity, and answers with it
and the number of digits that did not fit. -/
def accumulate (significand : Nat) : List Nat → Nat × Nat
  | [] => (significand, 0)
  | d :: rest =>
    if significand * 10 + d ≤ capacity then accumulate (significand * 10 + d) rest
    else (significand, rest.length + 1)

/-- The significand and the power of ten that goes with it. Digits that do not fit are dropped:
before the point they still count as places. -/
def scaled (n : Number) : Nat × Int :=
  let (significand, dropped) := accumulate 0 n.whole
  let fraction := n.fraction.getD []
  let (significand, unread) := accumulate significand fraction
  let shift : Int :=
    match n.exponent with
    | none => 0
    | some (negative, digits) =>
      let size : Int := Digit.valueOf 10 digits
      if negative then -size else size
  (significand, (dropped : Int) - ((fraction.length - unread : Nat) : Int) + shift)

/-- Divides by `10 ^ exponent`, in steps of the largest power that a double holds. -/
def shrink (x : Binary64) (exponent : Nat) : Binary64 :=
  if exponent ≤ 308 then x.div (Binary64.ofRatio false (Nat.pow 10 exponent) 1)
  else if x.isZero then x
  else shrink (x.div (Binary64.ofRatio false (Nat.pow 10 308) 1)) (exponent - 308)
termination_by exponent
decreasing_by omega

/-- The significand as a double, scaled by one rounded power of ten; nothing where the result is
too large. -/
def real? (n : Number) : Option Binary64 :=
  let (significand, exponent) := n.scaled
  let x := Binary64.ofInt significand
  let size :=
    if exponent < 0 then some (shrink x (-exponent).toNat)
    else if 308 < exponent then if x.isZero then some x else none
    else
      let y := x.mul (Binary64.ofRatio false (Nat.pow 10 exponent.toNat) 1)
      if y.isInfinite then none else some y
  size.map fun y => if n.negative then y.neg else y

inductive Value
  | integer (i : Int)
  | real (x : Binary64)

/-- Whole numbers are integers from `-2 ^ 63` up to the capacity, a negative zero excepted. -/
def value? (n : Number) : Option Value :=
  let magnitude := Digit.valueOf 10 n.whole
  let isWhole := n.fraction.isNone && n.exponent.isNone
  if isWhole ∧ !n.negative ∧ magnitude ≤ capacity then some (.integer magnitude)
  else if isWhole ∧ n.negative ∧ 0 < magnitude ∧ magnitude ≤ Int64.minValue.toInt.natAbs then
    some (.integer (-magnitude))
  else n.real?.map .real

end Number

end Json

end ScatterGather
