import ScatterGather.Number.Binary64
import ScatterGather.Toml.Lexeme

/-!
# Scalar — numbers, dates and times of TOML text

* `Toml.integer?` : an integer of 64 bits, written in base ten, sixteen, eight or two.
* `Toml.skipReal?` : passes over a real number that is not too large for a double.
* `Toml.skipMoment?` : passes over a date, a time or both.

No setting is a real number or a moment, so these two are checked and their values not kept.
-/

namespace ScatterGather

namespace Toml

/-! ## Digits -/

/-- Digits of the base; a single underscore may stand between two of them. -/
def moreDigits (base : Nat) : List Char → List Nat × List Char
  | [] => ([], [])
  | '_' :: c :: rest =>
    match Digit.value? base c with
    | some d =>
      let (ds, rest) := moreDigits base rest
      (d :: ds, rest)
    | none => ([], '_' :: c :: rest)
  | c :: rest =>
    match Digit.value? base c with
    | some d =>
      let (ds, rest) := moreDigits base rest
      (d :: ds, rest)
    | none => ([], c :: rest)

/-- One or more digits of the base. -/
def digits? (base : Nat) : List Char → Option (List Nat × List Char)
  | '_' :: _ => none
  | s =>
    let (digits, rest) := moreDigits base s
    if digits.isEmpty then none else some (digits, rest)

/-- Decimal digits that do not begin with a superfluous zero. -/
def whole? (s : List Char) : Option (List Nat × List Char) := do
  let (digits, rest) ← digits? 10 s
  if digits.head? = some 0 ∧ 1 < digits.length then none else some (digits, rest)

def sign : List Char → Bool × List Char
  | '-' :: rest => (true, rest)
  | '+' :: rest => (false, rest)
  | s => (false, s)

/-! ## Integers -/

/-- An integer; in another base than ten it has no sign. -/
def unbounded? (s : List Char) : Option (Int × List Char) :=
  let natural (read : List Nat × List Char) (base : Nat) : Int × List Char :=
    ((Digit.valueOf base read.1 : Nat), read.2)
  match s with
  | '0' :: 'x' :: rest => (digits? 16 rest).map (natural · 16)
  | '0' :: 'o' :: rest => (digits? 8 rest).map (natural · 8)
  | '0' :: 'b' :: rest => (digits? 2 rest).map (natural · 2)
  | s => do
    let (negative, s) := sign s
    let (value, rest) := natural (← whole? s) 10
    some (if negative then -value else value, rest)

def integer? (s : List Char) : Option (Int × List Char) := do
  let (value, rest) ← unbounded? s
  if Int64.minValue.toInt ≤ value ∧ value ≤ Int64.maxValue.toInt then some (value, rest) else none

/-! ## Real numbers -/

/-- The digits behind a point, none where there is no point. -/
def fraction? : List Char → Option (List Nat × List Char)
  | '.' :: rest => digits? 10 rest
  | s => some ([], s)

/-- The power of ten that is written behind the digits, zero where none is. -/
def exponent? (s : List Char) : Option (Int × List Char) :=
  let power (s : List Char) := do
    let (negative, s) := sign s
    let (digits, rest) ← digits? 10 s
    let value : Int := Digit.valueOf 10 digits
    some (if negative then -value else value, rest)
  match s with
  | 'e' :: rest => power rest
  | 'E' :: rest => power rest
  | s => some (0, s)

/-- Whether the double nearest to `digits * 10 ^ exponent` is infinite. All doubles are below
`10 ^ 309`, and all numbers below `10 ^ 308` have a finite one. -/
def exceeds (digits : List Nat) (exponent : Int) : Bool :=
  let digits := digits.dropWhile (· == 0)
  let places : Int := digits.length + exponent
  if digits.isEmpty ∨ places < 309 then false
  else if 309 < places then true
  else
    (Binary64.ofRatio false (Digit.valueOf 10 digits * Nat.pow 10 exponent.toNat)
      (Nat.pow 10 (-exponent).toNat)).isInfinite

/-- A number with a point or a power of ten, infinity or the absence of a number. What is too
large is refused, unless it is negative. -/
def skipReal? (s : List Char) : Option (List Char) :=
  let (negative, s) := sign s
  match s with
  | 'i' :: 'n' :: 'f' :: rest => some rest
  | 'n' :: 'a' :: 'n' :: rest => some rest
  | s => do
    let (whole, behindWhole) ← whole? s
    let (fraction, behindFraction) ← fraction? behindWhole
    let (power, rest) ← exponent? behindFraction
    if rest.length = behindWhole.length then none
    else if !negative && exceeds (whole ++ fraction) (power - fraction.length) then none
    else some rest

/-! ## Dates and times -/

/-- A number of exactly `width` digits between two bounds, both included. -/
def figure? (width low high : Nat) (s : List Char) : Option (Nat × List Char) := do
  let digits ← (s.take width).mapM (Digit.value? 10)
  let value := Digit.valueOf 10 digits
  if digits.length = width ∧ low ≤ value ∧ value ≤ high then some (value, s.drop width) else none

def mark? (expected : Char) : List Char → Option (List Char)
  | c :: rest => if c = expected then some rest else none
  | [] => none

def isLeap (year : Nat) : Bool :=
  year % 4 = 0 && (year % 100 ≠ 0 || year % 400 = 0)

def daysIn (year month : Nat) : Nat :=
  if month = 2 then if isLeap year then 29 else 28
  else if month = 4 ∨ month = 6 ∨ month = 9 ∨ month = 11 then 30
  else 31

def skipDate? (s : List Char) : Option (List Char) := do
  let (year, s) ← figure? 4 0 9999 s
  let (month, s) ← figure? 2 1 12 (← mark? '-' s)
  let (_, s) ← figure? 2 1 (daysIn year month) (← mark? '-' s)
  some s

def skipFractionOfSecond : List Char → List Char
  | '.' :: rest => if (rest.takeWhile Digit.isDecimal).isEmpty then '.' :: rest
      else rest.dropWhile Digit.isDecimal
  | s => s

/-- A time of day; a minute may have a leap second. -/
def skipTime? (s : List Char) : Option (List Char) := do
  let (_, s) ← figure? 2 0 23 s
  let (_, s) ← figure? 2 0 59 (← mark? ':' s)
  let (_, s) ← figure? 2 0 60 (← mark? ':' s)
  some (skipFractionOfSecond s)

/-- The distance from universal time. -/
def skipOffset? (s : List Char) : Option (List Char) :=
  match s with
  | 'Z' :: rest => some rest
  | 'z' :: rest => some rest
  | c :: rest =>
    if c = '+' ∨ c = '-' then do
      let (_, s) ← figure? 2 0 23 rest
      let (_, s) ← figure? 2 0 59 (← mark? ':' s)
      some s
    else none
  | [] => none

/-- The time behind a date; without one, the date stands alone. -/
def skipTimeOfDate (s : List Char) : List Char :=
  match s with
  | c :: rest =>
    if c = 'T' ∨ c = 't' ∨ c = ' ' then
      match skipTime? rest with
      | some behind => (skipOffset? behind).getD behind
      | none => s
    else s
  | [] => s

def skipMoment? (s : List Char) : Option (List Char) :=
  match skipDate? s with
  | some rest => some (skipTimeOfDate rest)
  | none => skipTime? s

end Toml

end ScatterGather
