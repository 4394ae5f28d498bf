/-!
# Binary64 — double-precision numbers as bit patterns

A `Binary64` is the 64 bits of an IEEE 754 double. Keeping the bits makes equality of values
decidable and tells the zeros and the NaNs apart; the arithmetic works on the fields in exact
`Nat` arithmetic and rounds once.

* `Binary64.magnitude` : the significand `m` and exponent `q` with `|x| = m * 2 ^ q`.
* `Binary64.nearestBits` : the double nearest to a quotient, a tie going to the even significand.
* `Binary64.ofInt`, `Binary64.mul`, `Binary64.div` : correctly rounded operations.
* `Binary64.eqNumber` : numeric equality, under which NaN differs from itself and `0 = -0`.
-/

namespace ScatterGather

structure Binary64 where
  bits : UInt64
  deriving DecidableEq

namespace Binary64

/-! ## Fields of the pattern -/

def isNegative (x : Binary64) : Bool :=
  decide (Nat.pow 2 63 ≤ x.bits.toNat)

def exponentField (x : Binary64) : Nat :=
  x.bits.toNat / Nat.pow 2 52 % Nat.pow 2 11

def fractionField (x : Binary64) : Nat :=
  x.bits.toNat % Nat.pow 2 52

def isNaN (x : Binary64) : Bool :=
  x.exponentField == 2047 && x.fractionField != 0

def isInfinite (x : Binary64) : Bool :=
  x.exponentField == 2047 && x.fractionField == 0

def isZero (x : Binary64) : Bool :=
  x.exponentField == 0 && x.fractionField == 0

/-- The significand and the exponent of a finite number; subnormals share the least exponent. -/
def magnitude (x : Binary64) : Nat × Int :=
  if x.exponentField = 0 then (x.fractionField, -1074)
  else (Nat.pow 2 52 + x.fractionField, (x.exponentField : Int) - 1075)

def eqNumber (x y : Binary64) : Bool :=
  !x.isNaN && !y.isNaN && (x.bits == y.bits || (x.isZero && y.isZero))

/-! ## Construction -/

def ofFields (negative : Bool) (magnitudeBits : Nat) : Binary64 :=
  ⟨UInt64.ofNat ((if negative then Nat.pow 2 63 else 0) + magnitudeBits)⟩

def nan : Binary64 :=
  ofFields false (2047 * Nat.pow 2 52 + Nat.pow 2 51)

def infinity (negative : Bool) : Binary64 :=
  ofFields negative (2047 * Nat.pow 2 52)

def zero (negative : Bool) : Binary64 :=
  ofFields negative 0

/-! ## Rounding -/

/-- The integer nearest to `num / den`; a half goes to the even neighbour. -/
def roundHalfEven (num den : Nat) : Nat :=
  let quotient := num / den
  let twice := 2 * (num % den)
  if twice < den then quotient
  else if den < twice then quotient + 1
  else quotient + quotient % 2

/-- The exponent of the last place of a double near `num / den`, both positive. -/
def lastPlace (num den : Nat) : Int :=
  let guess : Int := (num.log2 : Int) - den.log2
  let exponent :=
    if den * Nat.pow 2 guess.toNat ≤ num * Nat.pow 2 (-guess).toNat then guess else guess - 1
  max (exponent - 52) (-1074)

/-- The pattern, without the sign, of the double nearest to `num / den`. A significand that
rounds up to the next power of two carries into the exponent field by itself, and what is too
large becomes infinite. -/
def nearestBits (num den : Nat) : Nat :=
  if num = 0 then 0
  else
    let place := lastPlace num den
    let significand :=
      roundHalfEven (num * Nat.pow 2 (-place).toNat) (den * Nat.pow 2 place.toNat)
    min ((place + 1074).toNat * Nat.pow 2 52 + significand) (2047 * Nat.pow 2 52)

def ofRatio (negative : Bool) (num den : Nat) : Binary64 :=
  ofFields negative (nearestBits num den)

def ofInt (i : Int) : Binary64 :=
  ofRatio (decide (i < 0)) i.natAbs 1

/-! ## Arithmetic -/

def neg (x : Binary64) : Binary64 :=
  ofFields (!x.isNegative) (x.bits.toNat % Nat.pow 2 63)

def mul (x y : Binary64) : Binary64 :=
  let negative := x.isNegative != y.isNegative
  if x.isNaN || y.isNaN then nan
  else if x.isInfinite || y.isInfinite then
    if x.isZero || y.isZero then nan else infinity negative
  else
    let (m, p) := x.magnitude
    let (n, q) := y.magnitude
    ofRatio negative (m * n * Nat.pow 2 (p + q).toNat) (Nat.pow 2 (-(p + q)).toNat)

def div (x y : Binary64) : Binary64 :=
  let negative := x.isNegative != y.isNegative
  if x.isNaN || y.isNaN then nan
  else if x.isInfinite then
    if y.isInfinite then nan else infinity negative
  else if y.isInfinite then zero negative
  else if y.isZero then
    if x.isZero then nan else infinity negative
  else
    let (m, p) := x.magnitude
    let (n, q) := y.magnitude
    ofRatio negative (m * Nat.pow 2 (p - q).toNat) (n * Nat.pow 2 (q - p).toNat)

/-- The power of ten found by repeated squaring, each product rounded. -/
def powTen (exponent : Nat) : Binary64 :=
  go exponent (ofInt 1) (ofInt 10)
where
  go (n : Nat) (acc square : Binary64) : Binary64 :=
    let acc := if n % 2 = 1 then acc.mul square else acc
    if h : n / 2 = 0 then acc
    else go (n / 2) acc (square.mul square)
  termination_by n
  decreasing_by omega

end Binary64

end ScatterGather
