import ScatterGather.Number.Binary64

/-!
# Shortest — the fewest decimal digits that read back as the same double

Every decimal in the rounding interval of a double reads back as that double. `Shortest.digits`
goes through the decimal grids from one digit upwards and takes the first grid that has a point
in the interval: if any point of a grid lies there, one of the two neighbours of the number does.
Of two such neighbours the nearer is taken.

`Shortest.Layout` is what a notation decides for itself: which magnitudes are written without an
exponent, whether an integral number keeps a `.0`, whether a positive exponent shows its sign, and
where an exact tie goes.
-/

namespace ScatterGather

namespace Shortest

/-! ## The interval that rounds to a double -/

/-- A positive double `value / unit` between the ends of its rounding interval. -/
structure Interval where
  lower : Nat
  value : Nat
  upper : Nat
  unit : Nat
  closed : Bool

/-- The interval of `m * 2 ^ q`. Below a power of two the doubles lie twice as dense, so that
side is half as wide. The ends round to the even significand. -/
def Interval.ofMagnitude (m : Nat) (q : Int) : Interval :=
  let scale := Nat.pow 2 (q - 2).toNat
  let below := if m = Nat.pow 2 52 ∧ -1074 < q then 1 else 2
  { lower := (4 * m - below) * scale
    value := 4 * m * scale
    upper := (4 * m + 2) * scale
    unit := Nat.pow 2 (2 - q).toNat
    closed := m % 2 == 0 }

/-- Whether the decimal `n * 10 ^ place` lies in the interval. -/
def Interval.holds (i : Interval) (n : Nat) (place : Int) : Bool :=
  let point := n * Nat.pow 10 place.toNat * i.unit
  let scale := Nat.pow 10 (-place).toNat
  if i.closed then
    decide (i.lower * scale ≤ point ∧ point ≤ i.upper * scale)
  else
    decide (i.lower * scale < point ∧ point < i.upper * scale)

/-! ## Digits -/

/-- Where an exact tie between two equally short candidates goes. -/
inductive Tie
  | up
  | even
  deriving DecidableEq

/-- A positive decimal `0.d₁d₂… * 10 ^ point`, its first and last digit not zero. -/
structure Digits where
  digits : List Char
  point : Int

/-- The number of decimal digits before the point of `num / den`, at most zero below one tenth. -/
def pointOf (num den : Nat) : Int :=
  if den ≤ num then (Nat.toDigits 10 (num / den)).length
  else 1 - ((Nat.toDigits 10 (den / num)).length : Int) +
    (if den ≤ num * Nat.pow 10 ((Nat.toDigits 10 (den / num)).length - 1) then 1 else 0)

/-- The point of the grid `10 ^ place` nearest to the number, if the interval holds one. -/
def onGrid? (tie : Tie) (i : Interval) (place : Int) : Option Nat :=
  let num := i.value * Nat.pow 10 (-place).toNat
  let den := i.unit * Nat.pow 10 place.toNat
  let below := num / den
  let twice := 2 * (num % den)
  let nearer :=
    if twice < den then below
    else if den < twice then below + 1
    else
      match tie with
      | .up => below + 1
      | .even => below + below % 2
  let farther := if nearer = below then below + 1 else below
  if i.holds nearer place then some nearer
  else if i.holds farther place then some farther
  else none

/-- The first grid with a point in the interval, `tries` grids being left. Seventeen digits
always suffice. -/
def search (tie : Tie) (i : Interval) (point : Int) : Nat → Nat → Nat × Int
  | 0, used => (i.value / i.unit, point - used)
  | tries + 1, used =>
    match onGrid? tie i (point - used - 1) with
    | some n => (n, point - used - 1)
    | none => search tie i point tries (used + 1)

def digits (tie : Tie) (m : Nat) (q : Int) : Digits :=
  let i := Interval.ofMagnitude m q
  let (n, place) := search tie i (pointOf i.value i.unit) 17 0
  let written := Nat.toDigits 10 n
  { digits := (written.reverse.dropWhile (· == '0')).reverse
    point := place + written.length }

/-! ## Notations -/

structure Layout where
  /-- The magnitudes, by the place of their point, that are written without an exponent. -/
  positional : Int → Bool
  /-- Whether an integral number without an exponent ends in `.0`. -/
  keepsPoint : Bool
  /-- Whether a positive exponent is written behind a `+`. -/
  signsExponent : Bool
  tie : Tie

def zeros (n : Nat) : List Char :=
  List.replicate n '0'

/-- The digits with the point in its place, without an exponent. -/
def Digits.positional (d : Digits) (keepsPoint : Bool) : List Char :=
  let count : Int := d.digits.length
  if d.point ≤ 0 then '0' :: '.' :: zeros (-d.point).toNat ++ d.digits
  else if count ≤ d.point then
    d.digits ++ zeros (d.point - count).toNat ++ (if keepsPoint then ['.', '0'] else [])
  else d.digits.take d.point.toNat ++ '.' :: d.digits.drop d.point.toNat

/-- One digit before the point and the exponent of ten behind an `e`. -/
def Digits.scientific (d : Digits) (signsExponent : Bool) : List Char :=
  let exponent := d.point - 1
  let fraction := d.digits.drop 1
  d.digits.take 1 ++ (if fraction.isEmpty then [] else '.' :: fraction) ++
    'e' :: (if exponent < 0 then ['-'] else if signsExponent then ['+'] else []) ++
    Nat.toDigits 10 exponent.natAbs

/-- The text of a number under a layout: the sign, then the shortest digits. -/
def write (layout : Layout) (x : Binary64) : String :=
  if x.isNaN then "NaN"
  else
    let sign := if x.isNegative then ['-'] else []
    let body :=
      if x.isInfinite then "inf".toList
      else if x.isZero then '0' :: (if layout.keepsPoint then ['.', '0'] else [])
      else
        let (m, q) := x.magnitude
        let d := digits layout.tie m q
        if layout.positional d.point then d.positional layout.keepsPoint
        else d.scientific layout.signsExponent
    String.ofList (sign ++ body)

/-- Plain numbers never have an exponent, and an integral one has no point. -/
def plain : Layout :=
  ⟨fun _ => true, false, false, .up⟩

/-- Literals show that they are not integers, and magnitudes from `10 ^ 16` on or below `10 ^ -4`
have an exponent. -/
def literal : Layout :=
  ⟨fun point => decide (-4 < point ∧ point ≤ 16), true, false, .up⟩

/-- Numbers in documents have an exponent, with its sign, from `10 ^ 16` on or below `10 ^ -5`. -/
def document : Layout :=
  ⟨fun point => decide (-5 < point ∧ point ≤ 16), true, true, .even⟩

end Shortest

end ScatterGather
