/-!
# Fixed — decimals with a fixed number of places

A fixed-point decimal is an integer mantissa and a scale, the number of digits behind the point.
Writing one divides by `10 ^ scale`, which has to fit into 128 bits with a sign: larger scales
have no text.

* `Fixed.write?` : the sign, the integer part and exactly `scale` digits.
-/

namespace ScatterGather

namespace Fixed

/-- The decimal digits of `n`, filled up with zeros to `width`. -/
def padded (width n : Nat) : List Char :=
  let digits := Nat.toDigits 10 n
  List.replicate (width - digits.length) '0' ++ digits

def sign (mantissa : Int) : List Char :=
  if mantissa < 0 then ['-'] else []

def write (mantissa : Int) (scale : Nat) : List Char :=
  if scale = 0 then sign mantissa ++ Nat.toDigits 10 mantissa.natAbs
  else
    sign mantissa ++ Nat.toDigits 10 (mantissa.natAbs / Nat.pow 10 scale) ++
      '.' :: padded scale (mantissa.natAbs % Nat.pow 10 scale)

def write? (mantissa : Int) (scale : Nat) : Option (List Char) :=
  if Nat.pow 10 scale < Nat.pow 2 127 then some (write mantissa scale) else none

end Fixed

end ScatterGather
