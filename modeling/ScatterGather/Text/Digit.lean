/-!
# Digit — numerals in a base up to sixteen

* `Digit.value?` : the value of a character as a digit.
* `Digit.valueOf` : the number that digits spell, the most significant first.
* `Digit.scalar?` : the character whose code point hexadecimal digits spell.
-/

namespace ScatterGather

namespace Digit

/-- The value of a digit of the base, ASCII letters of either case standing for ten and above. -/
def value? (base : Nat) (c : Char) : Option Nat :=
  let value :=
    if '0' ≤ c ∧ c ≤ '9' then c.toNat - '0'.toNat
    else if 'a' ≤ c ∧ c ≤ 'f' then c.toNat - 'a'.toNat + 10
    else if 'A' ≤ c ∧ c ≤ 'F' then c.toNat - 'A'.toNat + 10
    else base
  if value < base then some value else none

def isDecimal (c : Char) : Bool :=
  (value? 10 c).isSome

def valueOf (base : Nat) (digits : List Nat) : Nat :=
  digits.foldl (fun acc d => acc * base + d) 0

def hexadecimal? (digits : List Char) : Option Nat :=
  (digits.mapM (value? 16)).map (valueOf 16)

/-- Surrogates and numbers beyond the last code point are no characters. -/
def scalar? (digits : List Char) : Option Char := do
  let code ← hexadecimal? digits
  if code.isValidChar then some (Char.ofNat code) else none

end Digit

end ScatterGather
