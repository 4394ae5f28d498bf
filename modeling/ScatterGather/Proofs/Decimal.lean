import Mathlib
import ScatterGather.Datum

/-!
# Decimal — what the text of a decimal says

The text of a decimal is cut out of the digits of its mantissa: the point goes in front of the last
digits, as many as the scale tells, and zeros fill up what the mantissa is short of.  So whoever
takes the point out again reads the mantissa, and whoever counts behind it reads the scale.

* `Fixed.le_maxScale_iff` : the scales whose power of ten fits into 128 bits with a sign;
* `Fixed.head?_toDigits_ne`, `Fixed.length_padded`, `Fixed.ofDigitChars_padded` : the two parts;
* `Fixed.Parts`, `Fixed.exists_parts` : the digits of a text and what they spell;
* `Fixed.toInt?_signed`, `Fixed.places` : how a text is read;
* `Datum.decimal_text_exact` : every decimal has one text, and no two have the same.
-/

namespace ScatterGather

namespace Fixed

/-! ## Scales -/

/-- The largest scale that a decimal is written with. -/
def maxScale : Nat := 38

theorem le_maxScale_iff (scale : Nat) : scale ≤ maxScale ↔ 10 ^ scale < 2 ^ 127 := by
  constructor
  · intro hle
    calc 10 ^ scale ≤ 10 ^ 38 := Nat.pow_le_pow_right (by decide) hle
      _ < 2 ^ 127 := by norm_num
  · intro hlt
    by_contra hgt
    have hle : 39 ≤ scale := Nat.lt_of_not_le hgt
    have hpow : 10 ^ 39 ≤ 10 ^ scale := Nat.pow_le_pow_right (by decide) hle
    have hbig : 2 ^ 127 < 10 ^ 39 := by norm_num
    omega

theorem write?_eq_none {m : Int} {scale : Nat} :
    write? m scale = none ↔ 2 ^ 127 ≤ 10 ^ scale := by
  rw [write?, ite_eq_right_iff]
  constructor
  · exact fun hnone => Nat.le_of_not_lt fun hfits => Option.some_ne_none _ (hnone hfits)
  · exact fun hle hfits => absurd hfits (Nat.not_lt.mpr hle)

theorem write?_of_le {scale : Nat} (m : Int) (hle : scale ≤ maxScale) :
    write? m scale = some (write m scale) :=
  if_pos ((le_maxScale_iff scale).mp hle)

/-! ## Digits -/

theorem head?_toDigits_ne {n : Nat} (hpos : 0 < n) : (Nat.toDigits 10 n).head? ≠ some '0' := by
  induction n using Nat.strongRecOn with
  | ind n ih =>
      by_cases hlt : n < 10
      · rw [Nat.toDigits_of_lt_base hlt]
        interval_cases n <;> decide
      · -- the last digit goes behind those of a smaller number
        have hsplit := Nat.toDigits_of_base_le (b := 10) (n := n) (by decide) (by omega)
        rw [hsplit, List.head?_append_of_ne_nil _ Nat.toDigits_ne_nil]
        exact ih (n / 10) (by omega) (by omega)

theorem isDigit_of_mem_padded {width n : Nat} {c : Char} (h : c ∈ padded width n) :
    c.isDigit = true := by
  rcases List.mem_append.mp h with hzero | hdigit
  · rw [(List.mem_replicate.mp hzero).2]
    rfl
  · exact Nat.isDigit_of_mem_toDigits (by decide) (by decide) hdigit

theorem length_padded {width n : Nat} (hpos : 0 < width) (h : n < 10 ^ width) :
    (padded width n).length = width := by
  have hle : (Nat.toDigits 10 n).length ≤ width :=
    (Nat.length_toDigits_le_iff (by decide) hpos).mpr h
  simp only [padded, List.length_append, List.length_replicate]
  omega

theorem ofDigitChars_padded (width n : Nat) : Nat.ofDigitChars 10 (padded width n) 0 = n := by
  rw [padded, Nat.ofDigitChars_append, Nat.ofDigitChars_replicate_zero, Nat.mul_zero,
    Nat.ofDigitChars_ten_toDigits]

/-! ## Parts -/

/-- The digits in front of the point and behind it spell `n`. -/
structure Parts (n scale : Nat) (whole fraction : List Char) : Prop where
  nonempty : whole ≠ []
  digits : ∀ c ∈ whole ++ fraction, c.isDigit = true
  /-- Zero in front stands by itself. -/
  leading : whole.head? = some '0' → whole = ['0']
  places : fraction.length = scale
  spells : Nat.ofDigitChars 10 (whole ++ fraction) 0 = n

theorem leading_toDigits (n : Nat) (h : (Nat.toDigits 10 n).head? = some '0') :
    Nat.toDigits 10 n = ['0'] := by
  rcases Nat.eq_zero_or_pos n with rfl | hpos
  · rfl
  · exact absurd h (head?_toDigits_ne hpos)

theorem parts_whole (n : Nat) : Parts n 0 (Nat.toDigits 10 n) [] := by
  refine ⟨Nat.toDigits_ne_nil, ?_, leading_toDigits n, rfl, ?_⟩
  · intro c hc
    rw [List.append_nil] at hc
    exact Nat.isDigit_of_mem_toDigits (by decide) (by decide) hc
  · rw [List.append_nil, Nat.ofDigitChars_ten_toDigits]

theorem parts_split (n : Nat) {scale : Nat} (hpos : 0 < scale) :
    Parts n scale (Nat.toDigits 10 (n / 10 ^ scale)) (padded scale (n % 10 ^ scale)) := by
  have hlength : (padded scale (n % 10 ^ scale)).length = scale :=
    length_padded hpos (Nat.mod_lt n (Nat.pow_pos (by decide)))
  refine ⟨Nat.toDigits_ne_nil, ?_, leading_toDigits _, hlength, ?_⟩
  · intro c hc
    rcases List.mem_append.mp hc with hwhole | hfraction
    · exact Nat.isDigit_of_mem_toDigits (by decide) (by decide) hwhole
    · exact isDigit_of_mem_padded hfraction
  · -- the digits behind the point go on from the number in front of it
    calc Nat.ofDigitChars 10 (Nat.toDigits 10 (n / 10 ^ scale) ++ padded scale (n % 10 ^ scale)) 0
        = Nat.ofDigitChars 10 (padded scale (n % 10 ^ scale)) (n / 10 ^ scale) := by
          rw [Nat.ofDigitChars_append, Nat.ofDigitChars_ten_toDigits]
      _ = 10 ^ scale * (n / 10 ^ scale) + n % 10 ^ scale := by
          rw [Nat.ofDigitChars_eq_ofDigitChars_zero, hlength, ofDigitChars_padded]
      _ = n := Nat.div_add_mod n _

/-- The point and what is behind it. -/
def tail (scale : Nat) (fraction : List Char) : List Char :=
  if scale = 0 then [] else '.' :: fraction

theorem exists_parts (m : Int) (scale : Nat) : ∃ whole fraction,
    write m scale = sign m ++ whole ++ tail scale fraction ∧
      Parts m.natAbs scale whole fraction := by
  rcases Nat.eq_zero_or_pos scale with rfl | hpos
  · exact ⟨_, _, by simp [write, tail], parts_whole m.natAbs⟩
  · have hne : scale ≠ 0 := Nat.ne_of_gt hpos
    exact ⟨_, _, by simp [write, tail, hne], parts_split m.natAbs hpos⟩

/-! ## Reading -/

theorem toNat?_digits {digits : List Char} (hne : digits ≠ [])
    (hdigits : ∀ c ∈ digits, c.isDigit = true) :
    (String.ofList digits).toNat? = some (Nat.ofDigitChars 10 digits 0) := by
  have hplain : ∀ c ∈ digits, c ≠ '_' := by
    rintro c hc rfl
    exact absurd (hdigits _ hc) (by decide)
  -- numerals may be grouped by underscores, but digits alone have none
  have hnat : (String.ofList digits).isNat = true := by
    rw [String.isNat_iff, String.toList_ofList]
    refine ⟨?_, fun c hc => .inl (hdigits c hc), ?_, ?_, ?_⟩
    · simpa using hne
    · intro hdouble
      exact hplain '_' (hdouble.mem (by simp)) rfl
    · intro hhead
      exact hplain '_' (List.mem_of_mem_head? hhead) rfl
    · intro hlast
      exact hplain '_' (List.mem_of_mem_getLast? hlast) rfl
  rw [String.toNat?_eq_some_ofDigitChars hnat, String.toList_ofList, List.filter_eq_self.mpr]
  intro c hc
  simpa using hplain c hc

/-- A sign in front of digits is read as a sign. -/
theorem toInt?_signed {m : Int} {digits : List Char} (hne : digits ≠ [])
    (hdigits : ∀ c ∈ digits, c.isDigit = true)
    (hspells : Nat.ofDigitChars 10 digits 0 = m.natAbs) :
    (String.ofList (sign m ++ digits)).toInt? = some m := by
  have hnat := toNat?_digits hne hdigits
  rw [hspells] at hnat
  by_cases hneg : m < 0
  · have hminus : String.ofList (sign m ++ digits) = "-" ++ String.ofList digits := by
      simp [sign, hneg]
    rw [hminus, String.toInt?_minus_append, hnat, Option.map_some, Option.some.injEq]
    omega
  · have hplain : sign m ++ digits = digits := by simp [sign, hneg]
    rw [hplain, String.toInt?_eq_some_of_toNat?_eq_some hnat, Option.some.injEq]
    omega

/-- The sign and the digits in front of the point are not the point. -/
theorem Parts.ne_point {m : Int} {scale : Nat} {whole fraction : List Char}
    (h : Parts m.natAbs scale whole fraction) :
    (∀ c ∈ sign m ++ whole, c ≠ '.') ∧ ∀ c ∈ fraction, c ≠ '.' := by
  have hdigit : ∀ c ∈ whole ++ fraction, c ≠ '.' := by
    rintro c hc rfl
    exact absurd (h.digits _ hc) (by decide)
  refine ⟨?_, fun c hc => hdigit c (List.mem_append_right _ hc)⟩
  intro c hc
  rcases List.mem_append.mp hc with hsign | hwhole
  · by_cases hneg : m < 0
    · rw [sign, if_pos hneg] at hsign
      rw [List.mem_singleton.mp hsign]
      decide
    · simp [sign, hneg] at hsign
  · exact hdigit c (List.mem_append_left _ hwhole)

theorem Parts.filter_eq {m : Int} {scale : Nat} {whole fraction : List Char}
    (h : Parts m.natAbs scale whole fraction) :
    (sign m ++ whole ++ tail scale fraction).filter (· ≠ '.') = sign m ++ (whole ++ fraction) := by
  rcases h.ne_point with ⟨hfront, hback⟩
  have hfraction : (tail scale fraction).filter (· ≠ '.') = fraction := by
    by_cases hzero : scale = 0
    · rw [List.length_eq_zero_iff.mp (h.places.trans hzero), tail, if_pos hzero]
      rfl
    · rw [tail, if_neg hzero, List.filter_cons_of_neg (by decide), List.filter_eq_self]
      simpa using hback
  rw [List.filter_append, hfraction, List.filter_eq_self.mpr (by simpa using hfront),
    List.append_assoc]

/-- What is left of a text from the point on. -/
theorem Parts.dropWhile_eq {m : Int} {scale : Nat} {whole fraction : List Char}
    (h : Parts m.natAbs scale whole fraction) :
    (sign m ++ whole ++ tail scale fraction).dropWhile (· ≠ '.') = tail scale fraction := by
  -- nothing in front of the point can be taken for it
  rw [List.dropWhile_append_of_pos (by simpa using h.ne_point.1)]
  by_cases hzero : scale = 0
  · simp [tail, hzero]
  · simp [tail, hzero]

theorem Parts.length_tail {n scale : Nat} {whole fraction : List Char}
    (h : Parts n scale whole fraction) :
    (tail scale fraction).length = if scale = 0 then 0 else scale + 1 := by
  by_cases hzero : scale = 0
  · simp [tail, hzero]
  · simp [tail, hzero, h.places]

theorem toInt?_write (m : Int) (scale : Nat) :
    (String.ofList ((write m scale).filter (· ≠ '.'))).toInt? = some m := by
  rcases exists_parts m scale with ⟨whole, fraction, htext, h⟩
  rw [htext, h.filter_eq]
  exact toInt?_signed (List.append_ne_nil_of_left_ne_nil h.nonempty _) h.digits h.spells

theorem length_dropWhile_write (m : Int) (scale : Nat) :
    ((write m scale).dropWhile (· ≠ '.')).length = if scale = 0 then 0 else scale + 1 := by
  rcases exists_parts m scale with ⟨whole, fraction, htext, h⟩
  rw [htext, h.dropWhile_eq, h.length_tail]

/-- A text tells its mantissa and its scale. -/
theorem write_inj {m m' : Int} {scale scale' : Nat} (h : write m scale = write m' scale') :
    m = m' ∧ scale = scale' := by
  constructor
  · have hread := toInt?_write m scale
    rw [h, toInt?_write] at hread
    exact (Option.some.inj hread).symm
  · -- a scale of zero shows by the want of a point
    have hlength := length_dropWhile_write m scale
    rw [h, length_dropWhile_write] at hlength
    split at hlength <;> split at hlength <;> omega

end Fixed

/-! ## Decimals -/

namespace Datum

theorem display?_decimal {s : UInt8} (m : Int) (hle : s.toNat ≤ Fixed.maxScale) :
    (decimal m s).display? = some (String.ofList (Fixed.write m s.toNat)) := by
  rw [display?, Fixed.write?_of_le m hle, Option.map_some]

/-- A decimal has a text as long as the power of ten of its scale fits.  The text has a sign if and
only if the mantissa is negative, no zero in front of the point but one that stands by itself, and
behind the point as many digits as the scale tells.  Without its point it reads as the mantissa, so
two decimals of one text are the same. -/
theorem decimal_text_exact (m : Int) (s : UInt8) :
    ((decimal m s).display? = none ↔ 39 ≤ s.toNat) ∧
    (s.toNat ≤ 38 → ∃ text whole fraction, (decimal m s).display? = some text ∧
      text.toList = (if m < 0 then ['-'] else []) ++ whole ++
        (if s = 0 then [] else '.' :: fraction) ∧
      whole ≠ [] ∧ (∀ c ∈ whole ++ fraction, c.isDigit = true) ∧
      (whole.head? = some '0' → whole = ['0']) ∧ fraction.length = s.toNat ∧
      (String.ofList (text.toList.filter (· ≠ '.'))).toInt? = some m) ∧
    ∀ (m' : Int) (s' : UInt8), s.toNat ≤ 38 → s'.toNat ≤ 38 →
      (decimal m s).display? = (decimal m' s').display? → m = m' ∧ s = s' := by
  refine ⟨?_, ?_, ?_⟩
  · rw [display?, Option.map_eq_none_iff, Fixed.write?_eq_none, ← Nat.not_lt,
      ← Fixed.le_maxScale_iff]
    exact Nat.not_le
  · intro hle
    rcases Fixed.exists_parts m s.toNat with ⟨whole, fraction, htext, h⟩
    refine ⟨_, whole, fraction, display?_decimal m hle, ?_, h.nonempty, h.digits, h.leading,
      h.places, ?_⟩
    · have hzero : s.toNat = 0 ↔ s = 0 := ⟨fun h => UInt8.toNat.inj h, fun h => h ▸ rfl⟩
      simp only [String.toList_ofList, htext, Fixed.sign, Fixed.tail, hzero]
    · rw [String.toList_ofList]
      exact Fixed.toInt?_write m s.toNat
  · intro m' s' hle hle' hsame
    rw [display?_decimal m hle, display?_decimal m' hle', Option.some.injEq] at hsame
    rcases Fixed.write_inj (String.ofList_injective hsame) with ⟨hm, hs⟩
    exact ⟨hm, UInt8.toNat.inj hs⟩

/-- The least mantissa of 128 bits, with all places that there are. -/
example : (decimal (-170141183460469231731687303715884105728) 38).display? =
    some "-1.70141183460469231731687303715884105728" := by
  decide +kernel

end Datum

end ScatterGather
