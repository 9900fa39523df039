import Mathlib
import Toolpath.Proofs.Decimal.Reading

/-! # What a written number denotes

A finite float stands for a rational number, and so does the numeral that it is written as: the
same number, rounded half to even to the places asked for. The numeral is trim, so no plain numeral
of that value is shorter. Any float, finite or not, is read back as one that is written the same.
-/

namespace Toolpath

/-- A rational number rounded to the nearest integer, a half going to the even one. -/
def halfEven (q : ℚ) : ℤ :=
  let low := ⌊q⌋
  if q - low < 1 / 2 then low
  else if 1 / 2 < q - low then low + 1
  else low + low % 2

/-- A rational number rounded half to even to a number of decimal places. -/
def roundedTo (places : Nat) (q : ℚ) : ℚ := halfEven (q * 10 ^ places) / 10 ^ places

/-- The rational number that the bits of a finite float stand for: a sign, and a significand times a
power of two, with a hidden one before the fraction unless the exponent bits are zero. -/
def Exact.rational (value : Float) : ℚ :=
  let bits : Nat := value.toBits.toNat
  let exponent : Nat := bits / 2 ^ 52 % 2048
  let fraction : Nat := bits % 2 ^ 52
  (-1) ^ (bits / 2 ^ 63) *
    if exponent = 0 then (fraction : ℚ) / 2 ^ 52 * 2 ^ (-1022 : ℤ)
    else (1 + (fraction : ℚ) / 2 ^ 52) * 2 ^ ((exponent : ℤ) - 1023)

section Rounding

theorem halfEven_spec (q : ℚ) :
    |q - halfEven q| ≤ 1 / 2 ∧ (|q - halfEven q| = 1 / 2 → halfEven q % 2 = 0) := by
  have low := Int.floor_le q
  have high := Int.lt_floor_add_one q
  simp only [halfEven]
  split_ifs with less more
  · rw [abs_of_nonneg (by linarith)]
    exact ⟨less.le, fun tie => absurd tie less.ne⟩
  · push_cast
    rw [abs_of_nonpos (by linarith)]
    exact ⟨by linarith, fun tie => by linarith⟩
  · have half : q - ⌊q⌋ = 1 / 2 := le_antisymm (not_lt.mp more) (not_lt.mp less)
    rcases Int.emod_two_eq_zero_or_one ⌊q⌋ with even | odd
    · rw [even, add_zero, half]
      exact ⟨by norm_num, fun _ => even⟩
    · rw [odd]
      push_cast
      rw [show q - (⌊q⌋ + 1) = -(1 / 2) by linarith]
      exact ⟨by norm_num, fun _ => by omega⟩

/-- There is one nearest integer that is even in a tie. -/
theorem halfEven_eq {q : ℚ} {count : ℤ} (near : |q - count| ≤ 1 / 2)
    (tie : |q - count| = 1 / 2 → count % 2 = 0) : halfEven q = count := by
  obtain ⟨nearest, even⟩ := halfEven_spec q
  generalize halfEven q = other at *
  by_contra different
  have apart : (1 : ℚ) ≤ |(other : ℚ) - count| := by
    exact_mod_cast Int.one_le_abs (sub_ne_zero.mpr different)
  have triangle := abs_sub_le (other : ℚ) q count
  rw [abs_sub_comm (other : ℚ) q] at triangle
  have first := even (by linarith)
  have second := tie (by linarith)
  have one : |(other : ℚ) - count| = 1 := by linarith
  have neighbours : |other - count| = 1 := by exact_mod_cast one
  rcases (abs_eq (by decide)).mp neighbours with above | below
  · omega
  · omega

theorem halfEven_intCast (count : ℤ) : halfEven count = count := by
  apply halfEven_eq
  · norm_num
  · norm_num

theorem halfEven_neg (q : ℚ) : halfEven (-q) = -halfEven q := by
  obtain ⟨near, tie⟩ := halfEven_spec q
  have mirrored : |-q - (-halfEven q : ℤ)| = |q - halfEven q| := by
    push_cast
    rw [← abs_neg, neg_sub_neg, neg_sub, abs_sub_comm, abs_sub_comm]
  apply halfEven_eq
  · rwa [mirrored]
  · intro half
    rw [mirrored] at half
    have := tie half
    omega

theorem halfEven_natCast_div {den : Nat} (positive : 0 < den) (num : Nat) :
    halfEven (num / den) = roundHalfEven num den := by
  obtain ⟨near, tie⟩ := roundsTo_roundHalfEven positive num
  generalize roundHalfEven num den = count at *
  have distance : |(num / den : ℚ) - (count : ℤ)| = gap (count * den) num / den := by
    have den' : (0 : ℚ) < den := Nat.cast_pos.mpr positive
    have gaps : (gap (count * den) num : ℚ) = |(num : ℚ) - count * den| := by
      rw [gap]
      rcases Nat.le_total num (count * den) with below | above
      · have signed : (num : ℚ) - count * den ≤ 0 := by
          rw [sub_nonpos]
          exact_mod_cast below
        rw [Nat.sub_eq_zero_of_le below, Nat.add_zero, Nat.cast_sub below, abs_of_nonpos signed]
        push_cast
        ring
      · have signed : 0 ≤ (num : ℚ) - count * den := by
          rw [sub_nonneg]
          exact_mod_cast above
        rw [Nat.sub_eq_zero_of_le above, Nat.zero_add, Nat.cast_sub above, abs_of_nonneg signed]
        push_cast
        rfl
    rw [gaps, ← abs_of_pos den', ← abs_div, abs_of_pos den', sub_div,
      mul_div_cancel_right₀ _ den'.ne']
    rfl
  have den' : (0 : ℚ) < den := Nat.cast_pos.mpr positive
  apply halfEven_eq
  · rw [distance, div_le_iff₀ den']
    have : (2 * gap (count * den) num : ℚ) ≤ den := by exact_mod_cast near
    linarith
  · rw [distance, div_eq_iff den'.ne']
    intro half
    have : 2 * gap (count * den) num = den := by
      have : (2 * gap (count * den) num : ℚ) = den := by linarith
      exact_mod_cast this
    have := tie this
    omega

theorem roundedTo_neg (places : Nat) (q : ℚ) : roundedTo places (-q) = -roundedTo places q := by
  rw [roundedTo, roundedTo, neg_mul, halfEven_neg, Int.cast_neg, neg_div]

/-- A number that ends after some places is not changed by rounding to as many or more. -/
theorem roundedTo_of_ends {q : ℚ} {fewer places : Nat} {count : ℤ} (ends : q * 10 ^ fewer = count)
    (more : fewer ≤ places) : roundedTo places q = q := by
  have whole : q * 10 ^ places = (count * 10 ^ (places - fewer) : ℤ) := by
    push_cast
    rw [← ends, mul_assoc, ← pow_add, Nat.add_sub_cancel' more]
  rw [roundedTo, whole, halfEven_intCast, ← whole, mul_div_cancel_right₀ _ (by positivity)]

end Rounding

namespace Exact

/-- The content of a finite float is the number that its bits stand for. -/
theorem rational_of_ofFloat {value : Float} {negative : Bool} {units : Nat}
    (content : ofFloat value = finite negative units) :
    rational value = (if negative then -1 else 1) * (units / 2 ^ 1074) := by
  have bound : value.toBits.toNat < 2 ^ 64 := value.toBits.toBitVec.isLt
  have sign : (-1 : ℚ) ^ (value.toBits.toNat / 2 ^ 63) =
      if decide (2 ^ 63 ≤ value.toBits.toNat) then -1 else 1 := by
    rcases Nat.lt_or_ge value.toBits.toNat (2 ^ 63) with low | high
    · rw [Nat.div_eq_of_lt low, if_neg (by simpa using low), pow_zero]
    · rw [show value.toBits.toNat / 2 ^ 63 = 1 by omega, if_pos (by simpa using high), pow_one]
  simp only [ofFloat, exponentBit_eq, signBit_eq] at content
  simp only [rational, sign]
  generalize value.toBits.toNat % 2 ^ 52 = fraction at *
  generalize value.toBits.toNat / 2 ^ 52 % 2048 = exponent at *
  split_ifs at content with full void low
  · obtain ⟨rfl, rfl⟩ := Exact.finite.inj content
    have least : (2 : ℚ) ^ (-1022 : ℤ) = 2 ^ 52 / 2 ^ 1074 := by
      rw [eq_div_iff (by positivity), ← zpow_natCast, ← zpow_natCast, ← zpow_add₀ two_ne_zero]
      rfl
    rw [if_pos low, least, div_mul_div_cancel₀ (by positivity)]
  · obtain ⟨rfl, rfl⟩ := Exact.finite.inj content
    have power : (2 : ℚ) ^ ((exponent : ℤ) - 1023) = 2 ^ (exponent - 1) * 2 ^ 52 / 2 ^ 1074 := by
      rw [eq_div_iff (by positivity), ← zpow_natCast, ← zpow_natCast, ← zpow_natCast,
        ← zpow_add₀ two_ne_zero, ← zpow_add₀ two_ne_zero]
      congr 1
      omega
    rw [if_neg low, Nat.shiftLeft_eq, power]
    generalize (2 : ℚ) ^ 1074 = one
    push_cast
    congr 1
    field_simp
    norm_num

/-- A finite float ends after as many decimal places as a unit does. -/
theorem rational_mul_filledPlaces {value : Float} {negative : Bool} {units : Nat}
    (content : ofFloat value = finite negative units) :
    ∃ count : ℤ, rational value * 10 ^ Fixed.filledPlaces = count := by
  refine ⟨(if negative then -1 else 1) * (units * 5 ^ 1074), ?_⟩
  have positive : (0 : ℚ) < 2 ^ 1074 := by positivity
  rw [rational_of_ofFloat content, Fixed.filledPlaces, show (10 : ℚ) = 2 * 5 by norm_num, mul_pow]
  generalize (2 : ℚ) ^ 1074 = one at positive ⊢
  push_cast
  generalize (5 : ℚ) ^ 1074 = rest
  split_ifs <;> field_simp

end Exact

namespace Fixed

open Exact

/-- Either no place is left, or the last one is no zero. -/
theorem trimZeros_ending (count places : Nat) :
    (trimZeros count places).2 = 0 ∨ (trimZeros count places).1 % 10 ≠ 0 := by
  induction places generalizing count with
  | zero => exact .inl rfl
  | succ places ih =>
    rw [trimZeros]
    split_ifs with trailing
    · exact ih (count / 10)
    · exact .inr trailing

theorem trimZeros_snd_le (count places : Nat) : (trimZeros count places).2 ≤ places := by
  induction places generalizing count with
  | zero => exact Nat.le_refl _
  | succ places ih =>
    rw [trimZeros]
    split_ifs
    · exact Nat.le_succ_of_le (ih (count / 10))
    · exact Nat.le_refl _

/-- Dropping trailing zeros with their places keeps the value. -/
theorem trimZeros_div (count places : Nat) :
    ((trimZeros count places).1 / 10 ^ (trimZeros count places).2 : ℚ) = count / 10 ^ places := by
  induction places generalizing count with
  | zero => rfl
  | succ places ih =>
    rw [trimZeros]
    split_ifs with trailing
    · rw [ih, Nat.cast_div (Nat.dvd_of_mod_eq_zero trailing) (by norm_num), pow_succ, div_div,
        mul_comm]
      rfl
    · rfl

/-- A numeral is trim if it has no minus before zero and no zero in its last place. -/
theorem trim_numeral {negative : Bool} {count places : Nat} (minus : negative = true → count ≠ 0)
    (ending : places = 0 ∨ count % 10 ≠ 0) : (numeral negative count places).Trim := by
  have length := length_decimals_numeral negative count places
  have value := count_numeral negative count places
  refine ⟨?_, ?_, ?_, ?_⟩
  · rw [value]
    exact minus
  · intro empty
    have none : places = 0 := by rw [← length, PlainNumeral.decimals, empty]; rfl
    simp [numeral, none] at empty
  · intro last
    rcases ending with none | digit
    · rw [List.length_eq_zero_iff.mp (length.trans none)] at last
      contradiction
    · apply digit
      have nonempty : (numeral negative count places).decimals ≠ [] := by
        intro empty
        rw [empty] at last
        contradiction
      rw [← value]
      exact (PlainNumeral.count_mod_ten nonempty).mpr last
  · simp only [numeral]
    intro lead
    split_ifs at lead with none zero
    · rcases Nat.eq_zero_or_pos count with rfl | positive
      · simp [none]
      · exact absurd lead (head?_toDigits positive)
    · contradiction
    · exact absurd lead (head?_toDigits (Nat.pos_of_ne_zero zero))

theorem trim_written (negative : Bool) (units places : Nat) :
    (written negative units places).Trim := by
  apply trim_numeral
  · intro minus
    simpa using (Bool.and_eq_true_iff.mp minus).2
  · exact trimZeros_ending ..

theorem length_decimals_written_le (negative : Bool) (units places : Nat) :
    (written negative units places).decimals.length ≤ places := by
  rw [written, length_decimals_numeral]
  exact (trimZeros_snd_le ..).trans (Nat.min_le_left ..)

/-- A written numeral denotes the count that the units were rounded to. -/
theorem value_written_eq (negative : Bool) (units places : Nat) :
    (written negative units places).value = (if negative then -1 else 1) *
      (scaled units (min places filledPlaces) / 10 ^ min places filledPlaces) := by
  rw [written, PlainNumeral.value, count_numeral, length_decimals_numeral, trimZeros_div]
  simp only [numeral]
  rcases Nat.eq_zero_or_pos (scaled units (min places filledPlaces)) with zero | positive
  · simp [zero]
  · cases negative <;> simp [trimZeros_fst_eq_zero, positive.ne']

/-- A finite float is written as its value, rounded to the places. -/
theorem value_written {value : Float} {negative : Bool} {units : Nat}
    (content : ofFloat value = finite negative units) (places : Nat) :
    (written negative units places).value = roundedTo places (rational value) := by
  -- Places beyond the ones that a unit fills change neither side.
  have fewer : roundedTo places (rational value) =
      roundedTo (min places filledPlaces) (rational value) := by
    obtain ⟨count, ends⟩ := rational_mul_filledPlaces content
    rcases Nat.le_total places filledPlaces with less | more
    · rw [Nat.min_eq_left less]
    · rw [Nat.min_eq_right more, roundedTo_of_ends ends more,
        roundedTo_of_ends ends (Nat.le_refl _)]
  have magnitude (rounded : Nat) :
      roundedTo rounded (units / 2 ^ 1074) = scaled units rounded / 10 ^ rounded := by
    have quotient : (units / 2 ^ 1074 : ℚ) * 10 ^ rounded =
        ((units * tenTo rounded : Nat) : ℚ) / (unitsPerOne : Nat) := by
      rw [unitsPerOne_eq, show tenTo rounded = 10 ^ rounded from rfl]
      push_cast
      rw [div_mul_eq_mul_div]
    rw [roundedTo, quotient, halfEven_natCast_div unitsPerOne_pos]
    rfl
  rw [fewer, rational_of_ofFloat content, value_written_eq]
  cases negative with
  | false => simp [magnitude]
  | true => simp only [if_true, neg_one_mul, roundedTo_neg, magnitude]

/-- A finite float is written as its value, rounded half to even to the places, in a trim numeral
with no more places than that. A proper fraction has no digit before its point, zero has no minus,
and no plain numeral of that value is shorter. -/
theorem text_exact_and_shortest {value : Float} (finite : value.isFinite = true) {places : Nat}
    (within : places ≤ maxPlaces) :
    ∃ (text : String) (numeral : PlainNumeral),
      text? places value = some text ∧ text.toList = numeral.chars ∧
      numeral.value = roundedTo places (rational value) ∧
      numeral.decimals.length ≤ places ∧ numeral.Trim ∧
      (numeral.value ≠ 0 → |numeral.value| < 1 → numeral.whole = []) ∧
      text ≠ "" ∧ text ≠ "-0" ∧
      ∀ other : PlainNumeral, other.value = numeral.value → text.length ≤ other.chars.length := by
  obtain ⟨negative, units, content⟩ := isFinite_iff.mp finite
  have trim := trim_written negative units places
  have chars : (text places value).toList = (written negative units places).chars := by
    rw [text, String.toList_ofList, Fixed.chars, content, chars_written]
  refine ⟨text places value, written negative units places, if_pos within, chars,
    value_written content places, length_decimals_written_le .., trim, trim.whole_eq_nil, ?_, ?_,
    ?_⟩
  · intro empty
    rw [empty] at chars
    exact PlainNumeral.chars_ne_nil chars.symm
  · intro minus
    rw [minus] at chars
    exact trim.chars_ne_minus_zero chars.symm
  · intro other same
    rw [← String.length_toList, chars]
    exact trim.length_le same

/-- A negative tie that goes to the even neighbour and keeps no zero before its point. -/
theorem text_exact_and_shortest_negative_tie :
    let value : Float := -0.03125
    value.isFinite = true ∧ 4 ≤ maxPlaces ∧ text? 4 value = some "-.0312" ∧
      ∃ (text : String) (numeral : PlainNumeral),
        text? 4 value = some text ∧ text.toList = numeral.chars ∧
        numeral.value = roundedTo 4 (rational value) ∧
        numeral.decimals.length ≤ 4 ∧ numeral.Trim ∧
        (numeral.value ≠ 0 → |numeral.value| < 1 → numeral.whole = []) ∧
        text ≠ "" ∧ text ≠ "-0" ∧
        ∀ other : PlainNumeral, other.value = numeral.value → text.length ≤ other.chars.length := by
  intro value
  have finite : value.isFinite = true := by decide +kernel
  have within : 4 ≤ maxPlaces := by decide
  exact ⟨finite, within, by decide +kernel, text_exact_and_shortest finite within⟩

/-- Any number can be written and what is written can be read, and the number that is read is
written as the same text. -/
theorem text_stable_when_reread (value : Float) {places : Nat} (within : places ≤ maxPlaces) :
    ∃ (text : String) (again : Float),
      text? places value = some text ∧ Numeral.read? text.toList = some again ∧
      text? places again = some text := by
  refine ⟨text places value, settled places value, if_pos within, ?_, ?_⟩
  · rw [text, String.toList_ofList]
    exact read?_chars places value
  · rw [text?, if_pos within, text, chars_settled, text]

/-- A number so large that the floats around it are farther apart than the last place. -/
theorem text_stable_when_reread_coarse :
    let value : Float := 123456789012345680000.0
    4 ≤ maxPlaces ∧ text? 4 value = some "123456789012345683968" ∧
      ∃ (text : String) (again : Float),
        text? 4 value = some text ∧ Numeral.read? text.toList = some again ∧
        text? 4 again = some text := by
  intro value
  have within : 4 ≤ maxPlaces := by decide
  exact ⟨within, by decide +kernel, text_stable_when_reread value within⟩

end Fixed

end Toolpath
