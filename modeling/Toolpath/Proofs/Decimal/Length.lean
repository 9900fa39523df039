import Mathlib
import Toolpath.Proofs.Decimal.Written

/-! # How long a written number is

A short numeral has at most eight significant digits and a magnitude below `10 ^ 8`. What is read
from it is written with up to eight places in no more characters than the numeral has. If the
places hold all its digits, the value itself is written, and that in the shortest way. If they do
not, the digits that are cut off make room for the one digit that rounding may carry into.
-/

namespace Toolpath

/-- Digits without the zeros in front of them and after them. -/
def significant (digits : List Char) : List Char :=
  (digits.dropWhile (· = '0')).rdropWhile (· = '0')

theorem significant_subset (digits : List Char) : significant digits ⊆ digits := by
  intro c member
  exact (List.dropWhile_sublist _).subset ((List.rdropWhile_prefix _ _).subset member)

/-- Digits spell their significant ones with zeros after them. -/
theorem exists_ofDigitChars_eq (digits : List Char) :
    ∃ zeros, Nat.ofDigitChars 10 digits 0 =
      Nat.ofDigitChars 10 (significant digits) 0 * 10 ^ zeros := by
  have front : ∀ c ∈ digits.takeWhile (· = '0'), c = '0' := by
    intro c member
    simpa using List.mem_takeWhile_imp member
  have back : ∀ c ∈ (digits.dropWhile (· = '0')).rtakeWhile (· = '0'), c = '0' := by
    intro c member
    simpa using List.mem_rtakeWhile_imp member
  refine ⟨((digits.dropWhile (· = '0')).rtakeWhile (· = '0')).length, ?_⟩
  conv_lhs =>
    rw [← List.takeWhile_append_dropWhile (p := (· = '0')) (l := digits),
      ← List.rdropWhile_append_rtakeWhile (p := (· = '0')) (l := digits.dropWhile (· = '0'))]
  rw [List.eq_replicate_of_mem front, List.eq_replicate_of_mem back, Nat.ofDigitChars_append,
    Nat.ofDigitChars_append, Nat.ofDigitChars_replicate_zero, Nat.ofDigitChars_replicate_zero,
    Nat.mul_zero, Nat.mul_comm, List.length_replicate]
  rfl

namespace PlainNumeral

/-- A numeral of few significant digits and no large magnitude. -/
structure Short (numeral : PlainNumeral) : Prop where
  digits : (significant (numeral.whole ++ numeral.decimals)).length ≤ 8
  below : |numeral.value| < 10 ^ 8

/-- A text spells a numeral as it is, or with a plus where it has no minus. -/
def Spells (numeral : PlainNumeral) (text : List Char) : Prop :=
  text = numeral.chars ∨ numeral.negative = false ∧ text = '+' :: numeral.body

variable {numeral : PlainNumeral}

/-- A short numeral denotes a small count of the last place that it needs. -/
theorem Short.exists_count (short : numeral.Short) :
    ∃ count places, count < 10 ^ 8 ∧ places ≤ numeral.decimals.length ∧
      numeral.count = count * 10 ^ (numeral.decimals.length - places) := by
  obtain ⟨zeros, spelt⟩ := exists_ofDigitChars_eq (numeral.whole ++ numeral.decimals)
  change numeral.count = _ at spelt
  have few : Nat.ofDigitChars 10 (significant (numeral.whole ++ numeral.decimals)) 0 < 10 ^ 8 := by
    refine Nat.lt_of_lt_of_le (ofDigitChars_lt ?_) (Nat.pow_le_pow_right (by decide) short.digits)
    intro c member
    exact numeral.digit c (significant_subset _ member)
  generalize Nat.ofDigitChars 10 (significant (numeral.whole ++ numeral.decimals)) 0 = count at *
  rcases Nat.le_total numeral.decimals.length zeros with whole | broken
  · -- The zeros fill all places, so the value is a whole number.
    have split : 10 ^ zeros =
        10 ^ (zeros - numeral.decimals.length) * 10 ^ numeral.decimals.length := by
      rw [← Nat.pow_add, Nat.sub_add_cancel whole]
    rw [split, ← Nat.mul_assoc] at spelt
    refine ⟨_, 0, ?_, Nat.zero_le _, spelt⟩
    have below := short.below
    rw [abs_value, spelt] at below
    push_cast at below
    rw [mul_div_cancel_right₀ _ (by positivity)] at below
    exact_mod_cast below
  · refine ⟨count, numeral.decimals.length - zeros, few, Nat.sub_le .., ?_⟩
    rw [spelt, Nat.sub_sub_self broken]

theorem pow_whole_lt (numeral : PlainNumeral) : 10 ^ min numeral.whole.length 8 < 2 ^ 53 :=
  Nat.lt_of_le_of_lt (Nat.pow_le_pow_right (by decide) (Nat.min_le_right _ 8)) (by decide)

/-- No more whole digits than a short numeral has, nor more than eight, are in its value. -/
theorem Short.count_le (short : numeral.Short) :
    numeral.count ≤ 10 ^ min numeral.whole.length 8 * 10 ^ numeral.decimals.length := by
  rcases Nat.le_total numeral.whole.length 8 with few | many
  · have below := ofDigitChars_lt numeral.digit
    change numeral.count < 10 ^ (numeral.whole ++ numeral.decimals).length at below
    rw [List.length_append, Nat.pow_add] at below
    rw [Nat.min_eq_left few]
    exact below.le
  · have below := short.below
    rw [abs_value, div_lt_iff₀ (by positivity)] at below
    rw [Nat.min_eq_right many]
    exact_mod_cast below.le

end PlainNumeral

namespace Exact

/-- Whole numbers that the significand of a float can hold are floats. -/
theorem onGrid_whole {count : Nat} (narrow : count < 2 ^ 53) : OnGrid (count * unitsPerOne) := by
  rw [unitsPerOne_eq]
  exact onGrid_of_significand narrow (by decide)

/-- The nearest units lie below every float that the quotient lies below. -/
theorem nearestUnits_le {num den units : Nat} (positive : 0 < den) (grid : OnGrid units)
    (above : num * unitsPerOne ≤ units * den) : nearestUnits num den ≤ units := by
  have nearer := @gap_nearestUnits_le num den positive units grid.1
  simp only [gap] at nearer
  exact Nat.le_of_mul_le_mul_right (by omega) positive

/-- A whole number that is a float is nearest to itself. -/
theorem nearestUnits_whole {count : Nat} (narrow : count < 2 ^ 53) :
    nearestUnits count 1 = count * unitsPerOne := by
  have nearer := @gap_nearestUnits_le count 1 Nat.one_pos _ (onGrid_whole narrow).1
  simp only [gap, Nat.mul_one] at nearer
  omega

end Exact

/-- What is read from a short numeral lies below the power of ten after its whole digits. -/
theorem PlainNumeral.Short.nearestUnits_le {numeral : PlainNumeral} (short : numeral.Short) :
    Exact.nearestUnits numeral.count (tenTo numeral.decimals.length) ≤
      10 ^ min numeral.whole.length 8 * Exact.unitsPerOne := by
  apply Exact.nearestUnits_le (Fixed.tenTo_pos _) (Exact.onGrid_whole numeral.pow_whole_lt)
  rw [Nat.mul_right_comm]
  exact Nat.mul_le_mul_right _ short.count_le

namespace Fixed

open Exact

theorem scaled_le {units bound places : Nat} (below : units ≤ bound * unitsPerOne) :
    scaled units places ≤ bound * 10 ^ places := by
  obtain ⟨near, -⟩ := roundsTo_roundHalfEven unitsPerOne_pos (units * tenTo places)
  change 2 * gap (scaled units places * unitsPerOne) _ ≤ unitsPerOne at near
  have top : units * tenTo places ≤ bound * 10 ^ places * unitsPerOne := by
    rw [Nat.mul_right_comm]
    exact Nat.mul_le_mul_right _ below
  by_contra above
  have more := Nat.mul_le_mul_right unitsPerOne (Nat.lt_of_not_le above)
  have positive := unitsPerOne_pos
  rw [Nat.succ_mul] at more
  simp only [gap] at near
  omega

theorem tenTo_mul_pow {fewer places : Nat} (held : fewer ≤ places) :
    tenTo fewer * 10 ^ (places - fewer) = tenTo places := by
  rw [tenTo, tenTo, Nat.pow_eq, Nat.pow_eq, ← Nat.pow_add, Nat.add_sub_cancel' held]

/-- The float nearest to a small count of some place is closer to it than half of the last place. -/
private theorem two_mul_gap_lt {count fewer places : Nat} (small : count < 10 ^ 8)
    (held : fewer ≤ places) (few : places ≤ 8) :
    2 * gap (nearestUnits count (tenTo fewer) * tenTo fewer) (count * unitsPerOne) *
      10 ^ (places - fewer) < unitsPerOne := by
  have positive := unitsPerOne_pos
  rcases Nat.eq_zero_or_pos fewer with rfl | some
  · rw [show tenTo 0 = 1 from rfl, nearestUnits_whole (small.trans (by decide))]
    simpa [gap] using positive
  · rcases @two_mul_gap_nearestUnits_le count _ (tenTo_pos fewer) with unit | bit
    · have spread := Nat.mul_le_mul_right (10 ^ (places - fewer)) unit
      have most : 10 ^ places ≤ 10 ^ 8 := Nat.pow_le_pow_right (by decide) few
      have large : 10 ^ 8 < unitsPerOne := by decide +kernel
      rw [tenTo_mul_pow held] at spread
      change _ ≤ 10 ^ places at spread
      omega
    · -- With a place after the point the count is below a tenth of what eight digits can count.
      have most : 10 ^ (places - fewer) ≤ 10 ^ 7 := Nat.pow_le_pow_right (by decide) (by omega)
      have units : count * unitsPerOne ≤ 10 ^ 8 * unitsPerOne := Nat.mul_le_mul_right _ small.le
      generalize gap (nearestUnits count (tenTo fewer) * tenTo fewer) _ = off at *
      have spread := Nat.mul_le_mul_left (2 * off) most
      omega

/-- A small count of a place that is written is written as it is. -/
theorem scaled_nearestUnits_of_held {count fewer places : Nat} (small : count < 10 ^ 8)
    (held : fewer ≤ places) (few : places ≤ 8) :
    scaled (nearestUnits count (tenTo fewer)) places = count * 10 ^ (places - fewer) := by
  have close := two_mul_gap_lt small held few
  have distance : gap (count * 10 ^ (places - fewer) * unitsPerOne)
        (nearestUnits count (tenTo fewer) * tenTo places) =
      gap (nearestUnits count (tenTo fewer) * tenTo fewer) (count * unitsPerOne) *
        10 ^ (places - fewer) := by
    rw [← tenTo_mul_pow held, ← Nat.mul_assoc, Nat.mul_right_comm, gap_mul_right, gap_comm]
  apply (roundHalfEven_eq_iff unitsPerOne_pos _ _).mpr
  rw [RoundsTo, distance, ← Nat.mul_assoc]
  exact ⟨close.le, fun tie => absurd tie close.ne⟩

/-- Up to a power of ten, a count with no zero in its last place takes at most one whole digit more
than the power has zeros. -/
theorem length_plain_le {count places digits : Nat} (below : count ≤ 10 ^ digits * 10 ^ places)
    (ending : places = 0 ∨ count % 10 ≠ 0) : (plain count places).length ≤ digits + 1 + places := by
  rw [plain]
  split_ifs with none
  · subst none
    rw [Nat.add_zero, Nat.length_toDigits_le_iff (by decide) (by omega), Nat.pow_succ]
    have := Nat.pow_pos (a := 10) (n := digits) (by decide)
    omega
  · -- A power of ten would end in a zero, so the count is below it.
    have different : count ≠ 10 ^ digits * 10 ^ places := by
      rintro rfl
      apply ending.resolve_left none
      rw [← Nat.succ_pred_eq_of_ne_zero none, Nat.pow_succ, ← Nat.mul_assoc, Nat.mul_mod_left]
    have small : count / tenTo places < 10 ^ digits :=
      (Nat.div_lt_iff_lt_mul (tenTo_pos places)).mpr (Nat.lt_of_le_of_ne below different)
    have fraction : (Nat.toDigits 10 (count % tenTo places)).length ≤ places :=
      (Nat.length_toDigits_le_iff (by decide) (Nat.pos_of_ne_zero none)).mpr
        (Nat.mod_lt _ (tenTo_pos places))
    have whole : (if count / tenTo places = 0 then []
        else Nat.toDigits 10 (count / tenTo places)).length ≤ digits := by
      split_ifs with zero
      · exact Nat.zero_le _
      · have some : digits ≠ 0 := by
          rintro rfl
          exact zero (Nat.lt_one_iff.mp small)
        exact (Nat.length_toDigits_le_iff (by decide) (Nat.pos_of_ne_zero some)).mpr small
    simp only [List.length_append, List.length_cons, List.length_leftpad]
    omega

/-- Dropping trailing zeros with their places keeps a bound in whole numbers. -/
theorem trimZeros_fst_le {count places bound : Nat} (below : count ≤ bound * 10 ^ places) :
    (trimZeros count places).1 ≤ bound * 10 ^ (trimZeros count places).2 := by
  have same := trimZeros_div count places
  have value : (count / 10 ^ places : ℚ) ≤ bound := by
    rw [div_le_iff₀ (by positivity)]
    exact_mod_cast below
  rw [← same, div_le_iff₀ (by positivity)] at value
  exact_mod_cast value

variable {numeral : PlainNumeral}

/-- Where the places hold a short numeral, its value is written. -/
theorem value_written_of_held {count fewer places : Nat} (small : count < 10 ^ 8)
    (within : fewer ≤ numeral.decimals.length)
    (spelt : numeral.count = count * 10 ^ (numeral.decimals.length - fewer))
    (held : fewer ≤ places) (few : places ≤ 8) :
    (written numeral.negative (nearestUnits count (tenTo fewer)) places).value = numeral.value := by
  rw [value_written_eq, Nat.min_eq_left (few.trans (by decide)),
    scaled_nearestUnits_of_held small held few, PlainNumeral.value, spelt]
  congr 1
  push_cast
  rw [div_eq_div_iff (by positivity) (by positivity), mul_assoc, mul_assoc, ← pow_add, ← pow_add]
  congr 2
  omega

/-- Where the places do not hold a numeral, some digit after its point is cut off, and a carry into
one more whole digit takes no more room than that. -/
theorem length_written_le_of_cut {units places bound : Nat}
    (below : units ≤ 10 ^ bound * unitsPerOne) (digits : bound ≤ numeral.whole.length)
    (cut : places < numeral.decimals.length) :
    (written numeral.negative units places).chars.length ≤ numeral.chars.length := by
  have body : (written numeral.negative units places).body.length ≤ bound + 1 + places := by
    have kept : (trimZeros (scaled units (min places filledPlaces)) (min places filledPlaces)).2 ≤
        places := (trimZeros_snd_le ..).trans (Nat.min_le_left ..)
    have short := length_plain_le (trimZeros_fst_le (scaled_le below))
      (trimZeros_ending (scaled units (min places filledPlaces)) (min places filledPlaces))
    rw [written, body_numeral]
    exact short.trans (Nat.add_le_add_left kept _)
  have sign : (written numeral.negative units places).negative.toNat ≤ numeral.negative.toNat := by
    cases minus : numeral.negative with
    | false => exact Nat.le_refl 0
    | true => exact Bool.toNat_le _
  rw [PlainNumeral.length_chars, PlainNumeral.length_chars, numeral.length_body]
  cases shape : numeral.fraction with
  | none =>
    rw [PlainNumeral.decimals, shape] at cut
    contradiction
  | some fraction =>
    rw [PlainNumeral.decimals, shape, Option.getD_some] at cut
    rw [Option.elim_some]
    omega

/-- What is read from a short numeral is written in no more characters than the numeral has. -/
theorem length_written_le (short : numeral.Short) {places : Nat} (few : places ≤ 8) :
    (written numeral.negative
        (nearestUnits numeral.count (tenTo numeral.decimals.length)) places).chars.length ≤
      numeral.chars.length := by
  obtain ⟨count, fewer, small, within, spelt⟩ := short.exists_count
  rcases Nat.lt_or_ge places fewer with cut | held
  · apply length_written_le_of_cut short.nearestUnits_le (Nat.min_le_left _ 8)
    exact Nat.lt_of_lt_of_le cut within
  · have units : nearestUnits numeral.count (tenTo numeral.decimals.length) =
        nearestUnits count (tenTo fewer) := by
      rw [spelt, ← tenTo_mul_pow within,
        nearestUnits_mul_right (tenTo_pos fewer) (Nat.pow_pos (by decide : 0 < 10))]
    rw [units]
    exact (trim_written ..).length_le (value_written_of_held small within spelt held few).symm

/-- A number that was read from a short numeral is written with up to eight places in no more
characters than it was read from. -/
theorem length_chars_le {text : List Char} (spells : numeral.Spells text) (short : numeral.Short)
    {value : Float} (read : Numeral.read? text = some value) {places : Nat} (few : places ≤ 8) :
    (chars places value).length ≤ text.length := by
  have content : Numeral.content? text = some
      (Exact.nearest numeral.negative numeral.count (tenTo numeral.decimals.length)) := by
    rcases spells with rfl | ⟨positive, rfl⟩
    · exact numeral.content?_chars
    · apply numeral.content?_body
      rw [positive]
      rfl
  have room : numeral.chars.length ≤ text.length := by
    rcases spells with rfl | ⟨positive, rfl⟩
    · exact Nat.le_refl _
    · rw [PlainNumeral.length_chars, positive]
      simp
  have grid : OnGrid (nearestUnits numeral.count (tenTo numeral.decimals.length)) := by
    refine ⟨dvd_nearestUnits (tenTo_pos _), ?_⟩
    exact Nat.lt_of_le_of_lt short.nearestUnits_le (onGrid_whole numeral.pow_whole_lt).2
  rw [Numeral.read?, content, Option.map_some, Exact.nearest, if_pos grid.2] at read
  rw [chars, ← Option.some.inj read, ofFloat_toFloat_finite grid]
  simp only [← chars_written]
  exact (length_written_le short few).trans room

end Fixed

end Toolpath
