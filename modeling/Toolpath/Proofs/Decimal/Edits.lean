import Mathlib
import Toolpath.Proofs.Decimal.Written

/-! # A written number as an edited text

The text of a number can also be found by editing: all places are written out, then the zeros at the
end and a point at the end are dropped, then the zero before the point, and a zero stands in for
what is left of zero. Here that is shown to be the text that the places alone lead to, for every
float and any number of places.
-/

namespace Toolpath

namespace Fixed

/-- A whole number of `10 ^ -places` in decimal, with all its places. -/
def filled (count places : Nat) : List Char :=
  let whole := Nat.toDigits 10 (count / tenTo places)
  if places = 0 then whole
  else whole ++ '.' :: (Nat.toDigits 10 (count % tenTo places)).leftpad places '0'

/-- The characters of a number with exactly `places` decimal places. -/
def filledChars (places : Nat) (value : Float) : List Char :=
  match Exact.ofFloat value with
  | .nan => ['N', 'a', 'N']
  | .infinite negative => if negative then ['-', 'i', 'n', 'f'] else ['i', 'n', 'f']
  | .finite negative units =>
    (if negative then ['-'] else []) ++ filled (scaled units places) places

/-- If there is a point, the text without the zeros at its end, and without a point at the end of
what is left. -/
def dropEnd (text : List Char) : List Char :=
  if '.' ∈ text then (text.rdropWhile (· = '0')).rdropWhile (· = '.') else text

/-- The text without a zero before the point, behind a minus or not. -/
def dropLead : List Char → List Char
  | '0' :: '.' :: fraction => '.' :: fraction
  | '-' :: '0' :: '.' :: fraction => '-' :: '.' :: fraction
  | text => text

def orZero (text : List Char) : List Char := if text = [] ∨ text = ['-', '0'] then ['0'] else text

/-- What is left of a number with all its places. -/
def edited (text : List Char) : List Char := orZero (dropLead (dropEnd text))

section Filled

private theorem tenTo_succ (places : Nat) : tenTo (places + 1) = 10 * tenTo places :=
  Nat.pow_succ'

/-- The decimal places of a count, as many as there are. -/
private def decimals (count places : Nat) : List Char :=
  if places = 0 then [] else (Nat.toDigits 10 (count % tenTo places)).leftpad places '0'

/-- The digits of a count with a point before its places. -/
private def pointed (count places : Nat) : List Char :=
  Nat.toDigits 10 (count / tenTo places) ++ '.' :: decimals count places

private theorem filled_zero (count : Nat) : filled count 0 = Nat.toDigits 10 count := by
  simp [filled, tenTo]

private theorem filled_of_pos {places : Nat} (positive : 0 < places) (count : Nat) :
    filled count places = pointed count places := by
  simp [filled, pointed, decimals, positive.ne']

/-- The last place is the last digit. -/
private theorem decimals_succ (count places : Nat) :
    decimals count (places + 1) = decimals (count / 10) places ++ [(count % 10).digitChar] := by
  have cut : count % tenTo (places + 1) = count % 10 + 10 * (count / 10 % tenTo places) := by
    rw [tenTo_succ, Nat.mod_mul]
  have last : count % 10 < 10 := Nat.mod_lt _ (by decide)
  rw [decimals, if_neg (Nat.succ_ne_zero places), cut]
  cases places with
  | zero => simp [tenTo, decimals, Nat.mod_one, Nat.toDigits_of_lt_base last, List.leftpad]
  | succ places =>
    rw [decimals, if_neg (Nat.succ_ne_zero places)]
    rcases Nat.eq_zero_or_pos (count / 10 % tenTo (places + 1)) with zero | positive
    · simp [zero, Nat.toDigits_of_lt_base last, List.leftpad, List.replicate_succ']
    · rw [Nat.toDigits_of_base_le (by decide) (by omega), Nat.add_mul_mod_self_left,
        Nat.mod_eq_of_lt last, Nat.add_mul_div_left _ _ (by decide), Nat.div_eq_of_lt last,
        Nat.zero_add]
      simp [List.leftpad]

private theorem pointed_succ (count places : Nat) :
    pointed count (places + 1) = pointed (count / 10) places ++ [(count % 10).digitChar] := by
  rw [pointed, pointed, decimals_succ, tenTo_succ, ← Nat.div_div_eq_div_mul, List.append_assoc,
    List.cons_append]

end Filled

/-- Text that ends in a digit does not end in a point. -/
private theorem rdropWhile_point_digits (front : List Char) (count : Nat) :
    (front ++ Nat.toDigits 10 count).rdropWhile (· = '.') = front ++ Nat.toDigits 10 count := by
  rw [List.rdropWhile_eq_self_iff]
  intro nonempty
  rw [List.getLast_append_of_ne_nil _ Nat.toDigits_ne_nil, decide_eq_true_iff]
  intro point
  have digit := toDigits_isDigit count _ (List.getLast_mem Nat.toDigits_ne_nil)
  rw [point] at digit
  contradiction

/-- Dropping the zeros at the end and then the point at the end drops the places that a zero fills. -/
private theorem rdropWhile_pointed (front : List Char) (count places : Nat) :
    ((front ++ pointed count places).rdropWhile (· = '0')).rdropWhile (· = '.') =
      front ++ filled (trimZeros count places).1 (trimZeros count places).2 := by
  induction places generalizing count with
  | zero =>
    rw [pointed, decimals, if_pos rfl, ← List.append_assoc, List.rdropWhile_concat,
      if_neg (by simp), List.rdropWhile_concat, if_pos (by simp), rdropWhile_point_digits, trimZeros,
      filled_zero, tenTo]
    simp
  | succ places ih =>
    rw [pointed_succ, ← List.append_assoc, List.rdropWhile_concat, trimZeros]
    by_cases trailing : count % 10 = 0
    · rw [if_pos (by simp [trailing]), if_pos trailing, ih]
    · have digit : (count % 10).digitChar.isDigit = true := by
        simp [Nat.isDigit_digitChar, Nat.mod_lt]
      have notPoint : (count % 10).digitChar ≠ '.' := by
        intro point
        rw [point] at digit
        contradiction
      rw [if_neg (by simpa [Nat.digitChar_eq_zero] using trailing), List.rdropWhile_concat,
        if_neg (by simp [notPoint]), if_neg trailing, filled_of_pos (Nat.succ_pos places),
        pointed_succ, List.append_assoc]

private theorem point_not_mem_digits (count : Nat) : '.' ∉ Nat.toDigits 10 count := by
  intro point
  exact absurd (toDigits_isDigit count _ point) (by decide)

private theorem dropEnd_filled (negative : Bool) (count places : Nat) :
    dropEnd ((if negative then ['-'] else []) ++ filled count places) =
      (if negative then ['-'] else []) ++
        filled (trimZeros count places).1 (trimZeros count places).2 := by
  cases places with
  | zero =>
    rw [dropEnd, if_neg, trimZeros]
    cases negative <;> simp [filled_zero, point_not_mem_digits]
  | succ places =>
    rw [filled_of_pos (Nat.succ_pos places), dropEnd, if_pos (by simp [pointed]),
      rdropWhile_pointed]

private theorem dropLead_of_not_mem {text : List Char} (bare : '.' ∉ text) :
    dropLead text = text := by
  unfold dropLead
  split
  · simp at bare
  · simp at bare
  · rfl

/-- Dropping the zero before the point leaves the text without it. -/
private theorem dropLead_filled (negative : Bool) (count places : Nat) :
    dropLead ((if negative then ['-'] else []) ++ filled count places) =
      (if negative then ['-'] else []) ++ plain count places := by
  rcases Nat.eq_zero_or_pos places with rfl | positive
  · rw [filled_zero, plain, if_pos rfl]
    apply dropLead_of_not_mem
    cases negative <;> simp [point_not_mem_digits]
  · simp only [filled, plain, if_neg positive.ne']
    rcases Nat.eq_zero_or_pos (count / tenTo places) with zero | large
    · rw [if_pos zero, zero]
      cases negative <;> rfl
    · rw [if_neg large.ne']
      have lead := head?_toDigits large
      have digits := toDigits_isDigit (count / tenTo places)
      cases whole : Nat.toDigits 10 (count / tenTo places) with
      | nil => exact absurd whole Nat.toDigits_ne_nil
      | cons first rest =>
        rw [whole] at lead digits
        have notZero : first ≠ '0' := by simpa using lead
        have notMinus : first ≠ '-' := by
          rintro rfl
          exact absurd (digits '-' (List.mem_cons_self ..)) (by decide)
        cases negative <;> simp [dropLead, notZero, notMinus]

/-- A zero stands in for zero, and for zero with a minus. -/
private theorem orZero_plain {negative : Bool} {count places : Nat}
    (ending : places = 0 ∨ count % 10 ≠ 0) :
    orZero ((if negative then ['-'] else []) ++ plain count places) =
      if negative && count != 0 then '-' :: plain count places else plain count places := by
  rcases Nat.eq_zero_or_pos count with rfl | positive
  · obtain rfl : places = 0 := by simpa using ending
    cases negative <;> rfl
  · have chars : (if negative then ['-'] else []) ++ plain count places =
        (numeral negative count places).chars := by
      rw [chars_numeral]
      cases negative <;> rfl
    have trim : (numeral negative count places).Trim :=
      trim_numeral (fun _ => positive.ne') ending
    rw [chars, orZero, if_neg (not_or.mpr ⟨PlainNumeral.chars_ne_nil, trim.chars_ne_minus_zero⟩),
      chars_numeral]
    simp [positive.ne']

section Beyond

/-- Zeros that are added at the end are dropped again. -/
private theorem trimZeros_mul_tenTo (count places more : Nat) :
    trimZeros (count * tenTo more) (places + more) = trimZeros count places := by
  induction more with
  | zero => simp [tenTo]
  | succ more ih =>
    rw [tenTo_succ, Nat.mul_left_comm, ← Nat.add_assoc, trimZeros,
      if_pos (Nat.mul_mod_right ..), Nat.mul_div_cancel_left _ (by decide), ih]

private theorem roundHalfEven_mul {den : Nat} (positive : 0 < den) (num : Nat) :
    roundHalfEven (num * den) den = num := by
  simp [roundHalfEven, Nat.mul_div_cancel _ positive, positive]

private theorem tenTo_eq (places : Nat) : tenTo places = 5 ^ places * 2 ^ places :=
  Nat.mul_pow 5 2 places

private theorem tenTo_add (places more : Nat) : tenTo (places + more) = tenTo places * tenTo more :=
  Nat.pow_add ..

/-- Only zeros fill the places beyond the last one that a unit fills. -/
private theorem scaled_add (units more : Nat) :
    scaled units (filledPlaces + more) = scaled units filledPlaces * tenTo more := by
  have filled : tenTo filledPlaces = 5 ^ filledPlaces * Exact.unitsPerOne := by
    rw [Exact.unitsPerOne_eq, tenTo_eq, filledPlaces]
  have positive := unitsPerOne_pos
  rw [scaled, scaled, tenTo_add, filled]
  generalize 5 ^ filledPlaces = fives
  generalize Exact.unitsPerOne = one at positive
  calc
    roundHalfEven (units * (fives * one * tenTo more)) one
    _ = roundHalfEven (units * fives * tenTo more * one) one := by
      rw [Nat.mul_right_comm fives, ← Nat.mul_assoc, ← Nat.mul_assoc]
    _ = units * fives * tenTo more := roundHalfEven_mul positive _
    _ = roundHalfEven (units * (fives * one)) one * tenTo more := by
      rw [← Nat.mul_assoc, roundHalfEven_mul positive]

private theorem trimZeros_scaled (units places : Nat) :
    trimZeros (scaled units places) places =
      trimZeros (scaled units (min places filledPlaces)) (min places filledPlaces) := by
  rcases Nat.le_total places filledPlaces with fewer | beyond
  · rw [Nat.min_eq_left fewer]
  · obtain ⟨more, rfl⟩ := Nat.exists_eq_add_of_le beyond
    rw [Nat.min_eq_right beyond, scaled_add, trimZeros_mul_tenTo]

end Beyond

/-- The text of a number with at most some decimal places is what is left of its text with exactly
these places when the zeros and the point at the end are dropped, then the zero before the point,
and a zero stands in for zero. -/
theorem chars_eq_edited (places : Nat) (value : Float) :
    chars places value = edited (filledChars places value) := by
  rw [chars, filledChars]
  cases Exact.ofFloat value with
  | nan => rfl
  | infinite negative => cases negative <;> rfl
  | finite negative units =>
    have ending := trimZeros_ending (scaled units places) places
    simp only [edited]
    rw [dropEnd_filled, dropLead_filled, orZero_plain ending, trimZeros_scaled, magnitude]

example : edited "-0.5000".toList = "-.5".toList := by decide

end Fixed

end Toolpath
