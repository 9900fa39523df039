import Mathlib
import Toolpath.Json
import Toolpath.Proofs.Decimal.Shortest

/-! # Every layout spells the number

Where a number has its point and whether it has an exponent makes no difference to what a document
says: the digits spell the coefficient of the shortest decimal, and point and exponent together its
power of ten. So the text of a float in any layout is a number in the notation of JSON, and the
float nearest to that number is the float itself.
-/

namespace Toolpath

namespace Json

theorem pointed_of_ne_nil {fraction : List Char} (some : fraction ≠ []) :
    '.' :: fraction = pointed fraction := by
  cases fraction with
  | nil => contradiction
  | cons first others => rfl

section Spelling

variable {whole fraction : List Char} (isWhole : IsWhole whole)
  (digit : ∀ c ∈ fraction, c.isDigit = true) (negative : Bool)
include isWhole digit

/-- A number without an exponent. -/
private theorem spells_plain :
    Numeral.Spells ⟨negative, whole, fraction, 0⟩ (signed negative (whole ++ pointed fraction)) := by
  refine ⟨isWhole, digit, [], .absent, ?_⟩
  rw [List.append_nil]

/-- The sign before the digits of an exponent. -/
private def exponentSign (plus : Bool) (exponent : Int) : List Char :=
  if exponent < 0 then ['-'] else if plus then ['+'] else []

omit isWhole digit in
private theorem spellsExponent_written (plus : Bool) (exponent : Int) :
    SpellsExponent exponent
      ('e' :: (exponentSign plus exponent ++ Nat.toDigits 10 exponent.natAbs)) := by
  have spelled : Nat.ofDigitChars 10 (Nat.toDigits 10 exponent.natAbs) 0 = exponent.natAbs :=
    Nat.ofDigitChars_ten_toDigits
  have signs : exponentSign plus exponent ∈ [[], ['+'], ['-']] := by
    rw [exponentSign]
    split_ifs <;> simp
  have value : (if exponentSign plus exponent = ['-'] then
      -(Nat.ofDigitChars 10 (Nat.toDigits 10 exponent.natAbs) 0 : Int)
      else Nat.ofDigitChars 10 (Nat.toDigits 10 exponent.natAbs) 0) = exponent := by
    rw [spelled, exponentSign]
    by_cases below : exponent < 0
    · rw [if_pos below, if_pos rfl]
      omega
    · rw [if_neg below, if_neg (by cases plus <;> simp)]
      omega
  have exponential := SpellsExponent.marked (.inl rfl) signs Nat.toDigits_ne_nil
    (toDigits_isDigit exponent.natAbs)
  rwa [value] at exponential

/-- A number with an exponent. -/
private theorem spells_scientific (plus : Bool) (exponent : Int) :
    Numeral.Spells ⟨negative, whole, fraction, exponent⟩
      (signed negative (whole ++ (pointed fraction ++
        'e' :: (exponentSign plus exponent ++ Nat.toDigits 10 exponent.natAbs)))) :=
  ⟨isWhole, digit, _, spellsExponent_written plus exponent, rfl⟩

end Spelling

end Json

namespace Layout

open Exact Json

private theorem isWhole_toDigits {n : Nat} (positive : 0 < n) : IsWhole (Nat.toDigits 10 n) :=
  ⟨Nat.toDigits_ne_nil, toDigits_isDigit n, .inr (head?_toDigits positive)⟩

private theorem isWhole_zero : IsWhole ['0'] := ⟨by simp, by simp, .inl rfl⟩

/-- What begins like a whole part and goes on with digits is one. -/
private theorem isWhole_append {digits others : List Char} (whole : IsWhole digits)
    (lead : digits.head? ≠ some '0') (digit : ∀ c ∈ others, c.isDigit = true) :
    IsWhole (digits ++ others) where
  nonempty := List.append_ne_nil_of_left_ne_nil whole.nonempty _
  digit c member := (List.mem_append.mp member).elim (whole.digit c) (digit c)
  lead := by
    right
    rwa [List.head?_append_of_ne_nil _ whole.nonempty]

section Magnitude

variable {coefficient : Nat} {power : Int} (positive : 0 < coefficient) (negative : Bool)
include positive

/-- Zeros after the digits, before or after the point, do not change the value. -/
private theorem exists_spells_zeros (reach : power ≤ Decimal.exponentReach) (whole : 0 ≤ power)
    (extra : Nat) :
    ∃ numeral : Numeral,
      numeral.Spells (signed negative (Nat.toDigits 10 coefficient ++
        List.replicate power.toNat '0' ++ pointed (List.replicate extra '0'))) ∧
      numeral.decimal.nearest = Decimal.nearest ⟨negative, coefficient, power⟩ := by
  have zero : ∀ count, ∀ c ∈ List.replicate count '0', c.isDigit = true := by
    intro count c member
    rw [List.eq_of_mem_replicate member]
    rfl
  refine ⟨_, spells_plain ?_ (zero extra) negative, ?_⟩
  · exact isWhole_append (isWhole_toDigits positive) (head?_toDigits positive) (zero _)
  · have value : Decimal.ofDigits negative
        (Nat.toDigits 10 coefficient ++ List.replicate power.toNat '0') (List.replicate extra '0') 0 =
          ⟨negative, coefficient * tenTo power.toNat * tenTo extra, -(extra : Int)⟩ := by
      rw [Decimal.ofDigits, Nat.ofDigitChars_append, Nat.ofDigitChars_append,
        Nat.ofDigitChars_replicate_zero, Nat.ofDigitChars_replicate_zero,
        Nat.ofDigitChars_ten_toDigits, List.length_replicate, Int.zero_sub,
        Nat.mul_comm _ coefficient, Nat.mul_comm _ (coefficient * _)]
      rfl
    have none : (-power).toNat = 0 := by omega
    rw [Numeral.decimal, value, Decimal.nearest_of_places, Decimal.nearest_of_reach reach, none]
    have scaled := nearest_mul_right Nat.one_pos (Fixed.tenTo_pos extra) negative
      (coefficient * tenTo power.toNat)
    rwa [Nat.one_mul] at scaled

/-- The point stands among the digits. -/
private theorem exists_spells_inside {places : Nat} (some : 0 < places)
    (within : places < (Nat.toDigits 10 coefficient).length) :
    let digits := Nat.toDigits 10 coefficient
    ∃ numeral : Numeral,
      numeral.Spells (signed negative (digits.take (digits.length - places) ++
        '.' :: digits.drop (digits.length - places))) ∧
      numeral.decimal = ⟨negative, coefficient, -(places : Int)⟩ := by
  intro digits
  change places < digits.length at within
  have all := isWhole_toDigits positive
  have lead := head?_toDigits positive
  have spelled : Nat.ofDigitChars 10 digits 0 = coefficient := Nat.ofDigitChars_ten_toDigits
  have fraction : digits.drop (digits.length - places) ≠ [] := by
    rw [Ne, List.drop_eq_nil_iff]
    omega
  have whole : IsWhole (digits.take (digits.length - places)) := by
    refine ⟨?_, ?_, .inr ?_⟩
    · rw [Ne, List.take_eq_nil_iff, not_or]
      exact ⟨by omega, all.nonempty⟩
    · intro c member
      exact all.digit c (List.mem_of_mem_take member)
    · rwa [List.head?_take, if_neg (by omega)]
  rw [pointed_of_ne_nil fraction]
  refine ⟨_, spells_plain whole ?_ negative, ?_⟩
  · intro c member
    exact all.digit c (List.mem_of_mem_drop member)
  · simp only [Numeral.decimal, Decimal.ofDigits, List.take_append_drop, spelled, List.length_drop,
      Decimal.mk.injEq, true_and]
    omega

/-- All digits stand after the point, behind zeros that fill up the places. -/
private theorem exists_spells_behind {places : Nat}
    (beyond : (Nat.toDigits 10 coefficient).length ≤ places) :
    ∃ numeral : Numeral,
      numeral.Spells (signed negative
        ('0' :: '.' :: (Nat.toDigits 10 coefficient).leftpad places '0')) ∧
      numeral.decimal = ⟨negative, coefficient, -(places : Int)⟩ := by
  have all := isWhole_toDigits positive
  have length : ((Nat.toDigits 10 coefficient).leftpad places '0').length = places := by
    rw [List.length_leftpad]
    omega
  have fraction : (Nat.toDigits 10 coefficient).leftpad places '0' ≠ [] := by
    rw [List.leftpad]
    exact List.append_ne_nil_of_right_ne_nil _ all.nonempty
  have text : '0' :: '.' :: (Nat.toDigits 10 coefficient).leftpad places '0' =
      ['0'] ++ pointed ((Nat.toDigits 10 coefficient).leftpad places '0') := by
    rw [← pointed_of_ne_nil fraction]
    rfl
  rw [text]
  refine ⟨_, spells_plain isWhole_zero ?_ negative, ?_⟩
  · intro c member
    rw [List.leftpad, List.mem_append, List.mem_replicate] at member
    rcases member with ⟨-, rfl⟩ | member
    · rfl
    · exact all.digit c member
  · rw [Numeral.decimal, Decimal.ofDigits, length, List.leftpad, Nat.ofDigitChars_append,
      Nat.ofDigitChars_append, Nat.ofDigitChars_replicate_zero, Int.zero_sub]
    exact congrArg (Decimal.mk negative · _) Nat.ofDigitChars_ten_toDigits

/-- Without an exponent the digits are spelled with their power of ten. -/
private theorem exists_spells_positional (l : Layout) (reach : power ≤ Decimal.exponentReach) :
    ∃ numeral : Numeral,
      numeral.Spells (signed negative (l.positional (Nat.toDigits 10 coefficient) power)) ∧
      numeral.decimal.nearest = Decimal.nearest ⟨negative, coefficient, power⟩ := by
  simp only [positional]
  split_ifs with whole point inside
  · exact exists_spells_zeros positive negative reach whole 1
  · exact exists_spells_zeros positive negative reach whole 0
  · obtain ⟨numeral, spells, value⟩ := exists_spells_inside positive negative
      (show 0 < (-power).toNat by omega) inside
    have places : -((-power).toNat : Int) = power := by omega
    exact ⟨numeral, spells, by rw [value, places]⟩
  · obtain ⟨numeral, spells, value⟩ := exists_spells_behind positive negative
      (Nat.le_of_not_lt inside)
    have places : -((-power).toNat : Int) = power := by omega
    exact ⟨numeral, spells, by rw [value, places]⟩

/-- With an exponent the digits are spelled with their power of ten. -/
private theorem exists_spells_exponent (l : Layout) :
    ∃ numeral : Numeral,
      numeral.Spells (signed negative (l.scientific (Nat.toDigits 10 coefficient)
        (power + (Nat.toDigits 10 coefficient).length - 1))) ∧
      numeral.decimal = ⟨negative, coefficient, power⟩ := by
  have digits := isWhole_toDigits positive
  have lead := head?_toDigits positive
  have value : Nat.ofDigitChars 10 (Nat.toDigits 10 coefficient) 0 = coefficient :=
    Nat.ofDigitChars_ten_toDigits
  obtain ⟨first, others, shape⟩ := List.exists_cons_of_ne_nil digits.nonempty
  rw [shape] at digits lead value ⊢
  have text (exponent : Int) : l.scientific (first :: others) exponent =
      [first] ++ (pointed others ++ 'e' :: (exponentSign l.plus exponent ++
        Nat.toDigits 10 exponent.natAbs)) := by
    cases others <;> simp [scientific, pointed, exponentSign]
  rw [text]
  refine ⟨_, spells_scientific ?_ ?_ negative l.plus _, ?_⟩
  · exact ⟨by simp, by simpa using digits.digit first (by simp), .inr (by simpa using lead)⟩
  · intro c member
    exact digits.digit c (List.mem_cons_of_mem _ member)
  · simp only [Numeral.decimal, Decimal.ofDigits, List.singleton_append, value, List.length_cons,
      Decimal.mk.injEq, true_and]
    omega

end Magnitude

/-- The text of a finite magnitude spells the magnitude, whatever the layout. -/
private theorem exists_spells_magnitude (l : Layout) {units : Nat} (grid : OnGrid units)
    (negative : Bool) :
    ∃ numeral : Numeral, numeral.Spells (signed negative (l.magnitude units)) ∧
      numeral.decimal.nearest = .finite negative units := by
  rw [magnitude]
  split_ifs with zero
  · subst zero
    rw [positional, if_pos (Int.le_refl 0)]
    split_ifs with point
    · exact ⟨_, spells_plain isWhole_zero isWhole_zero.digit negative, rfl⟩
    · have none : ∀ c ∈ ([] : List Char), c.isDigit = true := by simp
      exact ⟨_, spells_plain isWhole_zero none negative, rfl⟩
  · cases found : (Rounding.ofUnits units).shortest l.tie with | mk coefficient power
    have nonzero := Nat.pos_of_ne_zero zero
    obtain ⟨positive, -, most, -⟩ := Rounding.shortest_holds nonzero l.tie found
    simp only
    rw [← Decimal.nearest_of_shortest grid nonzero found negative]
    split_ifs
    · apply exists_spells_positional positive negative l
      rw [Decimal.exponentReach]
      omega
    · obtain ⟨numeral, spells, value⟩ :=
        @exists_spells_exponent coefficient power positive negative l
      exact ⟨numeral, spells, by rw [value]⟩

/-- The text of a finite number spells a number that is nearest to it, whatever the layout. -/
theorem exists_spells_text (l : Layout) {value : Float} (finite : value.isFinite = true) :
    ∃ numeral : Numeral, numeral.Spells (l.text value).toList ∧
      numeral.decimal.nearest = ofFloat value := by
  obtain ⟨negative, units, content⟩ := Exact.isFinite_iff.mp finite
  obtain ⟨numeral, spells, nearest⟩ :=
    l.exists_spells_magnitude (onGrid_of_ofFloat content) negative
  refine ⟨numeral, ?_, nearest.trans content.symm⟩
  rw [text, content, String.toList_ofList]
  exact spells

end Layout

end Toolpath
