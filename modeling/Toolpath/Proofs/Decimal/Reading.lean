import Mathlib
import Toolpath.Decimal.Numeral
import Toolpath.Proofs.Decimal.Nearest
import Toolpath.Proofs.Decimal.Plain

/-! # Reading a written number

Every text that `Fixed.chars` writes is a number text, and it stands for the float `Fixed.settled`.
The digits spell the rounded count exactly; the only loss on the way back is the rounding of that
decimal to the float grid.
-/

namespace Toolpath

/-- Rounding depends on the quotient only. -/
theorem roundHalfEven_mul_right {den scale : Nat} (positive : 0 < den) (nonzero : 0 < scale)
    (num : Nat) : roundHalfEven (num * scale) (den * scale) = roundHalfEven num den := by
  obtain ⟨near, tie⟩ := roundsTo_roundHalfEven positive num
  apply (roundHalfEven_eq_iff (Nat.mul_pos positive nonzero) _ _).mpr
  generalize roundHalfEven num den = count at *
  rw [RoundsTo, ← Nat.mul_assoc count, gap_mul_right, ← Nat.mul_assoc]
  refine ⟨Nat.mul_le_mul_right _ near, fun same => tie ?_⟩
  exact Nat.eq_of_mul_eq_mul_right nonzero same

namespace Exact

/-- The nearest units depend on the quotient only. -/
theorem nearestUnits_mul_right {den scale : Nat} (positive : 0 < den) (nonzero : 0 < scale)
    (num : Nat) : nearestUnits (num * scale) (den * scale) = nearestUnits num den := by
  have quotient : num * scale * unitsPerOne / (den * scale) = num * unitsPerOne / den := by
    rw [Nat.mul_right_comm, Nat.mul_div_mul_right _ _ nonzero]
  simp only [nearestUnits, quotient, Nat.one_shiftLeft]
  rw [Nat.mul_right_comm num, Nat.mul_right_comm den,
    roundHalfEven_mul_right (Nat.mul_pos positive (Nat.two_pow_pos _)) nonzero]

/-- The nearest float depends on the quotient only. -/
theorem nearest_mul_right {den scale : Nat} (positive : 0 < den) (nonzero : 0 < scale)
    (negative : Bool) (num : Nat) :
    nearest negative (num * scale) (den * scale) = nearest negative num den := by
  rw [nearest, nearest, nearestUnits_mul_right positive nonzero]

/-- A quotient below half a unit is nearest to zero. -/
theorem nearest_of_small {num den : Nat} (small : 2 * (num * unitsPerOne) < den) (negative : Bool) :
    nearest negative num den = finite negative 0 := by
  have quotient : num * unitsPerOne / den = 0 := Nat.div_eq_of_lt (by omega)
  have units : nearestUnits num den = 0 := by
    simp only [nearestUnits, quotient]
    have rounded : roundHalfEven (num * unitsPerOne) (den * 1 <<< gridShift 0) = 0 := by
      apply (roundHalfEven_eq_iff (by rw [show 1 <<< gridShift 0 = 1 from rfl]; omega) _ _).mpr
      simp only [RoundsTo, gap, show 1 <<< gridShift 0 = 1 from rfl]
      omega
    rw [rounded, Nat.zero_mul]
  rw [nearest, units, if_pos (by rw [unitsLimit_eq]; exact Nat.two_pow_pos _)]

end Exact

open Exact

/-- A decimal with places after the point is read as the float nearest to the quotient, also where
the power of ten alone decides. -/
theorem Decimal.nearest_of_places (negative : Bool) (coefficient places : Nat) :
    Decimal.nearest ⟨negative, coefficient, -(places : Int)⟩ =
      Exact.nearest negative coefficient (tenTo places) := by
  rw [Decimal.nearest]
  simp only
  split_ifs with zero whole huge tiny
  · subst zero
    exact (nearest_of_small (by rw [Nat.zero_mul]; exact Fixed.tenTo_pos _) _).symm
  · simp only [exponentReach] at huge
    omega
  · obtain rfl : places = 0 := by omega
    rw [show tenTo 0 = 1 from rfl]
    exact congrArg (Exact.nearest negative · 1) (Nat.mul_one _)
  · rw [Int.neg_neg, Int.toNat_natCast, exponentReach] at tiny
    refine (nearest_of_small ?_ _).symm
    have reach : 2 ^ 1076 ≤ 10 ^ 401 := by decide +kernel
    rw [unitsPerOne_eq, tenTo]
    calc
      2 * (coefficient * 2 ^ 1074) < 2 * (2 ^ (coefficient.log2 + 1) * 2 ^ 1074) := by
        have := Nat.mul_lt_mul_of_pos_right (Nat.lt_log2_self (n := coefficient))
          (Nat.two_pow_pos 1074)
        generalize 2 ^ 1074 = one at *
        omega
      _ = 2 ^ coefficient.log2 * 2 ^ 1076 := by
        rw [show (1076 : Nat) = 1074 + 2 from rfl, Nat.pow_add 2 1074]
        generalize 2 ^ 1074 = one
        ring
      _ ≤ 10 ^ coefficient.log2 * 10 ^ 401 :=
        Nat.mul_le_mul (Nat.pow_le_pow_left (by decide) _) reach
      _ = 10 ^ (coefficient.log2 + 401) := (Nat.pow_add ..).symm
      _ ≤ 10 ^ places := Nat.pow_le_pow_right (by decide) (by omega)
  · rw [Int.neg_neg, Int.toNat_natCast]

namespace Fixed

/-- Trailing zeros make no difference to the nearest float. -/
theorem nearest_trimZeros (negative : Bool) (count places : Nat) :
    Exact.nearest negative (trimZeros count places).1 (tenTo (trimZeros count places).2) =
      Exact.nearest negative count (tenTo places) := by
  induction places generalizing count with
  | zero => rfl
  | succ places ih =>
    rw [trimZeros]
    split_ifs with trailing
    · rw [ih, ← nearest_mul_right (tenTo_pos places) (by decide : 0 < 10)]
      rw [Nat.div_mul_cancel (Nat.dvd_of_mod_eq_zero trailing)]
      rfl
    · rfl

theorem trimZeros_fst_eq_zero {count : Nat} (places : Nat) :
    (trimZeros count places).1 = 0 ↔ count = 0 := by
  induction places generalizing count with
  | zero => rfl
  | succ places ih =>
    rw [trimZeros]
    split_ifs with trailing
    · rw [ih]
      omega
    · rfl

end Fixed

namespace PlainNumeral

variable (numeral : PlainNumeral)

/-- The digits of a numeral read as its count with its places. -/
theorem unsigned?_body (negative : Bool) :
    Numeral.unsigned? negative numeral.body =
      some ⟨negative, numeral.count, -(numeral.decimals.length : Int)⟩ := by
  have whole := numeral.isDigit_whole
  have digits := numeral.isDigit_decimals
  have split : numeral.body.takeWhile Char.isDigit = numeral.whole ∧
      Numeral.takeFraction (numeral.body.dropWhile Char.isDigit) = (numeral.decimals, []) := by
    rw [body, List.takeWhile_append_of_pos whole, List.dropWhile_append_of_pos whole]
    cases shape : numeral.fraction with
    | none => simp [decimals, shape, Numeral.takeFraction]
    | some fraction =>
      rw [decimals, shape, Option.getD_some] at digits
      simp only [decimals, shape, Option.elim_some, Option.getD_some, Numeral.takeFraction,
        List.takeWhile_cons, List.dropWhile_cons, show Char.isDigit '.' = false from rfl,
        Bool.false_eq_true, if_false, List.append_nil, List.takeWhile_eq_self_iff.mpr digits,
        List.dropWhile_eq_nil_iff.mpr digits, and_self]
  have present : (numeral.whole.isEmpty && numeral.decimals.isEmpty) = false := by
    rw [Bool.eq_false_iff, Ne, Bool.and_eq_true, List.isEmpty_iff, List.isEmpty_iff]
    rintro ⟨first, second⟩
    exact numeral.nonempty (List.append_eq_nil_iff.mpr ⟨first, second⟩)
  simp only [Numeral.unsigned?, split, present]
  simp [Numeral.exponent?, Decimal.ofDigits, count]

/-- A numeral without its sign starts with a digit or a point. -/
private theorem body_eq_cons :
    ∃ first rest, numeral.body = first :: rest ∧ (first.isDigit ∨ first = '.') := by
  obtain ⟨first, rest, shape⟩ := List.exists_cons_of_ne_nil numeral.body_ne_nil
  have member : first ∈ numeral.body := by
    rw [shape]
    exact List.mem_cons_self ..
  exact ⟨first, rest, shape, mem_body member⟩

private theorem code_of_start {first : Char} (start : first.isDigit ∨ first = '.') :
    46 ≤ first.toNat ∧ first.toNat ≤ 57 := by
  rcases start with digit | rfl
  · have := Char.isDigit_iff_toNat.mp digit
    simp only [Char.reduceToNat] at this
    omega
  · decide

private theorem takeSign_of_start {first : Char} (start : first.isDigit ∨ first = '.')
    (rest : List Char) : Numeral.takeSign (first :: rest) = (false, first :: rest) := by
  have code := code_of_start start
  rw [Numeral.takeSign]
  · rintro later same
    injection same with same _
    subst same
    simp at code
  · rintro later same
    injection same with same _
    subst same
    simp at code

private theorem named?_of_start {first : Char} (start : first.isDigit ∨ first = '.')
    (negative : Bool) (rest : List Char) : Numeral.named? negative (first :: rest) = none := by
  have code := code_of_start start
  have lower : first.toLower = first := by
    rw [Char.toLower, dif_neg]
    rintro ⟨low, -⟩
    have : 65 ≤ first.toNat := low
    omega
  have notN : first ≠ 'n' := by rintro rfl; simp at code
  have notI : first ≠ 'i' := by rintro rfl; simp at code
  simp [Numeral.named?, lower, notN, notI]

/-- Neither a sign nor a name starts like a numeral, so a numeral after its sign stands for the
float nearest to its value. -/
theorem content?_body {text : List Char} {negative : Bool}
    (sign : Numeral.takeSign text = (negative, numeral.body)) :
    Numeral.content? text =
      some (Exact.nearest negative numeral.count (tenTo numeral.decimals.length)) := by
  have decimal := numeral.unsigned?_body negative
  obtain ⟨first, rest, shape, start⟩ := numeral.body_eq_cons
  rw [shape] at decimal sign
  simp only [Numeral.content?, sign, named?_of_start start, decimal, Option.none_or,
    Option.map_some, Decimal.nearest_of_places]

theorem takeSign_body : Numeral.takeSign numeral.body = (false, numeral.body) := by
  obtain ⟨first, rest, shape, start⟩ := numeral.body_eq_cons
  rw [shape]
  exact takeSign_of_start start rest

/-- A numeral stands for the float nearest to its value. -/
theorem content?_chars :
    Numeral.content? numeral.chars =
      some (Exact.nearest numeral.negative numeral.count (tenTo numeral.decimals.length)) := by
  apply numeral.content?_body
  rw [chars]
  cases numeral.negative with
  | false => exact numeral.takeSign_body
  | true => rfl

end PlainNumeral

namespace Fixed

/-- The numeral of a whole number of `10 ^ -places`, with no zero before the point. -/
def numeral (negative : Bool) (count places : Nat) : PlainNumeral where
  negative
  whole :=
    if places = 0 then Nat.toDigits 10 count
    else if count / tenTo places = 0 then [] else Nat.toDigits 10 (count / tenTo places)
  fraction :=
    if places = 0 then none else some ((Nat.toDigits 10 (count % tenTo places)).leftpad places '0')
  digit := by
    intro c member
    rcases List.mem_append.mp member with whole | fraction
    · split_ifs at whole
      · exact toDigits_isDigit count c whole
      · contradiction
      · exact toDigits_isDigit _ c whole
    · split_ifs at fraction
      · contradiction
      · rw [Option.getD_some, List.leftpad, List.mem_append, List.mem_replicate] at fraction
        rcases fraction with ⟨-, rfl⟩ | digit
        · rfl
        · exact toDigits_isDigit _ c digit
  nonempty := by
    split_ifs <;> simp [List.leftpad, Nat.toDigits_ne_nil]

theorem body_numeral (negative : Bool) (count places : Nat) :
    (numeral negative count places).body = plain count places := by
  simp only [PlainNumeral.body, numeral, plain]
  split_ifs <;> simp

theorem length_decimals_numeral (negative : Bool) (count places : Nat) :
    (numeral negative count places).decimals.length = places := by
  simp only [PlainNumeral.decimals, numeral]
  split_ifs with none
  · exact none.symm
  · have short : (Nat.toDigits 10 (count % tenTo places)).length ≤ places :=
      (Nat.length_toDigits_le_iff (by decide) (Nat.pos_of_ne_zero none)).mpr
        (Nat.mod_lt _ (tenTo_pos places))
    rw [Option.getD_some, List.length_leftpad]
    omega

/-- Whole part and fraction together spell the count. -/
theorem count_numeral (negative : Bool) (count places : Nat) :
    (numeral negative count places).count = count := by
  have length := length_decimals_numeral negative count places
  rw [PlainNumeral.count, Nat.ofDigitChars_append, Nat.ofDigitChars_eq_ofDigitChars_zero, length]
  simp only [PlainNumeral.decimals, numeral]
  split_ifs with none zero
  · simp [none, Nat.ofDigitChars_nil, Nat.ofDigitChars_ten_toDigits]
  all_goals
    rw [Option.getD_some, List.leftpad, Nat.ofDigitChars_append, Nat.ofDigitChars_replicate_zero,
      Nat.mul_zero, Nat.ofDigitChars_ten_toDigits]
  · rw [Nat.ofDigitChars_nil, ← zero]
    exact Nat.div_add_mod ..
  · rw [Nat.ofDigitChars_ten_toDigits]
    exact Nat.div_add_mod ..

theorem chars_numeral (negative : Bool) (count places : Nat) :
    (numeral negative count places).chars =
      if negative then '-' :: plain count places else plain count places := by
  rw [PlainNumeral.chars, body_numeral]
  cases negative <;> rfl

/-- The numeral that a finite float is written as. -/
def written (negative : Bool) (units places : Nat) : PlainNumeral :=
  let rounded := min places filledPlaces
  let (count, kept) := trimZeros (scaled units rounded) rounded
  numeral (negative && count != 0) count kept

theorem chars_written (negative : Bool) (units places : Nat) :
    (written negative units places).chars = magnitude negative units places :=
  chars_numeral ..

/-- A written number reads back as its settled float. -/
theorem read?_chars (places : Nat) (value : Float) :
    Numeral.read? (chars places value) = some (settled places value) := by
  rw [Numeral.read?, chars, settled]
  cases Exact.ofFloat value with
  | nan => rfl
  | infinite negative => cases negative <;> rfl
  | finite negative units =>
    simp only [← chars_written, PlainNumeral.content?_chars, Option.map_some]
    simp only [written]
    rw [length_decimals_numeral, count_numeral, nearest_trimZeros]
    simp only [numeral]
    congr 4
    rw [Bool.eq_iff_iff]
    simp [trimZeros_fst_eq_zero]

/-- A written number is made of digits, a point, a minus and the letters of the three names. -/
theorem mem_chars {places : Nat} {value : Float} {c : Char} (member : c ∈ chars places value) :
    c.isDigit ∨ c ∈ ['.', '-', 'N', 'a', 'i', 'n', 'f'] := by
  rw [chars] at member
  cases content : Exact.ofFloat value with
  | nan =>
    simp only [content, List.mem_cons, List.not_mem_nil, or_false] at member
    rcases member with rfl | rfl | rfl <;> simp
  | infinite negative =>
    simp only [content] at member
    split_ifs at member <;> simp only [List.mem_cons, List.not_mem_nil, or_false] at member
    · rcases member with rfl | rfl | rfl | rfl <;> simp
    · rcases member with rfl | rfl | rfl <;> simp
  | finite negative units =>
    simp only [content, ← chars_written, PlainNumeral.chars, List.mem_append] at member
    rcases member with sign | digits
    · split_ifs at sign
      · rw [List.mem_singleton.mp sign]
        simp
      · contradiction
    · exact (PlainNumeral.mem_body digits).imp_right (by rintro rfl; simp)

end Fixed

end Toolpath
