import Mathlib

/-! # Plain numerals

A plain numeral is decimal text without an exponent: an optional minus, digits, and an optional
point with more digits, with at least one digit in all. A trim numeral has nothing that could be
left out: no minus before zero, no point that nothing follows, no zero at the end of the fraction
and none in front of other digits or of the point. No plain numeral of the same value is shorter
than a trim one.
-/

namespace Toolpath

/-- Decimal text without an exponent. -/
structure PlainNumeral where
  /-- Whether there is a minus in front. -/
  negative : Bool
  /-- The digits before the point. -/
  whole : List Char
  /-- The digits after the point, if there is a point. -/
  fraction : Option (List Char)
  digit : ∀ c ∈ whole ++ fraction.getD [], c.isDigit = true
  nonempty : whole ++ fraction.getD [] ≠ []

section Digits

variable {digits : List Char}

private theorem value_lt_ten {c : Char} (digit : c.isDigit = true) : c.toNat - '0'.toNat < 10 := by
  have code := Char.isDigit_iff_toNat.mp digit
  simp only [Char.reduceToNat] at code ⊢
  omega

/-- The first digit counts for as many tens as there are digits after it. -/
private theorem ofDigitChars_cons_zero (c : Char) (digits : List Char) :
    Nat.ofDigitChars 10 (c :: digits) 0 =
      10 ^ digits.length * (c.toNat - '0'.toNat) + Nat.ofDigitChars 10 digits 0 := by
  rw [Nat.ofDigitChars_cons, Nat.mul_zero, Nat.zero_add, Nat.ofDigitChars_eq_ofDigitChars_zero]

theorem ofDigitChars_lt (digit : ∀ c ∈ digits, c.isDigit = true) :
    Nat.ofDigitChars 10 digits 0 < 10 ^ digits.length := by
  induction digits with
  | nil => simp [Nat.ofDigitChars_nil]
  | cons c digits ih =>
    obtain ⟨first, others⟩ := List.forall_mem_cons.mp digit
    have rest := ih others
    have top := Nat.mul_le_mul_left (10 ^ digits.length) (Nat.le_of_lt_succ (value_lt_ten first))
    rw [ofDigitChars_cons_zero, List.length_cons, Nat.pow_succ]
    omega

/-- Digits that do not start with a zero count at least a one in the first place. -/
theorem le_ofDigitChars (digit : ∀ c ∈ digits, c.isDigit = true) (nonempty : digits ≠ [])
    (lead : digits.head? ≠ some '0') :
    10 ^ (digits.length - 1) ≤ Nat.ofDigitChars 10 digits 0 := by
  obtain ⟨c, rest, rfl⟩ := List.exists_cons_of_ne_nil nonempty
  have code := Char.isDigit_iff_toNat.mp (digit c (List.mem_cons_self ..))
  have notZero : c.toNat ≠ '0'.toNat := by
    intro same
    exact lead (congrArg some (Char.toNat_inj.mp same))
  simp only [Char.reduceToNat] at code notZero
  have one : 1 ≤ c.toNat - '0'.toNat := by
    simp only [Char.reduceToNat]
    omega
  rw [ofDigitChars_cons_zero, List.length_cons, Nat.add_sub_cancel]
  exact Nat.le_add_right_of_le (Nat.le_mul_of_pos_right _ one)

/-- The last digit is the remainder by ten. -/
theorem ofDigitChars_mod_ten (digit : ∀ c ∈ digits, c.isDigit = true) :
    Nat.ofDigitChars 10 digits 0 % 10 = 0 ↔ digits = [] ∨ digits.getLast? = some '0' := by
  rcases List.eq_nil_or_concat' digits with rfl | ⟨front, c, rfl⟩
  · simp [Nat.ofDigitChars_nil]
  · have code := Char.isDigit_iff_toNat.mp (digit c (by simp))
    have zero : c = '0' ↔ c.toNat = '0'.toNat := Char.toNat_inj.symm
    simp only [Char.reduceToNat] at code zero
    rw [Nat.ofDigitChars_append, Nat.ofDigitChars_cons, Nat.ofDigitChars_nil, List.getLast?_concat,
      Option.some_inj, zero]
    simp only [Char.reduceToNat, List.append_eq_nil_iff, List.cons_ne_nil, and_false, false_or]
    omega

theorem toDigits_isDigit (n : Nat) : ∀ c ∈ Nat.toDigits 10 n, c.isDigit = true := by
  intro c member
  exact Nat.isDigit_of_mem_toDigits (by decide) (by decide) member

/-- The digits of a positive number do not start with a zero. -/
theorem head?_toDigits {n : Nat} (positive : 0 < n) : (Nat.toDigits 10 n).head? ≠ some '0' := by
  induction n using Nat.strongRecOn with
  | _ n ih =>
    rw [Nat.toDigits_eq_if (by decide)]
    split_ifs with small
    · have : ∀ digit < 10, 0 < digit → [digit.digitChar].head? ≠ some '0' := by decide
      exact this n small positive
    · have shorter := ih (n / 10) (by omega) (by omega)
      rwa [List.head?_append_of_ne_nil _ Nat.toDigits_ne_nil]

end Digits

namespace PlainNumeral

/-- The digits after the point; none without a point. -/
def decimals (numeral : PlainNumeral) : List Char := numeral.fraction.getD []

/-- All digits as one whole number. -/
def count (numeral : PlainNumeral) : Nat :=
  Nat.ofDigitChars 10 (numeral.whole ++ numeral.decimals) 0

/-- The characters after the sign. -/
def body (numeral : PlainNumeral) : List Char :=
  numeral.whole ++ numeral.fraction.elim [] ('.' :: ·)

/-- The characters of a numeral. -/
def chars (numeral : PlainNumeral) : List Char :=
  (if numeral.negative then ['-'] else []) ++ numeral.body

/-- The number that a numeral denotes. -/
def value (numeral : PlainNumeral) : ℚ :=
  (if numeral.negative then -1 else 1) * (numeral.count / 10 ^ numeral.decimals.length)

/-- A numeral with nothing that could be left out. -/
structure Trim (numeral : PlainNumeral) : Prop where
  minus : numeral.negative = true → numeral.count ≠ 0
  point : numeral.fraction ≠ some []
  ending : numeral.decimals.getLast? ≠ some '0'
  start : numeral.whole.head? = some '0' → numeral.whole = ['0'] ∧ numeral.fraction = none

theorem isDigit_whole (numeral : PlainNumeral) : ∀ c ∈ numeral.whole, c.isDigit = true := by
  intro c member
  exact numeral.digit c (List.mem_append_left _ member)

theorem isDigit_decimals (numeral : PlainNumeral) : ∀ c ∈ numeral.decimals, c.isDigit = true := by
  intro c member
  exact numeral.digit c (List.mem_append_right _ member)

theorem body_ne_nil (numeral : PlainNumeral) : numeral.body ≠ [] := by
  intro empty
  obtain ⟨whole, rest⟩ := List.append_eq_nil_iff.mp empty
  cases shape : numeral.fraction with
  | none => exact numeral.nonempty (by rw [whole, shape]; rfl)
  | some fraction =>
    rw [shape] at rest
    contradiction

theorem mem_body {numeral : PlainNumeral} {c : Char} (member : c ∈ numeral.body) :
    c.isDigit ∨ c = '.' := by
  rcases List.mem_append.mp member with whole | rest
  · exact .inl (numeral.isDigit_whole c whole)
  · cases shape : numeral.fraction with
    | none =>
      rw [shape] at rest
      contradiction
    | some fraction =>
      rw [shape, Option.elim_some] at rest
      rcases List.mem_cons.mp rest with point | digits
      · exact .inr point
      · exact .inl (numeral.isDigit_decimals c (by rwa [decimals, shape]))

variable {numeral other : PlainNumeral}

theorem chars_ne_nil : numeral.chars ≠ [] :=
  List.append_ne_nil_of_right_ne_nil _ numeral.body_ne_nil

/-- A trim numeral does not write zero with a minus. -/
theorem Trim.chars_ne_minus_zero (trim : numeral.Trim) : numeral.chars ≠ ['-', '0'] := by
  intro same
  cases negative : numeral.negative with
  | false =>
    rw [chars, negative] at same
    have member : '-' ∈ numeral.body := by
      change numeral.body = _ at same
      rw [same]
      exact List.mem_cons_self ..
    exact absurd (mem_body member) (by decide)
  | true =>
    rw [chars, negative] at same
    have zero : numeral.body = ['0'] := List.append_cancel_left same
    apply trim.minus negative
    cases shape : numeral.fraction with
    | none =>
      rw [body, shape, Option.elim_none, List.append_nil] at zero
      simp [count, decimals, shape, zero, Nat.ofDigitChars_cons, Nat.ofDigitChars_nil]
    | some fraction =>
      have point : '.' ∈ numeral.body := by simp [body, shape]
      rw [zero] at point
      exact absurd point (by decide)

theorem length_body (numeral : PlainNumeral) :
    numeral.body.length =
      numeral.whole.length + numeral.fraction.elim 0 fun digits => digits.length + 1 := by
  cases shape : numeral.fraction <;> simp [body, shape]

theorem length_chars (numeral : PlainNumeral) :
    numeral.chars.length = numeral.negative.toNat + numeral.body.length := by
  cases negative : numeral.negative <;> simp [chars, negative, Nat.add_comm]

/-- The digits before the point count the wholes. -/
theorem count_div (numeral : PlainNumeral) :
    numeral.count / 10 ^ numeral.decimals.length = Nat.ofDigitChars 10 numeral.whole 0 := by
  rw [count, Nat.ofDigitChars_append, Nat.ofDigitChars_eq_ofDigitChars_zero,
    Nat.mul_add_div (Nat.pow_pos (by decide)),
    Nat.div_eq_of_lt (ofDigitChars_lt numeral.isDigit_decimals), Nat.add_zero]

/-- The last digit after the point tells whether ten divides the count. -/
theorem count_mod_ten (nonempty : numeral.decimals ≠ []) :
    numeral.count % 10 = 0 ↔ numeral.decimals.getLast? = some '0' := by
  refine (ofDigitChars_mod_ten numeral.digit).trans ?_
  change numeral.whole ++ numeral.decimals = [] ∨
    (numeral.whole ++ numeral.decimals).getLast? = _ ↔ _
  rw [List.getLast?_append_of_ne_nil _ nonempty, List.append_eq_nil_iff]
  simp [nonempty]

theorem abs_value (numeral : PlainNumeral) :
    |numeral.value| = numeral.count / 10 ^ numeral.decimals.length := by
  have positive : (0 : ℚ) ≤ numeral.count / 10 ^ numeral.decimals.length := by positivity
  rw [value]
  split_ifs
  · rw [neg_one_mul, abs_neg, abs_of_nonneg positive]
  · rw [one_mul, abs_of_nonneg positive]

/-- A numeral of a negative number has a minus. -/
theorem negative_of_value_neg (below : numeral.value < 0) : numeral.negative = true := by
  by_contra positive
  rw [value, if_neg positive, one_mul] at below
  exact absurd below (not_lt.mpr (by positivity))

theorem Trim.value_neg (trim : numeral.Trim) (negative : numeral.negative = true) :
    numeral.value < 0 := by
  have count : (0 : ℚ) < numeral.count :=
    Nat.cast_pos.mpr (Nat.pos_of_ne_zero (trim.minus negative))
  rw [value, if_pos negative, neg_one_mul, neg_lt_zero]
  positivity

/-- Numerals of one value spell the same number, each in its own units. -/
theorem count_mul_pow (same : other.value = numeral.value) :
    numeral.count * 10 ^ other.decimals.length = other.count * 10 ^ numeral.decimals.length := by
  have magnitude := congrArg abs same
  rw [abs_value, abs_value, div_eq_div_iff (by positivity) (by positivity)] at magnitude
  exact_mod_cast magnitude.symm

/-- No numeral of the value has fewer digits after the point. -/
theorem Trim.length_decimals_le (trim : numeral.Trim) (same : other.value = numeral.value) :
    numeral.decimals.length ≤ other.decimals.length := by
  by_contra fewer
  have counts := count_mul_pow same
  have cut : 10 ^ numeral.decimals.length =
      10 ^ (numeral.decimals.length - other.decimals.length - 1) * 10 *
        10 ^ other.decimals.length := by
    rw [← Nat.pow_succ, ← Nat.pow_add]
    congr 1
    omega
  rw [cut, ← Nat.mul_assoc] at counts
  have multiple := Nat.eq_of_mul_eq_mul_right (Nat.pow_pos (by decide)) counts
  have zero : numeral.count % 10 = 0 := by
    rw [multiple, ← Nat.mul_assoc, Nat.mul_mod_left]
  have nonempty : numeral.decimals ≠ [] := by
    intro none
    rw [none] at fewer
    exact fewer (Nat.zero_le _)
  exact trim.ending ((count_mod_ten nonempty).mp zero)

/-- Without a zero in front, no numeral of the value has fewer digits before the point. -/
theorem length_whole_le (same : other.value = numeral.value)
    (lead : numeral.whole.head? ≠ some '0') : numeral.whole.length ≤ other.whole.length := by
  by_cases empty : numeral.whole = []
  · rw [empty]
    exact Nat.zero_le _
  · have wholes : Nat.ofDigitChars 10 numeral.whole 0 = Nat.ofDigitChars 10 other.whole 0 := by
      rw [← count_div, ← count_div,
        ← Nat.mul_div_mul_right _ _ (Nat.pow_pos (by decide) : 0 < 10 ^ other.decimals.length),
        count_mul_pow same, Nat.mul_comm (10 ^ numeral.decimals.length),
        Nat.mul_div_mul_right _ _ (Nat.pow_pos (by decide))]
    have low := le_ofDigitChars numeral.isDigit_whole empty lead
    have high := ofDigitChars_lt other.isDigit_whole
    rw [← wholes] at high
    have shorter := (Nat.pow_lt_pow_iff_right (by decide)).mp (Nat.lt_of_le_of_lt low high)
    omega

/-- No plain numeral of the same value is shorter than a trim one. -/
theorem Trim.length_le (trim : numeral.Trim) (same : other.value = numeral.value) :
    numeral.chars.length ≤ other.chars.length := by
  have sign : numeral.negative.toNat ≤ other.negative.toNat := by
    cases negative : numeral.negative with
    | false => exact Nat.zero_le _
    | true =>
      have below := trim.value_neg negative
      rw [← same] at below
      rw [negative_of_value_neg below]
  have decimals := trim.length_decimals_le same
  have body : numeral.body.length ≤ other.body.length := by
    rw [length_body, length_body]
    by_cases lead : numeral.whole.head? = some '0'
    · -- The one digit of zero: there is some digit in every numeral.
      obtain ⟨zero, last⟩ := trim.start lead
      have present := List.length_pos_iff.mpr other.nonempty
      rw [List.length_append] at present
      rw [zero, last, Option.elim_none, List.length_singleton]
      cases shape : other.fraction with
      | none =>
        rw [shape, Option.getD_none, List.length_nil] at present
        exact present
      | some digits =>
        rw [shape, Option.getD_some] at present
        rw [Option.elim_some]
        omega
    · have whole := length_whole_le same lead
      cases shape : numeral.fraction with
      | none =>
        rw [Option.elim_none]
        omega
      | some digits =>
        have nonempty : digits ≠ [] := by
          rintro rfl
          exact trim.point shape
        have present := List.length_pos_iff.mpr nonempty
        rw [PlainNumeral.decimals, shape, Option.getD_some] at decimals
        cases otherShape : other.fraction with
        | none =>
          rw [PlainNumeral.decimals, otherShape, Option.getD_none, List.length_nil] at decimals
          omega
        | some others =>
          rw [PlainNumeral.decimals, otherShape, Option.getD_some] at decimals
          simp only [Option.elim_some]
          omega
  rw [length_chars, length_chars]
  omega

/-- A trim numeral of a proper fraction has no digit before its point. -/
theorem Trim.whole_eq_nil (trim : numeral.Trim) (nonzero : numeral.value ≠ 0)
    (proper : |numeral.value| < 1) : numeral.whole = [] := by
  have below : Nat.ofDigitChars 10 numeral.whole 0 = 0 := by
    rw [abs_value, div_lt_one (by positivity)] at proper
    rw [← count_div]
    exact Nat.div_eq_of_lt (by exact_mod_cast proper)
  by_contra present
  by_cases lead : numeral.whole.head? = some '0'
  · -- A zero alone has no fraction after it, so the number is zero.
    obtain ⟨zero, last⟩ := trim.start lead
    apply nonzero
    rw [value, count, decimals, zero, last]
    simp [Nat.ofDigitChars_cons, Nat.ofDigitChars_nil]
  · have low := le_ofDigitChars numeral.isDigit_whole present lead
    have := Nat.pow_pos (a := 10) (n := numeral.whole.length - 1) (by decide)
    omega

end PlainNumeral

end Toolpath
