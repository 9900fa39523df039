import Mathlib
import Toolpath.Decimal.Exact

/-! # The bits of a float and its content

A float is kept as 64 bits, and `Exact.ofFloat` reads its content off them. Bits that do not spell
the undefined number survive a trip through the float, so the content of `Exact.toFloat` is the
content it was made from, provided the units lie on the float grid and below `Exact.unitsLimit`.
The content of every finite float is of that kind, and a finite float is made from its content.
-/

namespace Toolpath.Exact

open Float.Model Float.Model.UnpackedFloat

/-- The magnitudes of finite floats: multiples of the grid spacing around them, below the limit. -/
def OnGrid (units : Nat) : Prop := 2 ^ gridShift units ∣ units ∧ units < unitsLimit

private theorem toBitVec_unpackSign (bits : BitVec 64) :
    (Sign.ofBitVec (@unpackSign .binary64 bits)).toBitVec = @unpackSign .binary64 bits := by
  generalize @unpackSign .binary64 bits = sign
  revert sign
  decide

/-- Sign, exponent and fraction make up the bits again. -/
private theorem components_unpack (bits : BitVec 64) :
    packComponents .binary64 (Sign.ofBitVec (@unpackSign .binary64 bits))
      (@unpackExponent .binary64 bits) (@unpackMantissa .binary64 bits) = bits := by
  rw [packComponents, toBitVec_unpackSign]
  apply BitVec.eq_of_getLsbD_eq
  intro i bound
  change i < 64 at bound
  simp only [BitVec.getLsbD_append, unpackSign, unpackExponent, unpackMantissa, BitVec.getLsbD_cast,
    BitVec.getLsbD_extractLsb]
  by_cases low : i < 52
  · simp [low]
  · by_cases middle : i < 63
    · simp [low, show i - 52 < 11 by omega, show 52 + (i - 52) = i by omega]
    · obtain rfl : i = 63 := by omega
      simp [BitVec.getLsbD]

private theorem toNat_unpackExponent (bits : BitVec 64) :
    (@unpackExponent .binary64 bits).toNat = bits.toNat / 2 ^ 52 % 2048 := by
  simp [unpackExponent, BitVec.extractLsb_toNat, Nat.shiftRight_eq_div_pow]

private theorem toNat_unpackMantissa (bits : BitVec 64) :
    (@unpackMantissa .binary64 bits).toNat = bits.toNat % 2 ^ 52 := by
  simp [unpackMantissa, BitVec.extractLsb_toNat]

/-- The leading bit of a normal significand stands above the 52 bits of the fraction. -/
private theorem log2_significand (fraction : BitVec 52) : (1#1 ++ fraction).toNat.log2 = 52 := by
  have value : (1#1 ++ fraction).toNat = 2 ^ 52 + fraction.toNat := by
    rw [BitVec.toNat_append, ← Nat.shiftLeft_add_eq_or_of_lt fraction.isLt]
    simp [Nat.shiftLeft_eq]
  have bound := fraction.isLt
  rw [value]
  exact (Nat.log2_eq_iff (by omega)).mpr (by omega)

private theorem exponentBias_binary64 : Format.binary64.exponentBias = 1023 := by decide

private theorem pack_subnormal (bits : BitVec 64) (low : @unpackExponent .binary64 bits = 0#11)
    (positive : 0 < (@unpackMantissa .binary64 bits).toNat) :
    UnpackedFloat.pack .binary64 (.finite (Sign.ofBitVec (@unpackSign .binary64 bits))
      (@unpackMantissa .binary64 bits).toNat
      ((0 : Int) - (Format.binary64.exponentBias + 52 : Int) + 1) positive) = bits := by
  have small : (@unpackMantissa .binary64 bits).toNat.log2 < 52 :=
    (Nat.log2_lt positive.ne').mpr (@unpackMantissa .binary64 bits).isLt
  have biased : ((0 : Int) - (Format.binary64.exponentBias + 52 : Int) + 1 +
      Format.binary64.exponentBias + (52 : Nat)).toNat = 1 := by
    rw [exponentBias_binary64]
    decide
  simp only [UnpackedFloat.pack, biased]
  rw [if_neg (by decide), if_neg (by change ¬ _ = 53; omega), BitVec.ofNat_toNat,
    BitVec.setWidth_eq]
  exact (congrArg (packComponents .binary64 _ · _) low.symm).trans (components_unpack bits)

private theorem pack_normal (bits : BitVec 64)
    (low : (@unpackExponent .binary64 bits).toNat < 2047)
    (positive : 0 < (1#1 ++ @unpackMantissa .binary64 bits).toNat) :
    UnpackedFloat.pack .binary64 (.finite (Sign.ofBitVec (@unpackSign .binary64 bits))
      (1#1 ++ @unpackMantissa .binary64 bits).toNat
      ((@unpackExponent .binary64 bits).toNat -
        (Format.binary64.exponentBias + 52 : Int)) positive) = bits := by
  have biased : ((@unpackExponent .binary64 bits).toNat -
      (Format.binary64.exponentBias + 52 : Int) + Format.binary64.exponentBias + (52 : Nat)).toNat =
      (@unpackExponent .binary64 bits).toNat := by
    rw [exponentBias_binary64]
    omega
  have implicit : (1#1 ++ @unpackMantissa .binary64 bits).toNat.log2 + 1 =
      Format.binary64.mantissaBits := by
    rw [log2_significand]
    rfl
  simp only [UnpackedFloat.pack, biased]
  rw [if_neg (by change ¬ 2048 ≤ _; omega), if_pos implicit, BitVec.ofNat_toNat, BitVec.setWidth_eq]
  have fraction : BitVec.ofNat 52 (1#1 ++ @unpackMantissa .binary64 bits).toNat =
      @unpackMantissa .binary64 bits := by
    rw [BitVec.ofNat_toNat]
    exact BitVec.setWidth_append_eq_right
  exact (congrArg (packComponents .binary64 _ _) fraction).trans (components_unpack bits)

/-- Bits that do not spell the undefined number are not changed by unpacking and packing them. -/
private theorem pack_unpack (bits : BitVec 64)
    (regular : bits.toNat / 2 ^ 52 % 2048 ≠ 2047 ∨ bits.toNat % 2 ^ 52 = 0) :
    UnpackedFloat.pack .binary64 (UnpackedFloat.unpack .binary64 bits) = bits := by
  have whole := components_unpack bits
  have exponent := toNat_unpackExponent bits
  have mantissa := toNat_unpackMantissa bits
  have bound := (@unpackExponent .binary64 bits).isLt
  change _ < 2048 at bound
  simp only [UnpackedFloat.unpack]
  split_ifs with full void low empty
  · rw [full, void] at whole
    exact whole
  · rw [full] at exponent
    change 2047 = _ at exponent
    exact absurd (BitVec.eq_of_toNat_eq (mantissa.trans (by simp; omega))) void
  · rw [low, empty] at whole
    exact whole
  · have zero : (@unpackExponent .binary64 bits).toNat = 0 := by rw [low]; rfl
    simp only [zero]
    exact pack_subnormal bits low _
  · have notFull : (@unpackExponent .binary64 bits).toNat ≠ 2047 := fun same =>
      full (BitVec.eq_of_toNat_eq same)
    exact pack_normal bits (by omega) _

/-- The bits of a float made from bits, unless they spell the undefined number. -/
theorem toNat_toBits_ofBits (bits : Nat) (bound : bits < 2 ^ 64)
    (regular : bits / 2 ^ 52 % 2048 ≠ 2047 ∨ bits % 2 ^ 52 = 0) :
    (Float.ofBits (UInt64.ofNat bits)).toBits.toNat = bits := by
  have width : (UInt64.ofNat bits).toBitVec.toNat = bits := Nat.mod_eq_of_lt bound
  have same := pack_unpack (UInt64.ofNat bits).toBitVec (by rwa [width])
  change (UnpackedFloat.pack .binary64
    (UnpackedFloat.unpack .binary64 (UInt64.ofNat bits).toBitVec)).toNat = bits
  rw [same, width]

theorem signBit_eq : signBit = 2 ^ 63 := by decide

theorem exponentBit_eq : exponentBit = 2 ^ 52 := by decide

theorem unitsLimit_eq : unitsLimit = 2 ^ 2098 := Nat.one_shiftLeft 2098

theorem unitsPerOne_eq : unitsPerOne = 2 ^ 1074 := Nat.one_shiftLeft 1074

/-- The content of a float that is put together from a sign and the bits of a finite magnitude. -/
private theorem ofFloat_floatOfBits (negative : Bool) (magnitude : Nat)
    (bound : magnitude < 2047 * 2 ^ 52) :
    ofFloat (floatOfBits negative magnitude) =
      if magnitude / 2 ^ 52 = 0 then finite negative (magnitude % 2 ^ 52)
      else finite negative ((2 ^ 52 + magnitude % 2 ^ 52) <<< (magnitude / 2 ^ 52 - 1)) := by
  have bits : (floatOfBits negative magnitude).toBits.toNat =
      if negative then 2 ^ 63 + magnitude else magnitude := by
    rw [floatOfBits, signBit_eq]
    apply toNat_toBits_ofBits
    · split <;> omega
    · split <;> omega
  have sign : decide (2 ^ 63 ≤ (floatOfBits negative magnitude).toBits.toNat) = negative := by
    rw [bits]
    cases negative
    · simp; omega
    · simp
  have exponent : (floatOfBits negative magnitude).toBits.toNat / 2 ^ 52 % 2048 =
      magnitude / 2 ^ 52 := by
    rw [bits]
    split <;> omega
  have fraction : (floatOfBits negative magnitude).toBits.toNat % 2 ^ 52 = magnitude % 2 ^ 52 := by
    rw [bits]
    split <;> omega
  rw [ofFloat]
  simp only [signBit_eq, exponentBit_eq, sign, exponent, fraction]
  rw [if_neg (by omega)]

/-- Below the first normal magnitude the grid is made of single units. -/
private theorem gridShift_of_small {units : Nat} (small : units < 2 ^ 52) :
    gridShift units = 0 := by
  rcases Nat.eq_zero_or_pos units with rfl | positive
  · decide
  · have := (Nat.log2_lt positive.ne').mpr small
    rw [gridShift]
    omega

/-- From the first normal magnitude on, 53 bits stand above the grid spacing. -/
theorem gridShift_bounds {units : Nat} (large : 2 ^ 52 ≤ units) :
    2 ^ 52 * 2 ^ gridShift units ≤ units ∧ units < 2 ^ 53 * 2 ^ gridShift units := by
  have nonzero : units ≠ 0 := by omega
  have top : 52 ≤ units.log2 := (Nat.le_log2 nonzero).mpr large
  rw [← Nat.pow_add, ← Nat.pow_add, gridShift]
  refine ⟨(Nat.le_log2 nonzero).mp (by omega), (Nat.log2_lt nonzero).mp (by omega)⟩

theorem gridShift_of_bounds {units shift : Nat} (low : 2 ^ 52 * 2 ^ shift ≤ units)
    (high : units < 2 ^ 53 * 2 ^ shift) : gridShift units = shift := by
  rw [← Nat.pow_add] at low high
  have nonzero : units ≠ 0 := by
    have := Nat.two_pow_pos (52 + shift)
    omega
  have above := (Nat.le_log2 nonzero).mpr low
  have below := (Nat.log2_lt nonzero).mpr high
  rw [gridShift]
  omega

/-- A significand of 53 bits is on the float grid at every shift that keeps it below the limit. -/
theorem onGrid_of_significand {significand shift : Nat} (narrow : significand < 2 ^ 53)
    (low : shift ≤ 2045) : OnGrid (significand * 2 ^ shift) := by
  have below : significand * 2 ^ shift < 2 ^ (53 + shift) := by
    rw [Nat.pow_add]
    exact Nat.mul_lt_mul_of_pos_right narrow (Nat.two_pow_pos _)
  have fits : gridShift (significand * 2 ^ shift) ≤ shift := by
    rcases Nat.eq_zero_or_pos significand with rfl | positive
    · rw [Nat.zero_mul]
      exact Nat.zero_le _
    · have := (Nat.log2_lt (Nat.mul_pos positive (Nat.two_pow_pos shift)).ne').mpr below
      rw [gridShift]
      omega
  refine ⟨(Nat.pow_dvd_pow 2 fits).trans (Nat.dvd_mul_left ..), ?_⟩
  rw [unitsLimit_eq]
  exact Nat.lt_of_lt_of_le below (Nat.pow_le_pow_right (by decide) (by omega))

private theorem gridShift_le {units : Nat} (large : 2 ^ 52 ≤ units) (below : units < unitsLimit) :
    gridShift units ≤ 2045 := by
  rw [unitsLimit_eq] at below
  have := (Nat.log2_lt (by omega : units ≠ 0)).mpr below
  rw [gridShift]
  omega

/-- The content of every finite float lies on the float grid. -/
theorem onGrid_of_ofFloat {value : Float} {negative : Bool} {units : Nat}
    (content : ofFloat value = finite negative units) : OnGrid units := by
  simp only [ofFloat, exponentBit_eq] at content
  have fraction := Nat.mod_lt value.toBits.toNat (Nat.two_pow_pos 52)
  have exponent := Nat.mod_lt (value.toBits.toNat / 2 ^ 52) (by decide : 0 < 2048)
  split_ifs at content with full void low
  · injection content with _ same
    subst same
    simpa using @onGrid_of_significand _ 0 (by omega) (by omega)
  · injection content with _ same
    subst same
    rw [Nat.shiftLeft_eq]
    exact onGrid_of_significand (by omega) (by omega)

/-- A magnitude on the float grid is the content of the float made from it. -/
theorem ofFloat_toFloat_finite {units : Nat} (grid : OnGrid units) (negative : Bool) :
    ofFloat (finite negative units).toFloat = finite negative units := by
  obtain ⟨multiple, below⟩ := grid
  rw [toFloat, magnitudeBits, exponentBit_eq, Nat.shiftRight_eq_div_pow]
  rcases Nat.lt_or_ge units (2 ^ 52) with small | large
  · rw [gridShift_of_small small, ofFloat_floatOfBits _ _ (by omega)]
    rw [if_pos (by omega)]
    congr 1
    omega
  · obtain ⟨low, high⟩ := gridShift_bounds large
    have shift := gridShift_le large below
    generalize gridShift units = spacing at *
    obtain ⟨significand, rfl⟩ := multiple
    rw [Nat.mul_comm (2 ^ spacing)] at low high ⊢
    have above := Nat.le_of_mul_le_mul_right low (Nat.two_pow_pos _)
    have narrow := Nat.lt_of_mul_lt_mul_right high
    rw [Nat.mul_div_cancel _ (Nat.two_pow_pos _), ofFloat_floatOfBits _ _ (by omega)]
    rw [if_neg (by omega), Nat.shiftLeft_eq]
    congr 2
    · omega
    · congr 1
      omega

private theorem compare_finite_zero (sign : Sign) (mantissa : Nat) (exponent : Int)
    (positive : 0 < mantissa) :
    (UnpackedFloat.finite sign mantissa exponent positive).compare (.zero .positive) ≠
      some .eq := by
  cases sign <;> simp [UnpackedFloat.compare]

/-- Only the two zeros compare equal to zero. -/
private theorem unpack_of_compare_zero {bits : BitVec 64}
    (equal : (UnpackedFloat.unpack .binary64 bits).compare (.zero .positive) = some .eq) :
    @unpackExponent .binary64 bits = 0#11 ∧ @unpackMantissa .binary64 bits = 0#52 := by
  simp only [UnpackedFloat.unpack] at equal
  split_ifs at equal with full empty low none
  · generalize Sign.ofBitVec _ = sign at equal
    cases sign <;> contradiction
  · contradiction
  · exact ⟨low, none⟩
  · exact (compare_finite_zero _ _ _ _ equal).elim
  · exact (compare_finite_zero _ _ _ _ equal).elim

/-- A float that compares equal to zero has no units. -/
theorem ofFloat_of_beq_zero {value : Float} (equal : (value == 0.0) = true) :
    ∃ negative, ofFloat value = finite negative 0 := by
  have zero : (0.0 : Float).toBits = 0 := by decide +kernel
  change (UnpackedFloat.compare (.unpack .binary64 value.toBits.toBitVec)
    (.unpack .binary64 (0.0 : Float).toBits.toBitVec) == some Ordering.eq) = true at equal
  rw [zero] at equal
  obtain ⟨low, none⟩ := unpack_of_compare_zero (beq_iff_eq.mp equal)
  have exponent : value.toBits.toNat / 2 ^ 52 % 2048 = 0 := by
    have same := congrArg BitVec.toNat low
    rwa [toNat_unpackExponent] at same
  have fraction : value.toBits.toNat % 2 ^ 52 = 0 := by
    have same := congrArg BitVec.toNat none
    rwa [toNat_unpackMantissa] at same
  refine ⟨decide (signBit ≤ value.toBits.toNat), ?_⟩
  rw [ofFloat]
  simp only [exponentBit_eq, exponent, fraction]
  rfl

/-- An infinity is the content of the float made from it. -/
theorem ofFloat_toFloat_infinite (negative : Bool) :
    ofFloat (infinite negative).toFloat = infinite negative := by
  cases negative <;> decide +kernel

/-- The undefined number is the content of the float made from it. -/
theorem ofFloat_toFloat_nan : ofFloat nan.toFloat = nan := by decide +kernel

private theorem isFinite_unpack_iff (bits : BitVec 64) :
    (UnpackedFloat.unpack .binary64 bits).isFinite = true ↔
      @unpackExponent .binary64 bits ≠ -1#11 := by
  simp only [UnpackedFloat.unpack]
  split_ifs with full void low empty
  · exact iff_of_false Bool.false_ne_true (absurd full)
  · exact iff_of_false Bool.false_ne_true (absurd full)
  · exact iff_of_true rfl full
  · exact iff_of_true rfl full
  · exact iff_of_true rfl full

/-- A float is finite exactly if its exponent bits are not all set. -/
private theorem isFinite_iff_exponent {value : Float} :
    value.isFinite = true ↔ value.toBits.toNat / 2 ^ 52 % 2048 ≠ 2047 := by
  refine (isFinite_unpack_iff value.toBits.toBitVec).trans (not_congr ?_)
  rw [← BitVec.toNat_inj, toNat_unpackExponent]
  exact Iff.rfl

/-- A float is finite exactly if its content is a number of units. -/
theorem isFinite_iff {value : Float} :
    value.isFinite = true ↔ ∃ negative units, ofFloat value = finite negative units := by
  rw [isFinite_iff_exponent, ofFloat, exponentBit_eq]
  split_ifs with full void low
  · exact iff_of_false (absurd full) (by simp)
  · exact iff_of_false (absurd full) (by simp)
  · exact iff_of_true full ⟨_, _, rfl⟩
  · exact iff_of_true full ⟨_, _, rfl⟩

/-- Bits that do not spell the undefined number come back from the float made from them. -/
private theorem ofBits_toBits {value : Float}
    (regular : value.toBits.toNat / 2 ^ 52 % 2048 ≠ 2047) : Float.ofBits value.toBits = value := by
  obtain ⟨⟨bits, valid⟩⟩ := value
  have same := pack_unpack bits.toBitVec (.inl regular)
  change Float.ofModel (.ofBits bits) = Float.ofModel ⟨bits, valid⟩
  congr 1
  simp only [Float.Model.ofBits, Float.Model.pack, same, UInt64.ofBitVec_toBitVec]

/-- Sign, exponent and fraction make up the bits of a finite float again. -/
private theorem floatOfBits_toBits {value : Float}
    (regular : value.toBits.toNat / 2 ^ 52 % 2048 ≠ 2047) :
    floatOfBits (decide (signBit ≤ value.toBits.toNat))
      (value.toBits.toNat / 2 ^ 52 % 2048 * 2 ^ 52 + value.toBits.toNat % 2 ^ 52) = value := by
  have bound : value.toBits.toNat < 2 ^ 64 := value.toBits.toBitVec.isLt
  rw [floatOfBits, signBit_eq]
  have bits : (if decide (2 ^ 63 ≤ value.toBits.toNat) = true then
      2 ^ 63 + (value.toBits.toNat / 2 ^ 52 % 2048 * 2 ^ 52 + value.toBits.toNat % 2 ^ 52)
      else value.toBits.toNat / 2 ^ 52 % 2048 * 2 ^ 52 + value.toBits.toNat % 2 ^ 52) =
      value.toBits.toNat := by
    simp only [decide_eq_true_eq]
    split_ifs <;> omega
  rw [bits, UInt64.ofNat_toNat]
  exact ofBits_toBits regular

/-- A finite float is the float made from its content. -/
theorem toFloat_ofFloat {value : Float} (finite : value.isFinite = true) :
    (ofFloat value).toFloat = value := by
  have regular := isFinite_iff_exponent.mp finite
  have bits := floatOfBits_toBits regular
  have fraction := Nat.mod_lt value.toBits.toNat (Nat.two_pow_pos 52)
  have exponent := Nat.mod_lt (value.toBits.toNat / 2 ^ 52) (by decide : 0 < 2048)
  simp only [ofFloat, exponentBit_eq]
  generalize value.toBits.toNat / 2 ^ 52 % 2048 = lifted at *
  generalize value.toBits.toNat % 2 ^ 52 = rest at *
  rw [if_neg regular]
  split_ifs with low
  · subst low
    rw [toFloat, magnitudeBits, gridShift_of_small fraction]
    simpa using bits
  · have shift : gridShift ((2 ^ 52 + rest) * 2 ^ (lifted - 1)) = lifted - 1 :=
      gridShift_of_bounds (Nat.mul_le_mul_right _ (by omega))
        (Nat.mul_lt_mul_of_pos_right (by omega) (Nat.two_pow_pos _))
    rw [toFloat, magnitudeBits, Nat.shiftLeft_eq, shift, Nat.shiftRight_eq_div_pow,
      Nat.mul_div_cancel _ (Nat.two_pow_pos _), exponentBit_eq]
    rw [show (lifted - 1) * 2 ^ 52 + (2 ^ 52 + rest) = lifted * 2 ^ 52 + rest by omega]
    exact bits

end Toolpath.Exact
