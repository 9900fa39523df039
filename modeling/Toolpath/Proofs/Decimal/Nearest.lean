import Mathlib
import Toolpath.Decimal.Fixed
import Toolpath.Proofs.Decimal.Content

/-! # Nearest floats and stable decimal places

`Exact.nearestUnits` picks a point of the float grid that is no farther from the quotient than any
other. Writing a float with a number of places and taking the float nearest to what was written may
move it, but never to where the same number of places would write it differently: the new float is
at least as near to the written decimal as the old one was, and a tie goes to the even count.
-/

namespace Toolpath

/-- Distance of two natural numbers. -/
def gap (a b : Nat) : Nat := (a - b) + (b - a)

theorem gap_comm (a b : Nat) : gap a b = gap b a := Nat.add_comm ..

theorem gap_mul_right (a b scale : Nat) : gap (a * scale) (b * scale) = gap a b * scale := by
  rw [gap, gap, ← Nat.sub_mul, ← Nat.sub_mul, Nat.add_mul]

/-- `count` is nearest to `num / den`, and even if another count is as near. -/
def RoundsTo (num den count : Nat) : Prop :=
  2 * gap (count * den) num ≤ den ∧ (2 * gap (count * den) num = den → count % 2 = 0)

/-- Rounding half to even gives the one count that is nearest, and even in a tie. -/
theorem roundHalfEven_eq_iff {den : Nat} (positive : 0 < den) (num count : Nat) :
    roundHalfEven num den = count ↔ RoundsTo num den count := by
  have whole := Nat.div_add_mod num den
  have rest := Nat.mod_lt num positive
  simp only [roundHalfEven, RoundsTo, gap]
  generalize num / den = quotient at *
  generalize num % den = remainder at *
  have next : (quotient + 1) * den = den * quotient + den := by ring
  have same : quotient * den = den * quotient := Nat.mul_comm ..
  constructor
  · rintro rfl
    split_ifs with less more
    · rw [same]
      omega
    · rw [next]
      omega
    · rcases Nat.mod_two_eq_zero_or_one quotient with even | odd
      · rw [even, Nat.add_zero, same]
        omega
      · rw [odd, next]
        omega
  · rintro ⟨near, tie⟩
    -- A count that is near enough is the quotient or the one after it.
    have low : quotient ≤ count := by
      by_contra below
      have : (count + 1) * den ≤ quotient * den := Nat.mul_le_mul_right _ (by omega)
      rw [Nat.add_mul] at this
      omega
    have high : count ≤ quotient + 1 := by
      by_contra above
      have : (quotient + 2) * den ≤ count * den := Nat.mul_le_mul_right _ (by omega)
      rw [Nat.add_mul] at this
      omega
    rcases (by omega : count = quotient ∨ count = quotient + 1) with rfl | rfl
    · rw [same] at near tie
      split_ifs <;> omega
    · rw [next] at near tie
      split_ifs <;> omega

theorem roundsTo_roundHalfEven {den : Nat} (positive : 0 < den) (num : Nat) :
    RoundsTo num den (roundHalfEven num den) :=
  (roundHalfEven_eq_iff positive num _).mp rfl

/-- A count that is rounded to is as near as any other. -/
theorem RoundsTo.le_gap {num den count : Nat} (rounds : RoundsTo num den count) (other : Nat) :
    gap (count * den) num ≤ gap (other * den) num := by
  obtain ⟨near, -⟩ := rounds
  simp only [gap] at near ⊢
  rcases Nat.lt_trichotomy other count with less | rfl | more
  · have := Nat.mul_le_mul_right den (show other + 1 ≤ count from less)
    rw [Nat.add_mul] at this
    omega
  · exact Nat.le_refl _
  · have := Nat.mul_le_mul_right den (show count + 1 ≤ other from more)
    rw [Nat.add_mul] at this
    omega

/-- Anything at least as near to a rounded count as the number itself rounds to the same count. -/
theorem RoundsTo.of_gap_le {num den count other : Nat} (rounds : RoundsTo num den count)
    (nearer : gap (count * den) other ≤ gap (count * den) num) : RoundsTo other den count := by
  obtain ⟨near, tie⟩ := rounds
  exact ⟨by omega, fun same => tie (by omega)⟩

namespace Exact

section Grid

variable {num den : Nat} (positive : 0 < den)
include positive

/-- The quotient lies below the 54th bit above the grid spacing. -/
private theorem lt_grid_top :
    num * unitsPerOne < 2 ^ 53 * (den * 2 ^ gridShift (num * unitsPerOne / den)) := by
  have bound : num * unitsPerOne / den < 2 ^ 53 * 2 ^ gridShift (num * unitsPerOne / den) := by
    rw [← Nat.pow_add]
    refine Nat.lt_of_lt_of_le Nat.lt_log2_self (Nat.pow_le_pow_right (by decide) ?_)
    rw [gridShift]
    omega
  rw [Nat.div_lt_iff_lt_mul positive] at bound
  calc
    _ < _ := bound
    _ = _ := by ring

/-- The nearest units are a multiple of the grid spacing around them. -/
theorem dvd_nearestUnits : 2 ^ gridShift (nearestUnits num den) ∣ nearestUnits num den := by
  have top := @lt_grid_top num den positive
  simp only [nearestUnits, Nat.one_shiftLeft]
  generalize gridShift (num * unitsPerOne / den) = shift at *
  have spacing : 0 < den * 2 ^ shift := Nat.mul_pos positive (Nat.two_pow_pos _)
  obtain ⟨near, -⟩ := roundsTo_roundHalfEven spacing (num * unitsPerOne)
  generalize roundHalfEven (num * unitsPerOne) (den * 2 ^ shift) = count at *
  have fits : count ≤ 2 ^ 53 := by
    by_contra above
    have : (2 ^ 53 + 1) * (den * 2 ^ shift) ≤ count * (den * 2 ^ shift) :=
      Nat.mul_le_mul_right _ (by omega)
    rw [Nat.add_mul] at this
    simp only [gap] at near
    omega
  rcases Nat.lt_or_eq_of_le fits with narrow | rfl
  · rcases Nat.eq_zero_or_pos count with rfl | nonzero
    · simp
    · have below : count * 2 ^ shift < 2 ^ (53 + shift) := by
        rw [Nat.pow_add]
        exact Nat.mul_lt_mul_of_pos_right narrow (Nat.two_pow_pos _)
      have log := (Nat.log2_lt (Nat.mul_pos nonzero (Nat.two_pow_pos _)).ne').mpr below
      exact (Nat.pow_dvd_pow 2 (by rw [gridShift]; omega)).trans (Nat.dvd_mul_left ..)
  · rw [@gridShift_of_bounds _ (shift + 1) (by rw [Nat.pow_succ]; omega)
      (by rw [Nat.pow_succ]; have := Nat.two_pow_pos shift; omega), Nat.pow_succ]
    exact ⟨2 ^ 52, by ring⟩

/-- Where the grid is coarser than the units, the quotient lies at or above the 53rd bit. -/
private theorem grid_bottom_le (coarse : gridShift (num * unitsPerOne / den) ≠ 0) :
    2 ^ 52 * (den * 2 ^ gridShift (num * unitsPerOne / den)) ≤ num * unitsPerOne := by
  have large : 2 ^ 52 ≤ num * unitsPerOne / den := by
    by_contra small
    rw [gridShift] at coarse
    have := (Nat.log2_lt (n := num * unitsPerOne / den) (k := 52) (by
      rintro zero
      rw [zero] at coarse
      simp at coarse)).mpr (by omega)
    omega
  have := (Nat.le_div_iff_mul_le positive).mp (gridShift_bounds large).1
  calc
    _ = _ := by ring
    _ ≤ _ := this

/-- The nearest units are half a unit away from the quotient, or closer than its 53rd bit. -/
theorem two_mul_gap_nearestUnits_le :
    2 * gap (nearestUnits num den * den) (num * unitsPerOne) ≤ den ∨
      2 ^ 53 * gap (nearestUnits num den * den) (num * unitsPerOne) ≤ num * unitsPerOne := by
  have bottom := @grid_bottom_le num den positive
  simp only [nearestUnits, Nat.one_shiftLeft]
  generalize gridShift (num * unitsPerOne / den) = shift at *
  have spacing : 0 < den * 2 ^ shift := Nat.mul_pos positive (Nat.two_pow_pos _)
  obtain ⟨near, -⟩ := roundsTo_roundHalfEven spacing (num * unitsPerOne)
  generalize roundHalfEven (num * unitsPerOne) (den * 2 ^ shift) = count at *
  rw [show count * 2 ^ shift * den = count * (den * 2 ^ shift) by ring]
  rcases Nat.eq_zero_or_pos shift with rfl | coarse
  · left
    rwa [Nat.pow_zero, Nat.mul_one] at near ⊢
  · right
    have := bottom coarse.ne'
    omega

/-- No point of the float grid is nearer to the quotient than the nearest units. -/
theorem gap_nearestUnits_le {units : Nat} (grid : 2 ^ gridShift units ∣ units) :
    gap (nearestUnits num den * den) (num * unitsPerOne) ≤
      gap (units * den) (num * unitsPerOne) := by
  have bottom := @grid_bottom_le num den positive
  simp only [nearestUnits, Nat.one_shiftLeft]
  generalize gridShift (num * unitsPerOne / den) = shift at *
  have spacing : 0 < den * 2 ^ shift := Nat.mul_pos positive (Nat.two_pow_pos _)
  have nearest := (roundsTo_roundHalfEven spacing (num * unitsPerOne)).le_gap
  generalize roundHalfEven (num * unitsPerOne) (den * 2 ^ shift) = count at *
  have scale (k : Nat) : k * (den * 2 ^ shift) = k * 2 ^ shift * den := by ring
  simp only [scale] at nearest
  rcases Nat.lt_or_ge (gridShift units) shift with finer | coarser
  · -- A point of a finer grid lies below the binade of the quotient, whose first point is nearer.
    have below : units < 2 ^ 52 * 2 ^ shift := by
      rw [← Nat.pow_add]
      refine Nat.lt_of_lt_of_le Nat.lt_log2_self (Nat.pow_le_pow_right (by decide) ?_)
      rw [gridShift] at finer
      omega
    have first := nearest (2 ^ 52)
    have low := bottom (by omega)
    have under : units * den ≤ 2 ^ 52 * 2 ^ shift * den := Nat.mul_le_mul_right _ below.le
    rw [scale] at low
    simp only [gap] at first ⊢
    omega
  · obtain ⟨k, rfl⟩ := (Nat.pow_dvd_pow 2 coarser).trans grid
    rw [Nat.mul_comm (2 ^ shift)]
    exact nearest k

end Grid

/-- One whole above a finite float is still below the limit. -/
theorem OnGrid.add_unitsPerOne_lt {units : Nat} (grid : OnGrid units) :
    units + unitsPerOne < unitsLimit := by
  obtain ⟨multiple, below⟩ := grid
  have split : unitsLimit = 2 ^ 53 * 2 ^ 2045 := by rw [unitsLimit_eq, ← Nat.pow_add]
  have one : unitsPerOne < 2 ^ 2045 := by
    rw [unitsPerOne_eq]
    exact Nat.pow_lt_pow_right (by decide) (by decide)
  rw [split] at below ⊢
  rcases Nat.lt_or_ge units (2 ^ 52 * 2 ^ 2045) with small | large
  · generalize 2 ^ 2045 = spacing at *
    omega
  · rw [gridShift_of_bounds large below] at multiple
    generalize 2 ^ 2045 = spacing at *
    obtain ⟨count, rfl⟩ := multiple
    rw [Nat.mul_comm] at below
    have fits : (count + 1) * spacing ≤ 2 ^ 53 * spacing :=
      Nat.mul_le_mul_right _ (Nat.lt_of_mul_lt_mul_right below)
    rw [Nat.add_mul, Nat.mul_comm count] at fits
    omega

end Exact

namespace Fixed

open Exact

theorem tenTo_pos (power : Nat) : 0 < tenTo power := Nat.pow_pos (by decide)

theorem unitsPerOne_pos : 0 < unitsPerOne := by
  rw [unitsPerOne_eq]
  exact Nat.two_pow_pos _

/-- The float nearest to a finite float's decimal with some places: it is finite, and the same
number of places writes it as the same decimal. -/
theorem scaled_nearestUnits {units : Nat} (grid : OnGrid units) (places : Nat) :
    OnGrid (nearestUnits (scaled units places) (tenTo places)) ∧
      scaled (nearestUnits (scaled units places) (tenTo places)) places = scaled units places := by
  have rounds := roundsTo_roundHalfEven unitsPerOne_pos (units * tenTo places)
  have nearer := @gap_nearestUnits_le (scaled units places) _ (tenTo_pos places) _ grid.1
  have divides := @dvd_nearestUnits (scaled units places) _ (tenTo_pos places)
  change RoundsTo _ _ (scaled units places) at rounds
  generalize scaled units places = count at *
  generalize nearestUnits count (tenTo places) = nearest at *
  refine ⟨⟨divides, ?_⟩, ?_⟩
  · -- The decimal is at most half a whole away from the float, and the nearest float no farther.
    have half := rounds.1
    have close : nearest * tenTo places ≤ (units + unitsPerOne) * tenTo places := by
      have := Nat.le_mul_of_pos_right unitsPerOne (tenTo_pos places)
      rw [Nat.add_mul]
      simp only [gap] at half nearer
      omega
    exact Nat.lt_of_le_of_lt (Nat.le_of_mul_le_mul_right close (tenTo_pos places))
      grid.add_unitsPerOne_lt
  · apply (roundHalfEven_eq_iff unitsPerOne_pos _ _).mpr
    apply rounds.of_gap_le
    simp only [gap] at nearer ⊢
    omega

@[simp] theorem trimZeros_zero (places : Nat) : trimZeros 0 places = (0, 0) := by
  induction places with
  | zero => rfl
  | succ places ih => simpa [trimZeros] using ih

/-- The float that a float becomes when it is written with some places and read again. -/
def settled (places : Nat) (value : Float) : Float :=
  match ofFloat value with
  | .finite negative units =>
    let count := scaled units (min places filledPlaces)
    (Exact.nearest (negative && count != 0) count (tenTo (min places filledPlaces))).toFloat
  | content => content.toFloat

/-- Writing a float again with the same number of places changes nothing. -/
theorem chars_settled (places : Nat) (value : Float) :
    chars places (settled places value) = chars places value := by
  rw [chars, settled]
  cases content : ofFloat value with
  | nan => simp only [chars, content, ofFloat_toFloat_nan]
  | infinite negative => simp only [chars, content, ofFloat_toFloat_infinite]
  | finite negative units =>
    obtain ⟨grid, stable⟩ :=
      scaled_nearestUnits (onGrid_of_ofFloat content) (min places filledPlaces)
    simp only [chars, content, Exact.nearest, if_pos grid.2, ofFloat_toFloat_finite grid, magnitude,
      stable]
    generalize scaled units (min places filledPlaces) = count
    rcases Nat.eq_zero_or_pos count with rfl | nonzero
    · simp
    · simp [nonzero.ne']

end Fixed

end Toolpath
