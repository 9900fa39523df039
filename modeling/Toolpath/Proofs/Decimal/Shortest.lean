import Mathlib
import Toolpath.Decimal.Shortest
import Toolpath.Proofs.Decimal.Reading

/-! # The shortest decimal of a float reads as the float

A fraction that lies among the reals of `Rounding.ofUnits` has the float as its nearest one, and the
search for the shortest decimal always finds such a fraction: the finest grid that it looks at has
steps of less than half a unit.
-/

namespace Toolpath

open Exact

namespace Rounding

/-- A fraction rounds to the float if it lies between the ends, and at an end only if the ends
themselves do. -/
theorem holds_iff {r : Rounding} {num den : Nat} :
    r.holds num den = true ↔ r.low * den ≤ num ∧ num ≤ r.high * den ∧
      (r.low * den = num ∨ num = r.high * den → r.closed = true) := by
  rw [holds]
  cases r.closed with
  | true => simp
  | false =>
    simp only [Bool.false_eq_true, if_false, Bool.and_eq_true, decide_eq_true_iff, imp_false]
    omega

/-- How far below a float the reals still round to it, in quarters of a unit. -/
private def reachBelow (units : Nat) : Nat :=
  if units = 2 ^ 52 * 2 ^ gridShift units ∧ 0 < gridShift units then 2 ^ gridShift units
  else 2 * 2 ^ gridShift units

private theorem low_ofUnits (units : Nat) : (ofUnits units).low = 4 * units - reachBelow units := by
  simp only [ofUnits, reachBelow, Nat.one_shiftLeft, exponentBit_eq, Bool.and_eq_true,
    decide_eq_true_iff]

private theorem high_ofUnits (units : Nat) :
    (ofUnits units).high = 4 * units + 2 * 2 ^ gridShift units := by
  simp only [ofUnits, Nat.one_shiftLeft]

private theorem closed_ofUnits (units : Nat) :
    (ofUnits units).closed = decide (units / 2 ^ gridShift units % 2 = 0) := by
  simp only [ofUnits, Nat.one_shiftLeft]

private theorem gridShift_of_lt {units : Nat} (small : units < 2 ^ 53) : gridShift units = 0 := by
  rcases Nat.eq_zero_or_pos units with rfl | positive
  · decide
  · have := (Nat.log2_lt positive.ne').mpr small
    rw [gridShift]
    omega

section Nearest

variable {units num den : Nat} (positive : 0 < den)
include positive

/-- A quotient whose grid is that of the float rounds to the float within half a spacing. -/
private theorem nearestUnits_of_same_grid (grid : 2 ^ gridShift units ∣ units)
    (same : gridShift (num * unitsPerOne / den) = gridShift units)
    (above : 2 * (num * unitsPerOne) ≤ 2 * (units * den) + 2 ^ gridShift units * den)
    (below : 2 * (units * den) ≤ 2 * (num * unitsPerOne) + 2 ^ gridShift units * den)
    (tie : 2 * (num * unitsPerOne) = 2 * (units * den) + 2 ^ gridShift units * den ∨
      2 * (units * den) = 2 * (num * unitsPerOne) + 2 ^ gridShift units * den →
        units / 2 ^ gridShift units % 2 = 0) :
    nearestUnits num den = units := by
  simp only [nearestUnits, Nat.one_shiftLeft, same]
  have spacing : 0 < den * 2 ^ gridShift units := Nat.mul_pos positive (Nat.two_pow_pos _)
  have counted : units / 2 ^ gridShift units * 2 ^ gridShift units = units :=
    Nat.div_mul_cancel grid
  have rounded : roundHalfEven (num * unitsPerOne) (den * 2 ^ gridShift units) =
      units / 2 ^ gridShift units := by
    apply (roundHalfEven_eq_iff spacing _ _).mpr
    have product : units / 2 ^ gridShift units * (den * 2 ^ gridShift units) = units * den := by
      rw [Nat.mul_comm den, ← Nat.mul_assoc, counted]
    rw [RoundsTo, product, Nat.mul_comm den]
    simp only [gap]
    generalize units * den = target at *
    generalize num * unitsPerOne = value at *
    generalize 2 ^ gridShift units * den = reach at *
    omega
  rw [rounded, counted]

/-- Just below a power of two the grid is finer, and the power is reached from within half of the
finer spacing. -/
private theorem nearestUnits_of_finer_grid {shift : Nat} (first : units = 2 ^ 53 * 2 ^ shift)
    (below : num * unitsPerOne < units * den)
    (near : 2 * (units * den) ≤ 2 * (num * unitsPerOne) + 2 ^ shift * den) :
    nearestUnits num den = units := by
  have same : gridShift (num * unitsPerOne / den) = shift := by
    apply gridShift_of_bounds
    · apply (Nat.le_div_iff_mul_le positive).mpr
      have : units * den = 2 ^ 53 * (2 ^ shift * den) := by rw [first, Nat.mul_assoc]
      rw [Nat.mul_assoc]
      generalize 2 ^ shift * den = reach at *
      omega
    · apply (Nat.div_lt_iff_lt_mul positive).mpr
      rwa [← first]
  simp only [nearestUnits, Nat.one_shiftLeft, same]
  have rounded : roundHalfEven (num * unitsPerOne) (den * 2 ^ shift) = 2 ^ 53 := by
    apply (roundHalfEven_eq_iff (Nat.mul_pos positive (Nat.two_pow_pos _)) _ _).mpr
    have product : 2 ^ 53 * (den * 2 ^ shift) = units * den := by
      rw [Nat.mul_comm den, ← Nat.mul_assoc, first]
    rw [RoundsTo, product, Nat.mul_comm den]
    simp only [gap]
    generalize units * den = target at *
    generalize num * unitsPerOne = value at *
    generalize 2 ^ shift * den = reach at *
    omega
  rw [rounded, first]

/-- The grid of a quotient that rounds to a float is that of the float, unless the float is a power of
two and the quotient is below it. -/
private theorem gridShift_of_near (nonzero : 0 < units) (grid : 2 ^ gridShift units ∣ units)
    (above : 2 * (num * unitsPerOne) ≤ 2 * (units * den) + 2 ^ gridShift units * den)
    (below : 2 * (units * den) ≤ 2 * (num * unitsPerOne) + 2 ^ gridShift units * den)
    (first : units = 2 ^ 52 * 2 ^ gridShift units → 0 < gridShift units →
      units * den ≤ num * unitsPerOne) :
    gridShift (num * unitsPerOne / den) = gridShift units := by
  rcases Nat.eq_zero_or_pos (gridShift units) with fine | coarse
  · rw [fine] at above ⊢
    have small : units ≤ 2 ^ 53 - 1 := by
      rw [gridShift] at fine
      have := (Nat.log2_lt (k := 53) nonzero.ne').mp (by omega)
      omega
    have most : units * den ≤ (2 ^ 53 - 1) * den := Nat.mul_le_mul_right _ small
    apply gridShift_of_lt
    apply (Nat.div_lt_iff_lt_mul positive).mpr
    omega
  · have large : 2 ^ 52 ≤ units := by
      rw [gridShift] at coarse
      exact (Nat.le_log2 nonzero.ne').mp (by omega)
    obtain ⟨low, high⟩ := gridShift_bounds large
    generalize gridShift units = shift at *
    obtain ⟨count, rfl⟩ := grid
    have least : 2 ^ 52 ≤ count :=
      Nat.le_of_mul_le_mul_left (Nat.mul_comm _ (2 ^ shift) ▸ low) (Nat.two_pow_pos shift)
    have most : count < 2 ^ 53 :=
      Nat.lt_of_mul_lt_mul_left (Nat.mul_comm (2 ^ 53) (2 ^ shift) ▸ high)
    have product : 2 ^ shift * count * den = count * (2 ^ shift * den) := by ring
    rw [product] at above below first
    apply gridShift_of_bounds
    · apply (Nat.le_div_iff_mul_le positive).mpr
      rw [Nat.mul_assoc]
      rcases Nat.eq_or_lt_of_le least with rfl | more
      · exact first (Nat.mul_comm ..) coarse
      · have : (2 ^ 52 + 1) * (2 ^ shift * den) ≤ count * (2 ^ shift * den) :=
          Nat.mul_le_mul_right _ more
        generalize 2 ^ shift * den = reach at *
        omega
    · apply (Nat.div_lt_iff_lt_mul positive).mpr
      rw [Nat.mul_assoc]
      have : (count + 1) * (2 ^ shift * den) ≤ 2 ^ 53 * (2 ^ shift * den) :=
        Nat.mul_le_mul_right _ most
      have reached : 0 < 2 ^ shift * den := Nat.mul_pos (Nat.two_pow_pos _) positive
      rw [Nat.add_mul] at this
      generalize 2 ^ shift * den = reach at *
      omega

/-- What rounds to a float has the float as its nearest one. -/
theorem nearestUnits_of_holds (nonzero : 0 < units) (grid : 2 ^ gridShift units ∣ units)
    (holds : (ofUnits units).holds (num * quartersPerOne) den = true) :
    nearestUnits num den = units := by
  obtain ⟨low, high, tie⟩ := holds_iff.mp holds
  have scale : num * quartersPerOne = 4 * (num * unitsPerOne) := by rw [quartersPerOne]; ring
  rw [scale] at low high tie
  rw [low_ofUnits, Nat.sub_mul, Nat.mul_assoc] at low tie
  rw [high_ofUnits, Nat.add_mul, Nat.mul_assoc, Nat.mul_assoc] at high tie
  rw [closed_ofUnits, decide_eq_true_iff] at tie
  by_cases finer : (units = 2 ^ 52 * 2 ^ gridShift units ∧ 0 < gridShift units) ∧
      num * unitsPerOne < units * den
  · obtain ⟨⟨power, coarse⟩, less⟩ := finer
    rw [reachBelow, if_pos ⟨power, coarse⟩] at low
    obtain ⟨shift, next⟩ := Nat.exists_eq_add_of_lt coarse
    rw [Nat.zero_add] at next
    have double : 2 ^ gridShift units = 2 * 2 ^ shift := by rw [next, Nat.pow_succ, Nat.mul_comm]
    rw [double] at power low
    have first : units = 2 ^ 53 * 2 ^ shift := by omega
    rw [Nat.mul_assoc] at low
    exact nearestUnits_of_finer_grid positive first less (by omega)
  · have most : reachBelow units * den ≤ 2 * (2 ^ gridShift units * den) := by
      rw [reachBelow, ← Nat.mul_assoc]
      apply Nat.mul_le_mul_right
      split_ifs <;> omega
    have first : units = 2 ^ 52 * 2 ^ gridShift units → 0 < gridShift units →
        units * den ≤ num * unitsPerOne := by
      intro power coarse
      exact Nat.le_of_not_lt fun less => finer ⟨⟨power, coarse⟩, less⟩
    have same := gridShift_of_near positive nonzero grid (by omega) (by omega) first
    apply nearestUnits_of_same_grid positive grid same
    · omega
    · omega
    · intro half
      apply tie
      omega

end Nearest

/-! ## There is a shortest decimal -/

/-- A decimal that is found on a grid rounds to the float, and it is not zero. -/
theorem holds_of_onGrid? {r : Rounding} {tie : Tie} {power : Int} {coefficient : Nat}
    (found : r.onGrid? tie power = some coefficient) :
    0 < coefficient ∧ r.holds (coefficient * (quartersPerOne * tenTo power.toNat))
      (tenTo (-power).toNat) = true := by
  simp only [onGrid?] at found
  generalize quartersPerOne * tenTo power.toNat = step at *
  generalize tenTo (-power).toNat = den at *
  generalize r.value * den / step = lower at *
  have fromLower (holds : (decide (0 < lower) && r.holds (lower * step) den) = true) :
      0 < lower ∧ r.holds (lower * step) den = true := by
    simpa using holds
  split_ifs at found with both takesUpper only other
  · obtain rfl := Option.some.inj found
    exact ⟨Nat.succ_pos _, (Bool.and_eq_true_iff.mp both).2⟩
  · obtain rfl := Option.some.inj found
    exact fromLower (Bool.and_eq_true_iff.mp both).1
  · obtain rfl := Option.some.inj found
    exact fromLower only
  · obtain rfl := Option.some.inj found
    exact ⟨Nat.succ_pos _, other⟩

/-- The reals that round to a float reach half a unit down and a quarter up at least. -/
private theorem reach_ofUnits (units : Nat) :
    (ofUnits units).low ≤ 4 * units - 2 ∧ 4 * units + 1 ≤ (ofUnits units).high := by
  have spacing := Nat.two_pow_pos (gridShift units)
  constructor
  · rw [low_ofUnits, reachBelow]
    split_ifs with first
    · have : 2 ^ 1 ≤ 2 ^ gridShift units := Nat.pow_le_pow_right (by decide) first.2
      omega
    · omega
  · rw [high_ofUnits]
    omega

/-- On a grid with steps of at most half a unit, the point below a float rounds to the float. -/
private theorem holds_of_fine {units step den : Nat} (nonzero : 0 < units) (positive : 0 < den)
    (some : 0 < step) (fine : step ≤ 2 * den) :
    0 < 4 * units * den / step ∧
      (ofUnits units).holds (4 * units * den / step * step) den = true := by
  obtain ⟨low, high⟩ := reach_ofUnits units
  have lowest := Nat.mul_le_mul_right den low
  have highest := Nat.mul_le_mul_right den high
  have one := Nat.mul_le_mul_right den (show 4 ≤ 4 * units by omega)
  have whole := Nat.div_add_mod (4 * units * den) step
  have rest := Nat.mod_lt (4 * units * den) some
  rw [Nat.sub_mul] at lowest
  rw [Nat.add_mul] at highest
  refine ⟨Nat.div_pos (by omega) some, ?_⟩
  rw [holds_iff, Nat.mul_comm (4 * units * den / step)]
  generalize 4 * units * den = value at *
  generalize (ofUnits units).low * den = lowEnd at *
  generalize (ofUnits units).high * den = highEnd at *
  generalize step * (value / step) = lower at *
  omega

private theorem isSome_onGrid?_of_fine {units : Nat} (nonzero : 0 < units) (tie : Tie) {power : Int}
    (fine : quartersPerOne * tenTo power.toNat ≤ 2 * tenTo (-power).toNat) :
    ((ofUnits units).onGrid? tie power).isSome = true := by
  have step : 0 < quartersPerOne * tenTo power.toNat :=
    Nat.mul_pos (Nat.mul_pos (by decide) Fixed.unitsPerOne_pos) (Fixed.tenTo_pos _)
  obtain ⟨positive, holds⟩ := holds_of_fine nonzero (Fixed.tenTo_pos (-power).toNat) step fine
  simp only [onGrid?, show (ofUnits units).value = 4 * units from rfl, positive, holds,
    decide_true, Bool.true_and, if_true]
  split_ifs <;> rfl

/-- A positive float has a shortest decimal: it rounds to the float, is not zero, and its power of
ten is bounded. -/
theorem shortest_holds {units : Nat} (nonzero : 0 < units) (tie : Tie) {coefficient : Nat}
    {power : Int} (found : (ofUnits units).shortest tie = (coefficient, power)) :
    0 < coefficient ∧ -324 ≤ power ∧ power ≤ 309 ∧
      (ofUnits units).holds (coefficient * (quartersPerOne * tenTo power.toNat))
        (tenTo (-power).toNat) = true := by
  have finest : ((ofUnits units).onGrid? tie (greatestPower - (633 : Nat))).isSome = true := by
    apply isSome_onGrid?_of_fine nonzero
    decide +kernel
  have some : ((List.range gridCount).findSome? fun (step : Nat) =>
      ((ofUnits units).onGrid? tie (greatestPower - step)).map
        (·, greatestPower - (step : Int))).isSome = true := by
    apply List.findSome?_isSome_iff.mpr
    refine ⟨633, List.mem_range.mpr (by decide), ?_⟩
    rw [Option.isSome_map]
    exact finest
  obtain ⟨answer, first⟩ := Option.isSome_iff_exists.mp some
  rw [shortest] at found
  change ((List.range gridCount).findSome? fun (step : Nat) =>
      ((ofUnits units).onGrid? tie (greatestPower - step)).map
        (·, greatestPower - (step : Int))).getD (0, 0) = _ at found
  rw [first, Option.getD_some] at found
  subst found
  obtain ⟨step, member, taken⟩ := List.exists_of_findSome?_eq_some first
  obtain ⟨_, onGrid, same⟩ := Option.map_eq_some_iff.mp taken
  injection same with same power
  subst same power
  obtain ⟨positive, holds⟩ := holds_of_onGrid? onGrid
  have bound := List.mem_range.mp member
  rw [gridCount] at bound
  refine ⟨positive, ?_, ?_, holds⟩ <;> rw [greatestPower] <;> omega

end Rounding

/-- A decimal whose power of ten is within reach is rounded exactly. -/
theorem Decimal.nearest_of_reach {power : Int} (reach : power ≤ exponentReach) (negative : Bool)
    (coefficient : Nat) :
    Decimal.nearest ⟨negative, coefficient, power⟩ =
      Exact.nearest negative (coefficient * tenTo power.toNat) (tenTo (-power).toNat) := by
  rcases Int.le_total 0 power with whole | places
  · have none : (-power).toNat = 0 := by omega
    rw [Decimal.nearest, none]
    simp only
    split_ifs with zero huge
    · rw [zero, Nat.zero_mul]
      exact (nearest_of_small (by decide) _).symm
    · omega
    · rfl
  · obtain ⟨count, rfl⟩ : ∃ count : Nat, power = -(count : Int) :=
      ⟨(-power).toNat, by omega⟩
    have none : (-(count : Int)).toNat = 0 := by omega
    rw [Decimal.nearest_of_places, none, Int.neg_neg, Int.toNat_natCast]
    exact congrArg (Exact.nearest negative · _) (Nat.mul_one _).symm

/-- The shortest decimal of a positive float is read as the float. -/
theorem Decimal.nearest_of_shortest {units coefficient : Nat} {power : Int} {tie : Tie}
    (grid : OnGrid units) (nonzero : 0 < units)
    (found : (Rounding.ofUnits units).shortest tie = (coefficient, power)) (negative : Bool) :
    Decimal.nearest ⟨negative, coefficient, power⟩ = .finite negative units := by
  obtain ⟨-, -, most, holds⟩ := Rounding.shortest_holds nonzero tie found
  have reach : power ≤ exponentReach := by
    rw [exponentReach]
    omega
  have nearest : nearestUnits (coefficient * tenTo power.toNat) (tenTo (-power).toNat) = units := by
    apply Rounding.nearestUnits_of_holds (Fixed.tenTo_pos _) nonzero grid.1
    rwa [Nat.mul_assoc, Nat.mul_comm (tenTo power.toNat)]
  rw [Decimal.nearest_of_reach reach, Exact.nearest, nearest, if_pos grid.2]

end Toolpath
