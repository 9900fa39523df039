import Mathlib
import Toolpath.Settings
import Toolpath.Proofs.Decimal.Content

/-! # Nearness of floats

A difference with an operand that is no finite number is no finite number, and its magnitude is
below no threshold. A finite number differs from itself by zero. So two values are near each other
only if both are finite, and under a positive threshold a value is near itself exactly if it is
finite.
-/

namespace Toolpath

open Float.Model Float.Model.UnpackedFloat

/-- What is no finite number keeps its bits. -/
private theorem unpack_pack_of_not_finite {value : UnpackedFloat}
    (stray : value.isFinite = false) :
    UnpackedFloat.unpack .binary64 (UnpackedFloat.pack .binary64 value) = value := by
  cases value with
  | infinity sign => cases sign <;> rfl
  | notANumber => rfl
  | zero _ | finite _ _ _ _ => contradiction

private theorem isFinite_sub_eq_false {a b : UnpackedFloat}
    (stray : a.isFinite = false ∨ b.isFinite = false) :
    (UnpackedFloat.sub .binary64 a b).isFinite = false := by
  cases a <;> cases b <;>
    simp only [UnpackedFloat.sub, UnpackedFloat.isFinite, Bool.true_eq_false, or_self] at stray ⊢
  split_ifs <;> rfl

/-- The magnitude of what is no finite number is below no bound. -/
private theorem lt_abs_eq_false {value : UnpackedFloat} (stray : value.isFinite = false)
    (bound : UnpackedFloat) : value.abs.lt bound = false := by
  cases value with
  | infinity sign =>
    cases bound with
    | infinity other => cases other <;> rfl
    | notANumber | zero _ | finite _ _ _ _ => rfl
  | notANumber => rfl
  | zero _ | finite _ _ _ _ => contradiction

private theorem stray_of_not_finite {a b : Float}
    (stray : ¬ (a.isFinite = true ∧ b.isFinite = true)) :
    a.isFinite = false ∨ b.isFinite = false := by
  rwa [Classical.not_and_iff_not_or_not, Bool.not_eq_true, Bool.not_eq_true] at stray

private theorem sub_self_of_finite {value : UnpackedFloat} (finite : value.isFinite = true) :
    UnpackedFloat.sub .binary64 value value = .zero .positive := by
  cases value with
  | infinity _ | notANumber => contradiction
  | zero sign => cases sign <;> rfl
  | finite sign mantissa exponent positive =>
    simp only [UnpackedFloat.sub, Int.sub_self]
    rfl

private theorem lt_iff {a b : Float} :
    a < b ↔ a.toModel.unpack.lt b.toModel.unpack = true := by
  change decide (a.toModel.unpack.lt b.toModel.unpack = true) = true ↔ _
  rw [decide_eq_true_iff]

namespace Tuning

/-- Nearness compares the magnitude of the difference with the threshold. -/
private theorem near_iff {tuning : Tuning} {a b : Float} :
    tuning.near a b = true ↔
      (UnpackedFloat.unpack .binary64 (UnpackedFloat.pack .binary64
        (UnpackedFloat.unpack .binary64 (UnpackedFloat.pack .binary64
          (UnpackedFloat.sub .binary64 a.toModel.unpack b.toModel.unpack))).abs)).lt
        tuning.threshold.toModel.unpack = true := by
  rw [near, decide_eq_true_iff]
  exact lt_iff

/-- Values are near each other only if both are finite. -/
theorem isFinite_of_near {tuning : Tuning} {a b : Float} (near : tuning.near a b = true) :
    a.isFinite = true ∧ b.isFinite = true := by
  by_contra stray
  have lost := isFinite_sub_eq_false (stray_of_not_finite stray)
  have magnitude := @lt_abs_eq_false _ lost tuning.threshold.toModel.unpack
  have kept : (UnpackedFloat.sub .binary64 a.toModel.unpack b.toModel.unpack).abs.isFinite =
      false := by
    revert lost
    generalize UnpackedFloat.sub .binary64 a.toModel.unpack b.toModel.unpack = difference
    cases difference <;> exact id
  rw [near_iff, unpack_pack_of_not_finite lost, unpack_pack_of_not_finite kept, magnitude] at near
  contradiction

/-- Under a positive threshold a value is near itself exactly if it is finite. -/
theorem near_self {tuning : Tuning} (positive : 0.0 < tuning.threshold) (value : Float) :
    tuning.near value value = value.isFinite := by
  cases finite : value.isFinite with
  | false =>
    rw [Bool.eq_false_iff]
    intro near
    rw [(isFinite_of_near near).1] at finite
    contradiction
  | true =>
    have zero : (0.0 : Float) = Float.ofBits 0 := by decide +kernel
    rw [zero, lt_iff] at positive
    rw [near_iff, sub_self_of_finite finite]
    exact positive

end Tuning

end Toolpath
