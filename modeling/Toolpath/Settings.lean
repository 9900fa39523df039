import Toolpath.Line.Writer

/-! # Settings

`Settings` is what a user writes, where zero stands for "use the default". `Tuning` is what a pass
works with: every default is filled in once, before the first line.
-/

namespace Toolpath

/-- Settings as written by a user; zero stands for the default. -/
structure Settings where
  threshold : Float := 0.0
  xyDecimals : Nat := 0
  zDecimals : Nat := 0
  eDecimals : Nat := 0
  removeComments : Bool := false
  allowUnknown : Bool := false
  deriving DecidableEq, Repr

/-- Settings with all defaults filled in. -/
structure Tuning where
  /-- Two values closer than this count as unchanged. -/
  threshold : Float
  precision : Precision
  removeComments : Bool
  allowUnknown : Bool
  deriving DecidableEq, Repr

namespace Settings

def defaultThreshold : Float := 0.001

def isValidThreshold (threshold : Float) : Bool := 0.0 < threshold && threshold.isFinite

/-- A value, or its default if the value is zero. -/
def orDefault (value default : Nat) : Nat := if value = 0 then default else value

def resolve (settings : Settings) : Tuning where
  threshold := if isValidThreshold settings.threshold then settings.threshold else defaultThreshold
  precision :=
    { xy := orDefault settings.xyDecimals Precision.standard.xy
      z := orDefault settings.zDecimals Precision.standard.z
      e := orDefault settings.eDecimals Precision.standard.e }
  removeComments := settings.removeComments
  allowUnknown := settings.allowUnknown

theorem isValidThreshold_iff {threshold : Float} :
    isValidThreshold threshold = true ↔ 0.0 < threshold ∧ threshold.isFinite = true := by
  rw [isValidThreshold, Bool.and_eq_true, decide_eq_true_iff]

/-- A resolved threshold is positive and finite. -/
theorem threshold_resolve (settings : Settings) :
    0.0 < settings.resolve.threshold ∧ settings.resolve.threshold.isFinite = true := by
  apply isValidThreshold_iff.mp
  simp only [resolve]
  split
  · assumption
  · decide +kernel

theorem orDefault_pos {value default : Nat} (positive : 0 < default) :
    0 < orDefault value default := by
  rw [orDefault]
  split <;> omega

/-- Whether resolving discards a threshold that the user did write. -/
def discardsThreshold (settings : Settings) : Bool :=
  !isValidThreshold settings.threshold && settings.threshold != 0.0

end Settings

namespace Tuning

def standard : Tuning := Settings.resolve {}

/-- All defaults, but lines with unknown commands pass through. -/
def permissive : Tuning := Settings.resolve { allowUnknown := true }

/-- Whether two values count as unchanged. -/
def near (tuning : Tuning) (a b : Float) : Bool := (a - b).abs < tuning.threshold

end Tuning

end Toolpath
