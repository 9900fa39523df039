/-! # Options of the command -/

namespace Toolpath

/-- What the words of a command line ask for. -/
structure Options where
  input : String := "-"
  output : String := "-"
  removeComments : Bool := false
  allowUnknown : Bool := false
  threshold : Option Float := none
  xyDecimals : Option Nat := none
  zDecimals : Option Nat := none
  eDecimals : Option Nat := none
  config : Option String := none
  noConfig : Bool := false
  stateIn : Option String := none
  stateOut : Option String := none
  logLevel : String := "warn"
  deriving DecidableEq, Repr

end Toolpath
