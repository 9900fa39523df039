import Toolpath.Decimal.Numeral
import Toolpath.Options

/-! # The words of a command line

The words of a command line are taken from left to right. A value that stands in a word of its own
is looked at when the next flag comes or the words end; a word that is no flag and no value is a
fault at once. Flags that exclude each other are found last.
-/

namespace Toolpath

/-- Why the words of a command line are not carried out. -/
inductive OptionFault where
  /-- A word that is no flag and no value. -/
  | unknownArgument (word : String)
  /-- A flag without its value, or an empty path. -/
  | missingValue (flag : String)
  /-- A value that is not of its flag's kind. -/
  | invalidValue (flag value : String)
  /-- Flags that exclude each other, or a flag that is there twice. -/
  | conflict (flag other : String)
  /-- A value for a switch. -/
  | unexpectedValue (flag value : String)
  /-- The help is asked for. -/
  | help
  /-- The version is asked for. -/
  | version
  deriving DecidableEq, Repr

namespace Options

inductive Flag where
  | input
  | output
  | removeComments
  | allowUnknown
  | threshold
  | xyDecimals
  | zDecimals
  | eDecimals
  | config
  | noConfig
  | stateIn
  | stateOut
  | logLevel
  | help
  | version
  deriving DecidableEq, Repr

namespace Flag

def all : List Flag :=
  [input, output, removeComments, allowUnknown, threshold, xyDecimals, zDecimals, eDecimals, config,
    noConfig, stateIn, stateOut, logLevel, help, version]

def long : Flag → String
  | input => "input"
  | output => "output"
  | removeComments => "remove-comments"
  | allowUnknown => "allow-unknown-gcode"
  | threshold => "threshold"
  | xyDecimals => "xy-decimals"
  | zDecimals => "z-decimals"
  | eDecimals => "e-decimals"
  | config => "config"
  | noConfig => "no-config"
  | stateIn => "state-in"
  | stateOut => "state-out"
  | logLevel => "log-level"
  | help => "help"
  | version => "version"

/-- The letter of a flag after one dash, if it has one. -/
def short? : Flag → Option Char
  | input => some 'i'
  | output => some 'o'
  | help => some 'h'
  | version => some 'V'
  | _ => none

def takesValue : Flag → Bool
  | removeComments | allowUnknown | noConfig | help | version => false
  | _ => true

def spelling (flag : Flag) : String := "--" ++ flag.long

def ofLong? (name : String) : Option Flag := all.find? fun flag => flag.long = name

def ofShort? (letter : Char) : Option Flag := all.find? fun flag => flag.short? = some letter

end Flag

def maxDecimals : Nat := 0xffffffffffffffff

def set (options : Options) (flag : Flag) (value : String) : Except OptionFault Options :=
  let invalid := OptionFault.invalidValue flag.spelling value
  let decimals : Except OptionFault Nat :=
    match Numeral.natural? maxDecimals value.toList with
    | some places => .ok places
    | none => .error invalid
  let path : Except OptionFault String :=
    if value.isEmpty then .error (.missingValue flag.spelling) else .ok value
  match flag with
  | .input => .ok { options with input := value }
  | .output => .ok { options with output := value }
  | .threshold =>
    match Numeral.read? value.toList with
    | some threshold => .ok { options with threshold := some threshold }
    | none => .error invalid
  | .xyDecimals => decimals.map ({ options with xyDecimals := some · })
  | .zDecimals => decimals.map ({ options with zDecimals := some · })
  | .eDecimals => decimals.map ({ options with eDecimals := some · })
  | .config => path.map ({ options with config := some · })
  | .stateIn => path.map ({ options with stateIn := some · })
  | .stateOut => path.map ({ options with stateOut := some · })
  | .logLevel => .ok { options with logLevel := value }
  | .removeComments | .allowUnknown | .noConfig | .help | .version =>
    .error (.unexpectedValue flag.spelling value)

def switch (options : Options) : Flag → Except OptionFault Options
  | .removeComments => .ok { options with removeComments := true }
  | .allowUnknown => .ok { options with allowUnknown := true }
  | .noConfig => .ok { options with noConfig := true }
  | .help => .error .help
  | .version => .error .version
  | flag => .error (.missingValue flag.spelling)

/-- What has been read of a command line. -/
structure Progress where
  options : Options := {}
  /-- Flags that have been there. -/
  seen : List Flag := []
  /-- A flag whose value is still to come, or to be looked at. -/
  pending : Option (Flag × Option String) := none
  /-- Whether the words from here on are no flags. -/
  plain : Bool := false
  deriving DecidableEq, Repr

namespace Progress

/-- Takes a flag that may be there once. -/
def mark (progress : Progress) (flag : Flag) : Except OptionFault Progress :=
  if flag ∈ progress.seen then .error (.conflict flag.spelling flag.spelling)
  else .ok { progress with seen := flag :: progress.seen }

/-- Takes a flag with its value. -/
def assign (progress : Progress) (flag : Flag) (value : String) : Except OptionFault Progress := do
  let progress ← progress.mark flag
  let options ← progress.options.set flag value
  return { progress with options }

/-- Looks at a value that has been left pending. -/
def settle (progress : Progress) : Except OptionFault Progress :=
  match progress.pending with
  | none => .ok progress
  | some (flag, none) => .error (.missingValue flag.spelling)
  | some (flag, some value) => { progress with pending := none }.assign flag value

/-- Takes a flag whose value may be part of the same word. -/
def valued (progress : Progress) (flag : Flag) (value : Option String) :
    Except OptionFault Progress := do
  let progress ← progress.settle
  match value with
  | some value => progress.assign flag value
  | none => return { progress with pending := some (flag, none) }

/-- Takes a switch; asking for help or the version ends the reading. -/
def switched (progress : Progress) (flag : Flag) : Except OptionFault Progress := do
  let progress ← progress.settle
  let options ← progress.options.switch flag
  let progress ← progress.mark flag
  return { progress with options }

/-- Takes a word with two dashes. -/
def long (progress : Progress) (word : String) (body : List Char) : Except OptionFault Progress :=
  let name := body.takeWhile (· ≠ '=')
  let value := match body.dropWhile (· ≠ '=') with
    | [] => none
    | _ :: rest => some (String.ofList rest)
  match Flag.ofLong? (String.ofList name) with
  | none => .error (.unknownArgument word)
  | some flag =>
    if flag.takesValue then progress.valued flag value
    else
      match value with
      | some value => .error (.unexpectedValue flag.spelling value)
      | none => progress.switched flag

/-- Takes a word with one dash: letters, of which the last may be followed by its value. -/
def short (progress : Progress) (word : String) : List Char → Except OptionFault Progress
  | [] => .ok progress
  | letter :: rest =>
    match Flag.ofShort? letter with
    | none => .error (.unknownArgument word)
    | some flag =>
      if flag.takesValue then
        progress.valued flag <|
          match rest with
          | [] => none
          | '=' :: value => some (String.ofList value)
          | value => some (String.ofList value)
      else do
        let progress ← progress.switched flag
        progress.short word rest

/-- Takes a word that is no flag: the value that is due. -/
def value (progress : Progress) (word : String) : Except OptionFault Progress :=
  match progress.pending with
  | some (flag, none) => .ok { progress with pending := some (flag, some word) }
  | _ => .error (.unknownArgument word)

def take (progress : Progress) (word : String) : Except OptionFault Progress :=
  if progress.plain then .error (.unknownArgument word)
  else
    match word.toList with
    | ['-', '-'] => .ok { progress with plain := true }
    | '-' :: '-' :: body => progress.long word body
    | ['-'] => progress.value word
    | '-' :: letters => progress.short word letters
    | _ => progress.value word

end Progress

/-- The options that a list of words asks for. -/
def parse (words : List String) : Except OptionFault Options := do
  let progress ← words.foldlM Progress.take {}
  let progress ← progress.settle
  let options := progress.options
  if options.noConfig && options.config.isSome then
    .error (.conflict Flag.noConfig.spelling Flag.config.spelling)
  else return options

end Options

def OptionFault.message : OptionFault → String
  | .unknownArgument word => "unexpected argument '" ++ word ++ "'"
  | .missingValue flag => "a value is required for '" ++ flag ++ "'"
  | .invalidValue flag value => "invalid value '" ++ value ++ "' for '" ++ flag ++ "'"
  | .conflict flag other => "the argument '" ++ flag ++ "' cannot be used with '" ++ other ++ "'"
  | .unexpectedValue flag value => "unexpected value '" ++ value ++ "' for '" ++ flag ++ "'"
  | .help => "help was asked for"
  | .version => "the version was asked for"

end Toolpath
