import Mathlib
import Toolpath.Job
import Toolpath.Shell.Toml

/-! # Which settings a job works with

At most one settings file counts, and a job is the same whatever stands in any other. For each
setting on its own the option comes first, then what is read from the file, and a default is filled
in only after that: an option that is zero or no threshold leads to the default, not back to the
file. How the text of a settings file is read is left open.
-/

namespace Toolpath

namespace Options

/-- A number of places, or the standard one in place of zero and of none at all. -/
def placesOr (standard : Nat) (asked : Option Nat) : Nat :=
  if asked.getD 0 = 0 then standard else asked.getD 0

/-- A threshold, or the standard one in place of none at all and of any that is not positive and
finite. -/
def thresholdOr (standard : Float) (asked : Option Float) : Float :=
  if 0.0 < asked.getD 0.0 ∧ (asked.getD 0.0).isFinite then asked.getD 0.0 else standard

/-- What the options and a settings file, if there is one, lead to. -/
def tuning (options : Options) (file : Option Settings) : Tuning where
  threshold := thresholdOr 0.001 (options.threshold.or (file.map Settings.threshold))
  precision :=
    { xy := placesOr 4 (options.xyDecimals.or (file.map Settings.xyDecimals))
      z := placesOr 5 (options.zDecimals.or (file.map Settings.zDecimals))
      e := placesOr 8 (options.eDecimals.or (file.map Settings.eDecimals)) }
  removeComments := options.removeComments || (file.map Settings.removeComments).getD false
  allowUnknown := options.allowUnknown || (file.map Settings.allowUnknown).getD false

end Options

namespace Job

/-- The settings file that counts: the one that is named; without one, none where none is wanted,
else the project's if that is a file, else the user's if that is one, else none. -/
inductive Chooses (tree : FileTree) (userDirectory : Option String) (options : Options) :
    Option String → Prop
  | named {path : String} (given : options.config = some path) :
      Chooses tree userDirectory options (some path)
  | unwanted (unnamed : options.config = none) (off : options.noConfig = true) :
      Chooses tree userDirectory options none
  | project (unnamed : options.config = none) (on : options.noConfig = false)
      (file : tree.isFile projectSettings = true) :
      Chooses tree userDirectory options (some projectSettings)
  | user {directory : String} (unnamed : options.config = none) (on : options.noConfig = false)
      (noProject : tree.isFile projectSettings = false) (known : userDirectory = some directory)
      (file : tree.isFile (userSettings directory) = true) :
      Chooses tree userDirectory options (some (userSettings directory))
  | absent (unnamed : options.config = none) (on : options.noConfig = false)
      (noProject : tree.isFile projectSettings = false)
      (noUser : ∀ directory ∈ userDirectory, tree.isFile (userSettings directory) = false) :
      Chooses tree userDirectory options none

/-- What is read from the settings file that counts, if there is one. -/
inductive FileSays (readSettings? : String → Option Settings) (tree : FileTree) :
    Option String → Option Settings → Prop
  | absent : FileSays readSettings? tree none none
  | read {path text : String} {settings : Settings} (found : tree.readText path = .ok text)
      (understood : readSettings? text = some settings) :
      FileSays readSettings? tree (some path) (some settings)

section Choice

variable {readSettings? : String → Option Settings} {tree : FileTree}
  {userDirectory : Option String} {options : Options}

/-- Exactly one choice of a settings file is right, the one that a job makes. -/
theorem chooses_iff {file : Option String} :
    Chooses tree userDirectory options file ↔ file = settingsPath tree userDirectory options := by
  constructor
  · rintro (given | ⟨unnamed, off⟩ | ⟨unnamed, on, file⟩ | ⟨unnamed, on, noProject, known, file⟩ |
      ⟨unnamed, on, noProject, noUser⟩)
    · rw [settingsPath, given]
    · simp [settingsPath, unnamed, off]
    · simp [settingsPath, unnamed, on, discover, file]
    · simp [settingsPath, unnamed, on, discover, noProject, known, Option.filter_some, file]
    · cases userDirectory with
      | none => simp [settingsPath, unnamed, on, discover, noProject]
      | some directory =>
        have noFile := noUser directory rfl
        simp [settingsPath, unnamed, on, discover, noProject, Option.filter_some, noFile]
  · rintro rfl
    rw [settingsPath]
    cases unnamed : options.config with
    | some path => exact .named unnamed
    | none =>
      cases on : options.noConfig with
      | true => exact .unwanted unnamed on
      | false =>
        rw [discover]
        cases noProject : tree.isFile projectSettings with
        | true => exact .project unnamed on noProject
        | false =>
          cases userDirectory with
          | none => exact .absent unnamed on noProject nofun
          | some directory =>
            rw [Option.map_some, Option.filter_some]
            cases file : tree.isFile (userSettings directory) with
            | true => exact .user unnamed on noProject rfl file
            | false => exact .absent unnamed on noProject (by rintro _ ⟨rfl⟩; exact file)

/-- A settings file is loaded exactly if its text can be read and made sense of. -/
theorem loadSettings_eq_ok_iff {path : String} {settings : Settings} :
    loadSettings readSettings? tree path = .ok settings ↔
      FileSays readSettings? tree (some path) (some settings) := by
  constructor
  · intro loaded
    rw [loadSettings] at loaded
    cases found : tree.readText path with
    | error fault =>
      rw [found] at loaded
      contradiction
    | ok text =>
      cases understood : readSettings? text with
      | none => simp [found, inContext, bind, Except.bind, understood, documentOr] at loaded
      | some other =>
        simp only [found, inContext, bind, Except.bind, understood, documentOr] at loaded
        obtain rfl := Except.ok.inj loaded
        exact .read found understood
  · rintro (_ | ⟨found, understood⟩)
    simp [loadSettings, found, inContext, bind, Except.bind, understood, documentOr]

/-- The job that the options ask for with the settings of a file. -/
def withSettings (options : Options) (file : Option String) (settings : Settings) : Job where
  input := pathOrStandard options.input
  output := pathOrStandard options.output
  settings := mergeOptions settings options
  settingsFile := file
  stateIn := options.stateIn
  stateOut := options.stateOut
  logLevel := options.logLevel

/-- There is a job exactly if the settings file that counts can be made sense of. -/
theorem configure_eq_ok_iff {job : Job} :
    configure readSettings? tree userDirectory options = .ok job ↔
      ∃ path file, Chooses tree userDirectory options path ∧
        FileSays readSettings? tree path file ∧
        job = withSettings options path (file.getD {}) := by
  simp only [chooses_iff, exists_and_left, exists_eq_left]
  rw [configure]
  cases settingsPath tree userDirectory options with
  | none =>
    constructor
    · intro done
      exact ⟨none, .absent, (Except.ok.inj done).symm⟩
    · rintro ⟨_, ⟨⟩, rfl⟩
      rfl
  | some path =>
    constructor
    · intro done
      cases loaded : loadSettings readSettings? tree path with
      | error failure =>
        simp only [loaded] at done
        contradiction
      | ok settings =>
        simp only [loaded] at done
        exact ⟨settings, loadSettings_eq_ok_iff.mp loaded, (Except.ok.inj done).symm⟩
    · rintro ⟨_, _ | ⟨found, understood⟩, rfl⟩
      have loaded := loadSettings_eq_ok_iff.mpr (.read found understood)
      simp only [loaded]
      rfl

/-- Options over what a settings file says, with the defaults filled in. -/
theorem resolve_mergeOptions (options : Options) (file : Option Settings) :
    (mergeOptions (file.getD {}) options).resolve = options.tuning file := by
  cases file <;>
    simp [Settings.resolve, mergeOptions, Options.tuning, Options.thresholdOr, Options.placesOr,
      Settings.orDefault, Settings.isValidThreshold, Settings.defaultThreshold, Precision.standard,
      Bool.or_comm]

/-- Which settings a job works with, whenever the options lead to a job. Exactly one choice of a
settings file is right: the named one, none where none is wanted, else the project's, else the
user's, else none; that is the one the job tells. No other file matters: with other files and
another directory of the user, as long as the same choice is right and the chosen file has the same
text, the job is the same. Each setting on its own is the option, else what the chosen file says,
else zero, and only then the default if that is zero or no positive finite threshold; each flag is
set if either sets it. So a threshold is positive and finite, and no number of places is zero. -/
theorem settings_precedence (readSettings? : String → Option Settings) {job : Job}
    (success : configure readSettings? tree userDirectory options = .ok job) :
    (∀ path, Chooses tree userDirectory options path ↔ path = job.settingsFile) ∧
    (∀ (other : FileTree) (otherDirectory : Option String),
      Chooses other otherDirectory options job.settingsFile →
      (∀ path ∈ job.settingsFile, other.readText path = tree.readText path) →
        configure readSettings? other otherDirectory options = .ok job) ∧
    (∃ file, FileSays readSettings? tree job.settingsFile file ∧
      job.settings.resolve = options.tuning file) ∧
    0.0 < job.settings.resolve.threshold ∧ job.settings.resolve.threshold.isFinite = true ∧
    0 < job.settings.resolve.precision.xy ∧ 0 < job.settings.resolve.precision.z ∧
    0 < job.settings.resolve.precision.e := by
  obtain ⟨path, file, chosen, told, rfl⟩ := configure_eq_ok_iff.mp success
  obtain ⟨positive, finite⟩ := (mergeOptions (file.getD {}) options).threshold_resolve
  refine ⟨?_, ?_, ⟨file, told, resolve_mergeOptions options file⟩, positive, finite,
    Settings.orDefault_pos (by decide), Settings.orDefault_pos (by decide),
    Settings.orDefault_pos (by decide)⟩
  · intro other
    obtain rfl := chooses_iff.mp chosen
    exact chooses_iff
  · intro other otherDirectory again same
    refine configure_eq_ok_iff.mpr ⟨path, file, again, ?_, rfl⟩
    cases told with
    | absent => exact .absent
    | read found understood => exact .read ((same _ rfl).trans found) understood

end Choice

/-- A project with settings, and a user with others that do not matter: options that are negative or
zero lead to the defaults although the project's file gives values, other values of that file stand,
and a flag of either is set. -/
theorem settings_precedence_project :
    let text := "threshold = 0.5\nz_decimals = 2\nxy_decimals = 3\nremove_comments = true\n"
    let project : Place × Node := ([".gcode-minify.toml"], .file text.toUTF8)
    let tree : FileTree :=
      { entries := [project, (["home"], .directory), (["home", "gcode-minify"], .directory),
          (["home", "gcode-minify", "config.toml"], .file "e_decimals = 1\n".toUTF8)] }
    let options : Options := { threshold := some (-1.0), xyDecimals := some 0, allowUnknown := true }
    let job : Job :=
      { settings := ⟨-1.0, 0, 2, 0, true, true⟩, settingsFile := some "./.gcode-minify.toml" }
    configure Settings.readToml? tree (some "/home") options = .ok job ∧
      Chooses tree (some "/home") options (some "./.gcode-minify.toml") ∧
      configure Settings.readToml? { entries := [project] } none options = .ok job ∧
      job.settings.resolve = ⟨0.001, ⟨4, 2, 8⟩, true, true⟩ ∧
      job.settings.resolve.threshold.isFinite = true := by
  intro text project tree options job
  have success : configure Settings.readToml? tree (some "/home") options = .ok job := by decide +kernel
  have bare : ({ entries := [project] } : FileTree).isFile projectSettings = true := by
    decide +kernel
  obtain ⟨choice, others, -, -, finite, -⟩ :=
    settings_precedence Settings.readToml? success
  refine ⟨success, (choice _).mpr rfl, others _ none (.project rfl rfl bare) ?_, ?_, finite⟩
  · rintro _ ⟨rfl⟩
    decide +kernel
  · decide +kernel

end Job

end Toolpath
