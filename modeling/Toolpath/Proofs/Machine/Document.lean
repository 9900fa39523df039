import Mathlib
import Toolpath.Machine.Document
import Toolpath.Proofs.Decimal.Content
import Toolpath.Proofs.Shell.JsonLibrary

/-! # Machines saved and read back

Whatever a library does with documents as long as it is lawful, a saved machine is read back exactly
if its numbers are finite, for the library has no text for others. If the library also rounds
correctly, what is read back is the machine itself, bit for bit; and so it is for every document that
gives the fields their values, in any order and notation, with the defaults for those that are
missing.
-/

namespace Toolpath

namespace Json

namespace Blanks

def none : Blanks := ⟨[], by simp⟩

def newline : Blanks := ⟨['\n'], by simp [isSpace]⟩

def space : Blanks := ⟨[' '], by simp [isSpace]⟩

/-- The beginning of a line that is set in by two spaces. -/
def indent : Blanks := ⟨['\n', ' ', ' '], by simp [isSpace]⟩

end Blanks

/-- Whether a token is read as a value if numbers are read as the floats nearest to them. -/
inductive Token.Denotes : Token → Machine.Scalar → Prop
  | flag (value : Bool) : Denotes (.flag value) (.flag value)
  | number {numeral : Numeral} {value : Float} (finite : value.isFinite = true)
    (nearest : numeral.decimal.nearest = Exact.ofFloat value) :
    Denotes (.number numeral) (.number value)

end Json

namespace Machine

open Json

/-- Whether a value is a finite number or a flag. -/
def Scalar.isFinite : Scalar → Bool
  | number value => value.isFinite
  | flag _ => true

/-- Whether all numbers of the machine are finite. -/
def isFinite (machine : Machine) : Bool := Key.all.all fun key => (machine.get key).isFinite

theorem isFinite_get {machine : Machine} (finite : machine.isFinite = true) (key : Key) :
    (machine.get key).isFinite = true :=
  List.all_eq_true.mp finite key (Key.mem_all key)

/-- The fields that are listed have the value of the machine, the others their default. -/
def Keeps (machine : Machine) (keys : List Key) (after : Machine) : Prop :=
  ∀ key, after.get key = if key ∈ keys then machine.get key else Machine.get {} key

/-- A machine is its fields. -/
theorem ext_get {machine other : Machine} (same : ∀ key, machine.get key = other.get key) :
    machine = other := by
  cases machine
  cases other
  rw [mk.injEq]
  exact ⟨Scalar.number.inj (same .x), Scalar.number.inj (same .y), Scalar.number.inj (same .z),
    Scalar.number.inj (same .e), Scalar.number.inj (same .extruded),
    Scalar.number.inj (same .feedrate), Scalar.flag.inj (same .relativeExtrusion),
    Scalar.flag.inj (same .relativeCoordinates), Scalar.flag.inj (same .homed)⟩

/-- Whether a field takes a value. -/
def Key.takes : Key → Scalar → Bool
  | .x, .number _ | .y, .number _ | .z, .number _ | .e, .number _ | .extruded, .number _
  | .feedrate, .number _ => true
  | .relativeExtrusion, .flag _ | .relativeCoordinates, .flag _ | .homed, .flag _ => true
  | _, _ => false

theorem takes_get (machine : Machine) (key : Key) : key.takes (machine.get key) = true := by
  cases key <;> rfl

/-- Putting a value into a field changes that field only. -/
private theorem set?_frame (start : Machine) {key : Key} {value : Scalar}
    (takes : key.takes value = true) :
    ∃ after, start.set? key value = some after ∧
      ∀ other, after.get other = if other = key then value else start.get other := by
  cases key <;> cases value <;> first
    | contradiction
    | refine ⟨_, rfl, ?_⟩
      intro other
      cases other <;> rfl

/-- Values of the right kind are put into distinct fields one after the other. -/
private theorem put?_values {keys : List Key} {values : Key → Scalar}
    (takes : ∀ key : Key, key.takes (values key) = true) (nodup : keys.Nodup) (seen : List Key)
    (unseen : ∀ key ∈ keys, key ∉ seen) (start : Machine) :
    ∃ after, start.put? seen (keys.map fun key => (key, some (values key))) = some after ∧
      ∀ key, after.get key = if key ∈ keys then values key else start.get key := by
  induction keys generalizing start seen with
  | nil => exact ⟨start, rfl, fun key => by simp⟩
  | cons key keys ih =>
    obtain ⟨fresh, nodup⟩ := List.nodup_cons.mp nodup
    obtain ⟨middle, put, frame⟩ := set?_frame start (takes key)
    have later : ∀ other ∈ keys, other ∉ key :: seen := by
      intro other member
      rw [List.mem_cons, not_or]
      refine ⟨?_, unseen other (List.mem_cons_of_mem _ member)⟩
      rintro rfl
      exact fresh member
    obtain ⟨after, taken, holds⟩ := ih nodup _ later middle
    refine ⟨after, ?_, ?_⟩
    · rw [List.map_cons, put?, if_neg (unseen key (List.mem_cons_self ..))]
      simp only [Option.bind_eq_bind, Option.bind_some, put, taken]
    · intro other
      rw [holds, frame]
      by_cases same : other = key
      · subst same
        simp [fresh]
      · simp [same]

/-- A value that no field takes is refused wherever it stands. -/
private theorem put?_stray {entries : List (Key × Option Scalar)} {key : Key}
    (stray : (key, none) ∈ entries) (seen : List Key) (start : Machine) :
    start.put? seen entries = none := by
  induction entries generalizing start seen with
  | nil => contradiction
  | cons entry entries ih =>
    obtain ⟨first, value⟩ := entry
    rw [put?]
    split_ifs
    · rfl
    · rcases List.mem_cons.mp stray with same | later
      · obtain ⟨-, rfl⟩ := Prod.mk.inj same
        rfl
      · cases value with
        | none => rfl
        | some value => cases start.set? first value <;> simp [ih later]

/-- Members that are named after fields are those fields. -/
theorem known_map_name (keys : List Key) (values : Key → Option Scalar) :
    known (keys.map fun key => (key.name, values key)) = keys.map fun key => (key, values key) := by
  rw [known, List.filterMap_map, ← List.filterMap_eq_map]
  apply List.filterMap_congr
  intro key _
  simp [Key.ofName?_name]

theorem isPlain_name (key : Key) : ∀ c ∈ key.name.toList, isPlain c = true := by
  apply List.all_eq_true.mp
  cases key <;> decide +kernel

theorem plainNames_fields (machine : Machine) : JsonLibrary.PlainNames machine.fields := by
  intro field member
  obtain ⟨key, -, rfl⟩ := List.mem_map.mp member
  exact isPlain_name key

end Machine

namespace JsonLibrary

open Json Machine

variable {library : JsonLibrary} {machine : Machine}

/-- Whatever is read as an object that gives distinct fields their values, and no field another one,
is read as the machine with these fields. -/
theorem exists_readMachine? {text : String} {members : List (String × Option Scalar)}
    {keys : List Key} (parsed : library.parse? text = some (.object members))
    (gives : known members = keys.map fun key => (key, some (machine.get key)))
    (nodup : keys.Nodup) :
    ∃ after, library.readMachine? text = some after ∧ machine.Keeps keys after := by
  obtain ⟨after, taken, holds⟩ :=
    put?_values (fun key => takes_get machine key) nodup [] (by simp) {}
  refine ⟨after, ?_, holds⟩
  rw [readMachine?, parsed, Option.bind_some, ofDocument?, gives]
  exact taken

/-- A library that rounds correctly reads a token as what it denotes. -/
private theorem value?_of_denotes (rounds : library.RoundsCorrectly) {token : Token}
    {scalar : Scalar} (denotes : token.Denotes scalar) : library.value? token = some scalar := by
  cases denotes with
  | flag value => rfl
  | @number numeral value finite nearest =>
    obtain ⟨negative, units, content⟩ := Exact.isFinite_iff.mp finite
    rw [value?, rounds.float?_eq numeral negative units (nearest.trans content), ← content,
      Exact.toFloat_ofFloat finite]
    rfl

/-- Whether a member gives a field the value that it has in the machine. -/
def Gives (machine : Machine) (key : Key) (member : Member) : Prop :=
  member.name = key.name ∧ member.token.Denotes (machine.get key)

/-- An object that gives fields their values, however it is spelled, is read as the machine with
these fields. -/
theorem exists_readMachine?_object (lawful : library.Lawful) (rounds : library.RoundsCorrectly)
    (lead inner trail : Blanks) {keys : List Key} {members : List Member}
    (gives : List.Forall₂ (Gives machine) keys members) (nodup : keys.Nodup) :
    ∃ after, library.readMachine? (Json.object lead inner trail members) = some after ∧
      machine.Keeps keys after := by
  apply exists_readMachine? (lawful.parse?_object lead inner trail members) _ nodup
  rw [← known_map_name keys]
  congr 1
  induction gives with
  | nil => rfl
  | @cons key member keys members gives others ih =>
    obtain ⟨named, denotes⟩ := gives
    rw [List.map_cons, List.map_cons, ih (List.nodup_cons.mp nodup).2, named,
      value?_of_denotes rounds denotes]

section Written

variable {token : Key → Token}
  (spells : ∀ key, (token key).Spells (library.text (machine.get key)).toList)

/-- A field as it is written, with the blanks that its layout puts before name and value. -/
private def member (beforeName beforeValue : Blanks) (key : Key) : Member where
  name := key.name
  plain := isPlain_name key
  token := token key
  spelling := (library.text (machine.get key)).toList
  spells := spells key
  beforeName
  beforeColon := .none
  beforeValue
  afterValue := .none

/-- A record on one line is an object. -/
private theorem compact_fields (lawful : library.Lawful) :
    library.compact machine.fields =
      Json.object .none .none .none (Key.all.map (member spells .none .none)) := by
  rw [lawful.compact_eq _ (plainNames_fields machine)]
  apply String.toList_injective
  simp [fields, Json.object, Key.all, Member.text, member, Blanks.none,
    List.intercalate_cons_cons]

/-- A record with a field to a line is an object, whatever blanks come after it. -/
private theorem pretty_fields (lawful : library.Lawful) (trail : Blanks) :
    library.pretty machine.fields ++ String.ofList trail.text =
      Json.object .none .newline trail (Key.all.map (member spells .indent .space)) := by
  rw [lawful.pretty_eq _ (plainNames_fields machine) (by simp [fields, Key.all])]
  apply String.toList_injective
  simp [fields, Json.object, Key.all, Member.text, member, Blanks.none, Blanks.newline,
    Blanks.indent, Blanks.space, List.intercalate_cons_cons]

end Written

/-- A value is written as a token. One that is not finite cannot be read back, and for any other a
value of its kind is read. -/
private theorem exists_token (lawful : library.Lawful) (scalar : Scalar) :
    ∃ token : Token, token.Spells (library.text scalar).toList ∧
      (scalar.isFinite = false → library.value? token = none) ∧
      (scalar.isFinite = true → ∃ other, library.value? token = some other ∧
        ∀ key : Key, key.takes other = key.takes scalar) := by
  cases scalar with
  | flag value =>
    exact ⟨.flag value, .flag value, nofun, fun _ => ⟨_, rfl, fun _ => rfl⟩⟩
  | number value =>
    rw [text]
    cases finite : value.isFinite with
    | false => exact ⟨.null, .null, fun _ => rfl, by simp [Scalar.isFinite, finite]⟩
    | true =>
      obtain ⟨numeral, spells, accepted⟩ := lawful.numeral_accepted value finite
      obtain ⟨other, read⟩ := Option.isSome_iff_exists.mp accepted
      refine ⟨.number numeral, .number spells, by simp [Scalar.isFinite, finite], fun _ => ?_⟩
      refine ⟨.number other, by rw [value?, read]; rfl, fun key => ?_⟩
      cases key <;> rfl

/-- A finite value is written as a token that denotes it. -/
private theorem exists_token_denotes (rounds : library.RoundsCorrectly) {scalar : Scalar}
    (finite : scalar.isFinite = true) :
    ∃ token : Token, token.Spells (library.text scalar).toList ∧ token.Denotes scalar := by
  cases scalar with
  | flag value =>
    exact ⟨.flag value, .flag value, .flag value⟩
  | number value =>
    obtain ⟨numeral, spells, nearest⟩ := rounds.numeral_nearest value finite
    change value.isFinite = true at finite
    rw [text, if_pos finite]
    exact ⟨.number numeral, .number spells, .number finite nearest⟩

/-- A saved machine is read back exactly if all its numbers are finite. -/
theorem isSome_readMachine?_saved (lawful : library.Lawful) (machine : Machine) :
    (library.readMachine? (library.pretty machine.fields ++ "\n")).isSome = machine.isFinite := by
  choose token spells stray accepted using fun key => exists_token lawful (machine.get key)
  have parsed := lawful.parse?_object .none .newline .newline
    (Key.all.map (member spells .indent .space))
  rw [← pretty_fields spells lawful .newline, List.map_map] at parsed
  change library.parse? (library.pretty machine.fields ++ "\n") = some (.object
    (Key.all.map fun key => (key.name, library.value? (token key)))) at parsed
  rw [readMachine?, parsed, Option.bind_some, ofDocument?, known_map_name]
  cases finite : machine.isFinite with
  | true =>
    choose value read kind using fun key => accepted key (isFinite_get finite key)
    have takes (key : Key) : key.takes (value key) = true := by
      rw [kind, takes_get]
    obtain ⟨after, taken, -⟩ :=
      put?_values takes (show Key.all.Nodup by decide) [] (by simp) {}
    simp only [read, taken, Option.isSome_some]
  | false =>
    obtain ⟨key, member, lost⟩ : ∃ key ∈ Key.all, (machine.get key).isFinite = false := by
      simpa [Machine.isFinite] using finite
    have entry := List.mem_map_of_mem (f := fun key => (key, library.value? (token key))) member
    simp only [stray key lost] at entry
    rw [put?_stray entry, Option.isSome_none]

/-- What a library that keeps to the notation and rounds correctly writes for a machine with finite
numbers it reads as the same machine: on one line, with a field to a line, and with a newline after
it. A text that is read as an object that gives some fields their values, whatever else it has, is
read as the machine with these fields and the defaults of the others; and such is every object that
spells the values of some fields in any order, with any blanks, and numbers in any notation that is
nearest to the value. -/
theorem document_round_trip (library : JsonLibrary) (lawful : library.Lawful)
    (rounds : library.RoundsCorrectly) {machine : Machine} (finite : machine.isFinite = true) :
    (library.readMachine? (library.compact machine.fields) = some machine ∧
      library.readMachine? (library.pretty machine.fields) = some machine ∧
      library.readMachine? (library.pretty machine.fields ++ "\n") = some machine) ∧
    (∀ (text : String) (members : List (String × Option Scalar)) (keys : List Key), keys.Nodup →
      library.parse? text = some (.object members) →
      known members = (keys.map fun key => (key, some (machine.get key))) →
        ∃ after, library.readMachine? text = some after ∧ machine.Keeps keys after) ∧
    ∀ (lead inner trail : Blanks) (keys : List Key) (members : List Member), keys.Nodup →
      List.Forall₂ (Gives machine) keys members →
        ∃ after, library.readMachine? (Json.object lead inner trail members) = some after ∧
          machine.Keeps keys after := by
  choose token spells denotes using fun key =>
    exists_token_denotes rounds (isFinite_get finite key)
  -- A document of all fields leaves no default.
  have whole (lead inner trail beforeName beforeValue : Blanks) :
      library.readMachine? (Json.object lead inner trail
        (Key.all.map (member spells beforeName beforeValue))) = some machine := by
    have gives : List.Forall₂ (Gives machine) Key.all
        (Key.all.map (member spells beforeName beforeValue)) := by
      rw [List.forall₂_map_right_iff, List.forall₂_same]
      exact fun key _ => ⟨rfl, denotes key⟩
    obtain ⟨after, read, keeps⟩ :=
      exists_readMachine?_object lawful rounds lead inner trail gives (by decide)
    have same : after = machine := by
      apply ext_get
      intro key
      rw [keeps, if_pos (Key.mem_all key)]
    rw [read, same]
  refine ⟨⟨?_, ?_, ?_⟩, ?_, ?_⟩
  · rw [compact_fields spells lawful]
    exact whole ..
  · have bare := pretty_fields spells lawful .none
    rw [show String.ofList Blanks.none.text = "" from rfl, String.append_empty] at bare
    rw [bare]
    exact whole ..
  · rw [show "\n" = String.ofList Blanks.newline.text from rfl, pretty_fields spells lawful]
    exact whole ..
  · intro text members keys nodup parsed gives
    exact exists_readMachine? parsed gives nodup
  · intro lead inner trail keys members nodup gives
    exact exists_readMachine?_object lawful rounds lead inner trail gives nodup

private theorem spells_least :
    Numeral.Spells ⟨false, ['0'], ['0', '5'], -322⟩ "0.05E-322".toList := by
  have exponent : SpellsExponent (-322) ['E', '-', '3', '2', '2'] :=
    @SpellsExponent.marked 'E' ['-'] ['3', '2', '2'] (.inr rfl) (by simp) (by simp) (by simp)
  exact ⟨⟨by simp, by simp, .inl rfl⟩, by simp, _, exponent, by decide +kernel⟩

/-- A negative zero, the least subnormal number and the greatest finite one are read back, by either
library; and two of the fields alone, one of them in another notation, leave the defaults of the
others. -/
theorem document_round_trip_extremes :
    let machine : Machine :=
      { x := Float.ofBits 0x8000000000000000, y := Float.ofBits 1,
        z := Float.ofBits 0x7fefffffffffffff, homed := true }
    let text := "\x7b\"x\":-0.0,\"y\":5e-324,\"z\":1.7976931348623157e+308,\"e\":0.0," ++
      "\"e_absolute\":0.0,\"feedrate\":0.0,\"relative_extrusion\":false," ++
      "\"relative_coordinates\":false,\"is_homed\":true\x7d"
    let part := "\x7b \"is_homed\": true, \"y\":0.05E-322\n\x7d\n"
    precise.compact machine.fields = text ∧ precise.readMachine? text = some machine ∧
      fast.compact machine.fields = text ∧ fast.readMachine? text = some machine ∧
      ∃ after, precise.readMachine? part = some after ∧ machine.Keeps [.homed, .y] after := by
  intro machine text part
  have finite : machine.isFinite = true := by decide +kernel
  have written : precise.compact machine.fields = text := by decide +kernel
  obtain ⟨⟨compact, -⟩, -, spelled⟩ :=
    document_round_trip precise lawful_precise roundsCorrectly_precise finite
  rw [written] at compact
  -- The two libraries differ in how they read only.
  refine ⟨written, compact, written, by decide +kernel, ?_⟩
  let homed : Member :=
    ⟨"is_homed", isPlain_name .homed, .flag true, _, .flag true, .space, .none, .space, .none⟩
  let least : Member := ⟨"y", isPlain_name .y, _, _, .number spells_least, .space, .none, .none, .none⟩
  have same : Json.object .none .newline .newline [homed, least] = part := by decide +kernel
  rw [← same]
  refine spelled .none .newline .newline [.homed, .y] [homed, least] (by decide) ?_
  exact .cons ⟨rfl, .flag true⟩
    (.cons ⟨rfl, .number (by decide +kernel) (by decide +kernel)⟩ .nil)

end JsonLibrary

end Toolpath
