import Mathlib
import Toolpath.Pass
import Toolpath.Proofs.Line.Language

/-! # The arrangement of a line says nothing

A word fills one slot of a line, and which one follows from the word alone. As long as no two words
fill the same slot it does not matter which of them is the last, so the words of a line can come in
any order, with any blanks around them and with their letters in either case where the case says
nothing. The line that is read is the same, and with it all that a pass does with the line.
-/

namespace Toolpath

namespace Params

variable {α : Type}

theorem get?_eq_some_iff {params : Params α} {key : Char} {value : α} :
    params.get? key = some value ↔ (key, value) ∈ params.entries := by
  constructor
  · intro found
    obtain ⟨entry, first, rfl⟩ := Option.map_eq_some_iff.mp found
    obtain rfl : entry.1 = key := by simpa using List.find?_some first
    exact List.mem_of_find?_eq_some first
  · intro member
    obtain ⟨entries, sorted⟩ := params
    rw [get?]
    induction entries with
    | nil => contradiction
    | cons first rest ih =>
      obtain ⟨below, tail⟩ := List.pairwise_cons.mp sorted
      rcases List.mem_cons.mp member with rfl | later
      · simp
      · have different : first.1 ≠ key := Char.ne_of_lt (below _ later)
        rw [List.find?_cons_of_neg (by simpa using different)]
        exact ih tail later

/-- Parameters with the same value under every key are the same. -/
theorem eq_of_get? {first second : Params α} (same : ∀ key, first.get? key = second.get? key) :
    first = second := by
  have members (entry : Char × α) : entry ∈ first.entries ↔ entry ∈ second.entries := by
    rw [← get?_eq_some_iff, ← get?_eq_some_iff, same]
  have distinct (params : Params α) : params.entries.Nodup :=
    params.sorted.imp fun below same => Char.ne_of_lt below (congrArg Prod.fst same)
  have rearranged := (List.perm_ext_iff_of_nodup (distinct first) (distinct second)).mpr members
  have entries : first.entries = second.entries :=
    rearranged.eq_of_pairwise (fun _ _ _ _ below above => absurd below (Char.lt_asymm above))
      first.sorted second.sorted
  cases first
  cases second
  simpa using entries

end Params

/-- The letters that are read in either case, as small letters. -/
def foldedLetters : List Char := ['g', 'm', 'x', 'y', 'z', 'e', 'f']

/-- A word with a capital letter in front, if the case of that letter says nothing. -/
def Word.capitalized : List Char → List Char
  | [] => []
  | letter :: rest => (if letter ∈ foldedLetters then letter.toUpper else letter) :: rest

namespace Line

/-- A place of a line that one word fills. -/
inductive Slot where
  | command
  | x
  | y
  | z
  | e
  | feedrate
  /-- The number under a key. -/
  | number (key : Char)
  /-- The text under a key. -/
  | text (key : Char)
  deriving DecidableEq, Repr

/-- The slot that a word fills, if it fits one. -/
def slot? : List Char → Option Slot
  | [] => none
  | letter :: rest =>
    let number := Numeral.read? rest
    match letter with
    | 'G' | 'g' | 'M' | 'm' => (Numeral.natural? maxCode rest).map fun _ => .command
    | 'X' | 'x' => number.map fun _ => .x
    | 'Y' | 'y' => number.map fun _ => .y
    | 'Z' | 'z' => number.map fun _ => .z
    | 'E' | 'e' => number.map fun _ => .e
    | 'F' | 'f' => number.map fun _ => .feedrate
    | key => some (if number.isSome then .number key else .text key)

/-- The letters of each slot that a number fills. -/
def numberSlots : List (List Char × Slot) :=
  [(['X', 'x'], .x), (['Y', 'y'], .y), (['Z', 'z'], .z), (['E', 'e'], .e), (['F', 'f'], .feedrate)]

section Slots

variable {word : List Char}

theorem slot?_of_command? {command : Command} (given : command? word = some command) :
    slot? word = some .command := by
  cases word with
  | nil => contradiction
  | cons letter rest =>
    simp only [command?, List.mem_cons, List.not_mem_nil, or_false] at given
    split_ifs at given with g m
    · obtain ⟨code, spelt, -⟩ := Option.map_eq_some_iff.mp given
      rcases g with rfl | rfl <;> simp [slot?, spelt]
    · obtain ⟨code, spelt, -⟩ := Option.map_eq_some_iff.mp given
      rcases m with rfl | rfl <;> simp [slot?, spelt]

theorem slot?_of_number? {entry : List Char × Slot} (known : entry ∈ numberSlots) {value : Float}
    (given : number? entry.1 word = some value) : slot? word = some entry.2 := by
  cases word with
  | nil => contradiction
  | cons letter rest =>
    rw [number?] at given
    split_ifs at given with typed
    simp only [numberSlots, List.mem_cons, List.not_mem_nil, or_false] at known
    rcases known with rfl | rfl | rfl | rfl | rfl
    all_goals
      simp only [List.mem_cons, List.not_mem_nil, or_false] at typed
      rcases typed with rfl | rfl <;> simp [slot?, given]

theorem slot?_of_isParamLetter {letter : Char} (param : IsParamLetter letter) (rest : List Char) :
    slot? (letter :: rest) =
      some (if (Numeral.read? rest).isSome then .number letter else .text letter) := by
  simp only [slot?]
  split
  case h_15 => rfl
  all_goals exact absurd param (by decide)

theorem slot?_of_numberParam? {key : Char} {value : Float}
    (given : numberParam? key word = some value) : slot? word = some (.number key) := by
  cases word with
  | nil => contradiction
  | cons letter rest =>
    rw [numberParam?] at given
    split_ifs at given with keyed
    obtain ⟨rfl, param⟩ := keyed
    rw [slot?_of_isParamLetter param, given]
    rfl

theorem slot?_of_textParam? {key : Char} {text : String}
    (given : textParam? key word = some text) : slot? word = some (.text key) := by
  cases word with
  | nil => contradiction
  | cons letter rest =>
    rw [textParam?] at given
    split_ifs at given with keyed
    obtain ⟨rfl, param, noNumber⟩ := keyed
    rw [slot?_of_isParamLetter param, noNumber]
    rfl

end Slots

/-- Two words that give the same to every slot, and of which both fit their slots or neither. -/
structure SaysSame (first second : List Char) : Prop where
  command : command? first = command? second
  number : ∀ entry ∈ numberSlots, number? entry.1 first = number? entry.1 second
  numberParam : ∀ key, numberParam? key first = numberParam? key second
  textParam : ∀ key, textParam? key first = textParam? key second
  fits : misfit? first = none ↔ misfit? second = none

theorem SaysSame.refl (word : List Char) : SaysSame word word :=
  ⟨rfl, fun _ _ => rfl, fun _ => rfl, fun _ => rfl, Iff.rfl⟩

theorem saysSame_capitalized (word : List Char) : SaysSame (Word.capitalized word) word := by
  cases word with
  | nil => exact .refl []
  | cons letter rest =>
    rw [Word.capitalized]
    split_ifs with folded
    · simp only [foldedLetters, List.mem_cons, List.not_mem_nil, or_false] at folded
      rcases folded with rfl | rfl | rfl | rfl | rfl | rfl | rfl
      all_goals
        constructor
        case command => rfl
        case number =>
          intro entry known
          rw [number?, number?]
          congr 1
          revert entry
          decide
        all_goals
          intros
          simp [numberParam?, textParam?, misfit?, IsParamLetter, commandLetters, numberLetters]
    · exact .refl _

section Arrangement

variable {words others : List (List Char)}
  (distinct : (words.filterMap slot?).Nodup)
  (rearranged : (words.map Word.capitalized).Perm (others.map Word.capitalized))
include distinct rearranged

/-- What the last word for a slot gives does not depend on the order of the words or on the case of
their letters, for one word at most fills the slot. -/
theorem lastOf_rearranged {α : Type} {given : List Char → Option α} {slot : Slot}
    (fills : ∀ {word value}, given word = some value → slot? word = some slot)
    (caseless : ∀ word, given (Word.capitalized word) = given word) :
    lastOf given words = lastOf given others := by
  have values (list : List (List Char)) :
      (list.map Word.capitalized).filterMap given = list.filterMap given := by
    rw [List.filterMap_map, show given ∘ Word.capitalized = given from funext caseless]
  have single : (words.filterMap given).Pairwise fun _ _ => False := by
    rw [List.pairwise_filterMap]
    refine (List.pairwise_filterMap.mp distinct).imp ?_
    intro first second apart _ early _ late
    exact apart slot (fills early) slot (fills late) rfl
  have permuted := rearranged.filterMap given
  rw [values, values] at permuted
  rw [lastOf, lastOf]
  cases held : words.filterMap given with
  | nil =>
    rw [held, List.nil_perm] at permuted
    rw [permuted]
  | cons value rest =>
    rw [held, List.pairwise_cons] at single
    obtain rfl : rest = [] := List.eq_nil_iff_forall_not_mem.mpr single.1
    rw [held, List.singleton_perm] at permuted
    rw [← permuted]

theorem lastOf_number_rearranged (entry : List Char × Slot) (known : entry ∈ numberSlots) :
    lastOf (number? entry.1) words = lastOf (number? entry.1) others :=
  lastOf_rearranged distinct rearranged (slot?_of_number? known)
    fun word => (saysSame_capitalized word).number entry known

/-- A line that holds what some words give holds what they give in any other arrangement. -/
theorem Tells.of_rearranged {line : Line} (told : Tells words line) : Tells others line := by
  have number := lastOf_number_rearranged distinct rearranged
  constructor
  case command =>
    rw [told.command]
    exact lastOf_rearranged distinct rearranged slot?_of_command?
      fun word => (saysSame_capitalized word).command
  case x => exact told.x.trans (number (['X', 'x'], .x) (by decide))
  case y => exact told.y.trans (number (['Y', 'y'], .y) (by decide))
  case z => exact told.z.trans (number (['Z', 'z'], .z) (by decide))
  case e => exact told.e.trans (number (['E', 'e'], .e) (by decide))
  case feedrate => rw [told.feedrate, number (['F', 'f'], .feedrate) (by decide)]
  case numbers =>
    intro key
    rw [told.numbers key]
    exact lastOf_rearranged distinct rearranged slot?_of_numberParam?
      fun word => (saysSame_capitalized word).numberParam key
  case texts =>
    intro key
    rw [told.texts key]
    exact lastOf_rearranged distinct rearranged slot?_of_textParam?
      fun word => (saysSame_capitalized word).textParam key

end Arrangement

/-- Whether all words fit their slots does not depend on their arrangement. -/
theorem fits_of_rearranged {words others : List (List Char)}
    (rearranged : (words.map Word.capitalized).Perm (others.map Word.capitalized))
    (fits : ∀ word ∈ words, misfit? word = none) : ∀ word ∈ others, misfit? word = none := by
  intro word member
  have listed := rearranged.mem_iff.mpr (List.mem_map_of_mem member)
  obtain ⟨other, present, same⟩ := List.mem_map.mp listed
  rw [← (saysSame_capitalized word).fits, ← same, (saysSame_capitalized other).fits]
  exact fits other present

/-- Lines that hold what the same words give differ at most in their comments. -/
theorem Tells.unique {words : List (List Char)} {line other : Line} (told : Tells words line)
    (again : Tells words other) (comment : line.comment = other.comment) : line = other := by
  have numbers : line.numbers = other.numbers :=
    Params.eq_of_get? fun key => (told.numbers key).trans (again.numbers key).symm
  have texts : line.texts = other.texts :=
    Params.eq_of_get? fun key => (told.texts key).trans (again.texts key).symm
  have command := told.command.trans again.command.symm
  have x := told.x.trans again.x.symm
  have y := told.y.trans again.y.symm
  have z := told.z.trans again.z.symm
  have e := told.e.trans again.e.symm
  have feedrate := told.feedrate.trans again.feedrate.symm
  cases line
  cases other
  simp only at command x y z e feedrate numbers texts comment
  subst command x y z e feedrate numbers texts comment
  rfl

/-- A text can be read exactly if its words fit their slots. -/
theorem exists_read_iff {text : String} :
    (∃ line, read text = .ok line) ↔
      ∀ word ∈ Word.runs (Word.code text.toList), misfit? word = none := by
  constructor
  · rintro ⟨line, outcome⟩
    by_contra unfit
    cases found : (Word.runs (Word.code text.toList)).findSome? misfit? with
    | none => exact unfit (List.findSome?_eq_none_iff.mp found)
    | some fault =>
      obtain ⟨front, word, back, split, misfit, fits⟩ := List.findSome?_eq_some_iff.mp found
      rw [read_of_misfit text split fits misfit] at outcome
      contradiction
  · intro fits
    obtain ⟨line, outcome, -⟩ := read_of_fit text fits
    exact ⟨line, outcome⟩

/-- A text that can be read is read as the same line in any other arrangement. -/
theorem read_of_rearranged {first second : String} {words others : List (List Char)}
    {remark : List Char} (firstDivides : Word.Divides first.toList words remark)
    (secondDivides : Word.Divides second.toList others remark)
    (rearranged : (words.map Word.capitalized).Perm (others.map Word.capitalized))
    (distinct : (words.filterMap slot?).Nodup)
    {line : Line} (outcome : read first = .ok line) : read second = .ok line := by
  obtain ⟨rfl, rfl⟩ := Word.divides_iff.mp firstDivides
  obtain ⟨rfl, sameRemark⟩ := Word.divides_iff.mp secondDivides
  have fits := exists_read_iff.mp ⟨line, outcome⟩
  obtain ⟨again, sameOutcome, told, comment⟩ := read_of_fit first fits
  obtain ⟨other, otherOutcome, otherTold, otherComment⟩ :=
    read_of_fit second (fits_of_rearranged rearranged fits)
  obtain rfl : line = again := Except.ok.inj (outcome.symm.trans sameOutcome)
  rw [otherOutcome]
  refine congrArg Except.ok (otherTold.unique (told.of_rearranged distinct rearranged) ?_)
  rw [comment, otherComment, sameRemark]

/-- Two texts with the same comment whose words are the same, in any order, with any blanks around
them and with the letters of commands, coordinates and feed rates in either case, and of which no
two fill the same slot. Both can be read or neither can, and they are read as the same line. So a
pass makes the same of both: the same machine, the same outcome with the same text, and the same
notes; texts that cannot be read leave the machine where it was. -/
theorem arrangement_immaterial {first second : String} {words others : List (List Char)}
    {remark : List Char} (firstDivides : Word.Divides first.toList words remark)
    (secondDivides : Word.Divides second.toList others remark)
    (rearranged : (words.map Word.capitalized).Perm (others.map Word.capitalized))
    (distinct : (words.filterMap slot?).Nodup) :
    (∀ line, read first = .ok line ↔ read second = .ok line) ∧
    ∀ (tuning : Tuning) (machine : Machine) (number : Nat),
      tuning.turn machine number first = tuning.turn machine number second ∨
      ∃ fault other, read first = .error fault ∧ read second = .error other ∧
        tuning.turn machine number first = ⟨machine, .failed (.unreadable fault), []⟩ ∧
        tuning.turn machine number second = ⟨machine, .failed (.unreadable other), []⟩ := by
  have forward {line : Line} (outcome : read first = .ok line) : read second = .ok line :=
    read_of_rearranged firstDivides secondDivides rearranged distinct outcome
  have back : (∃ line, read second = .ok line) → ∃ line, read first = .ok line := by
    obtain ⟨rfl, -⟩ := Word.divides_iff.mp firstDivides
    obtain ⟨rfl, -⟩ := Word.divides_iff.mp secondDivides
    rw [exists_read_iff, exists_read_iff]
    exact fits_of_rearranged rearranged.symm
  have both (line : Line) : read first = .ok line ↔ read second = .ok line := by
    refine ⟨forward, fun outcome => ?_⟩
    obtain ⟨other, readable⟩ := back ⟨line, outcome⟩
    obtain rfl : other = line := Except.ok.inj ((forward readable).symm.trans outcome)
    exact readable
  refine ⟨both, ?_⟩
  intro tuning machine number
  cases outcome : read first with
  | ok line =>
    left
    simp only [Tuning.turn, outcome, (both line).mp outcome]
  | error fault =>
    right
    cases again : read second with
    | ok line => simp [(both line).mpr again] at outcome
    | error other =>
      refine ⟨fault, other, rfl, rfl, ?_, ?_⟩
      · rw [Tuning.turn, outcome]
      · rw [Tuning.turn, again]

/-- A key in either case names two parameters, and a key can have a number and a text. -/
theorem arrangement_immaterial_shared_key :
    let first := "M900 X1 s5 s7a S5 f900;c"
    let second := "\tS5 s7a\x0cF900 x1  s5\r m900 ;c"
    let words := ["M900".toList, "X1".toList, "s5".toList, "s7a".toList, "S5".toList, "f900".toList]
    let others :=
      ["S5".toList, "s7a".toList, "F900".toList, "x1".toList, "s5".toList, "m900".toList]
    Word.Divides first.toList words ";c".toList ∧ Word.Divides second.toList others ";c".toList ∧
      (words.map Word.capitalized).Perm (others.map Word.capitalized) ∧
      (words.filterMap slot?).Nodup ∧
      (∀ line, read first = .ok line ↔ read second = .ok line) ∧
      (Tuning.permissive.turn {} 1 first).verdict = .kept "M900 X1 F900 S5 s5 s7a ;c" ∧
      Tuning.permissive.turn {} 1 first = Tuning.permissive.turn {} 1 second := by
  intro first second words others
  have firstDivides : Word.Divides first.toList words ";c".toList :=
    Word.divides_iff.mpr ⟨by decide +kernel, by decide +kernel⟩
  have secondDivides : Word.Divides second.toList others ";c".toList :=
    Word.divides_iff.mpr ⟨by decide +kernel, by decide +kernel⟩
  have rearranged : (words.map Word.capitalized).Perm (others.map Word.capitalized) := by
    decide +kernel
  have distinct : (words.filterMap slot?).Nodup := by decide +kernel
  have kept : (Tuning.permissive.turn {} 1 first).verdict = .kept "M900 X1 F900 S5 s5 s7a ;c" := by
    decide +kernel
  obtain ⟨same, turns⟩ := arrangement_immaterial firstDivides secondDivides rearranged distinct
  refine ⟨firstDivides, secondDivides, rearranged, distinct, same, kept, ?_⟩
  obtain together | ⟨_, _, -, -, failed, -⟩ := turns .permissive {} 1
  · exact together
  · simp [failed] at kept

-- Of two words for one slot the last one counts, so their order does matter.
example : (read "X1 x2").toOption.map Line.x = some (some 2.0) ∧
    (read "x2 X1").toOption.map Line.x = some (some 1.0) := by
  decide +kernel

end Line

end Toolpath
