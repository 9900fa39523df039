import Mathlib
import Toolpath.Line.Reader
import Toolpath.Proofs.Line.Scanning

/-! # What a text is read as

The words of a line are the runs of characters that are not blank before the first comment marker.
Which slot a word is for follows from its letter. A command word needs a code, and a word for a
coordinate or a feed rate needs a number. The leftmost word without it is the fault of the line. If
every word has what it needs, each slot of the line holds what the last word for that slot gives.
-/

namespace Toolpath

/-- A letter becomes a capital letter if it is that letter in either case. -/
theorem toUpper_eq_iff {letter capital : Char} (upper : capital.isUpper) :
    letter.toUpper = capital ↔ letter = capital ∨ letter = capital.toLower := by
  have fixed : capital.toUpper = capital :=
    Char.toUpper_eq_of_not_isLower (Char.not_isLower_of_isUpper upper)
  constructor
  · rintro rfl
    by_cases lower : letter.isLower
    · right
      rw [Char.toLower_toUpper_eq_toLower,
        Char.toLower_eq_of_not_isUpper (Char.not_isUpper_of_isLower lower)]
    · exact .inl (Char.toUpper_eq_of_not_isLower lower).symm
  · rintro (rfl | rfl)
    · exact fixed
    · rw [Char.toUpper_toLower_eq_toUpper, fixed]

namespace Word

/-- The blanks: space, tab, line feed, form feed and carriage return. -/
def blanks : List Char := [' ', '\t', '\n', '\x0c', '\r']

theorem isBlank_eq_true_iff {c : Char} : isBlank c = true ↔ c ∈ blanks := by
  simp [isBlank, blanks, or_assoc]

theorem isBlank_eq_false_iff {c : Char} : isBlank c = false ↔ c ∉ blanks := by
  rw [← isBlank_eq_true_iff, Bool.not_eq_true]

/-- A text is made of words in order, with blanks around them and between them. -/
inductive Separated : List Char → List (List Char) → Prop where
  | done : Separated [] []
  | blank {c : Char} {rest : List Char} {words : List (List Char)} (separates : c ∈ blanks)
      (tail : Separated rest words) : Separated (c :: rest) words
  | word {word rest : List Char} {words : List (List Char)} (nonempty : word ≠ [])
      (unbroken : ∀ c ∈ word, c ∉ blanks) (ended : ∀ c ∈ rest.head?, c ∈ blanks)
      (tail : Separated rest words) : Separated (word ++ rest) (word :: words)

theorem Separated.runs_eq {text : List Char} {words : List (List Char)}
    (separated : Separated text words) : runs text = words := by
  induction separated with
  | done => rfl
  | blank separates tail ih =>
    rw [← ih]
    exact runs_append_cons [] _ (isBlank_eq_true_iff.mpr separates)
  | @word word rest words nonempty unbroken ended tail ih =>
    have alone : runs word = [word] :=
      runs_of_unbroken nonempty fun c member => isBlank_eq_false_iff.mpr (unbroken c member)
    rw [runs_append_of_head? fun c first => isBlank_eq_true_iff.mpr (ended c first), alone, ih]
    rfl

theorem exists_separated (text : List Char) : ∃ words, Separated text words := by
  induction text with
  | nil => exact ⟨[], .done⟩
  | cons c rest ih =>
    obtain ⟨words, tail⟩ := ih
    by_cases blank : c ∈ blanks
    · exact ⟨words, .blank blank tail⟩
    -- The character goes in front of a word that starts here, or is a word of its own.
    · have start (word : List Char) (unbroken : ∀ c ∈ word, c ∉ blanks) :
          ∀ other ∈ c :: word, other ∉ blanks := List.forall_mem_cons.mpr ⟨blank, unbroken⟩
      cases tail with
      | done => exact ⟨[[c]], .word (List.cons_ne_nil _ _) (start [] nofun) nofun .done⟩
      | @blank other rest words separates tail =>
        have alone : Separated ([c] ++ other :: rest) ([c] :: words) :=
          .word (List.cons_ne_nil _ _) (start [] nofun) (by simpa using separates)
            (.blank separates tail)
        exact ⟨_, alone⟩
      | @word word rest words nonempty unbroken ended tail =>
        exact ⟨(c :: word) :: words, .word (List.cons_ne_nil _ _) (start word unbroken) ended tail⟩

theorem separated_runs (text : List Char) : Separated text (runs text) := by
  obtain ⟨words, separated⟩ := exists_separated text
  rwa [separated.runs_eq]

/-- A line is words before the first marker, and a comment from there on. -/
structure Divides (line : List Char) (words : List (List Char)) (remark : List Char) : Prop where
  code : ∃ code, line = code ++ remark ∧ ';' ∉ code ∧ Separated code words
  marked : ∀ c ∈ remark.head?, c = ';'

/-- A line divides in one way, the one in which it is scanned. -/
theorem divides_iff {line : List Char} {words : List (List Char)} {remark : List Char} :
    Divides line words remark ↔ words = runs (code line) ∧ remark = Word.remark line := by
  constructor
  · rintro ⟨⟨code, rfl, unmarked, separated⟩, marked⟩
    have cut : Word.code remark = [] ∧ Word.remark remark = remark := by
      cases remark with
      | nil => exact ⟨rfl, rfl⟩
      | cons marker rest =>
        obtain rfl : marker = ';' := marked marker rfl
        exact ⟨rfl, rfl⟩
    rw [code_append unmarked, remark_append unmarked, cut.1, cut.2, List.append_nil]
    exact ⟨separated.runs_eq.symm, rfl⟩
  · rintro ⟨rfl, rfl⟩
    exact ⟨⟨code line, (code_append_remark line).symm, marker_not_mem_code line,
      separated_runs _⟩, marked_remark line⟩

end Word

namespace Params

variable {α : Type}

theorem find?_place_self (key : Char) (value : α) (entries : List (Char × α)) :
    (place key value entries).find? (·.1 = key) = some (key, value) := by
  induction entries with
  | nil => simp [place]
  | cons first rest ih =>
    rw [place]
    split_ifs with before after
    · simp
    · rw [List.find?_cons_of_neg (by simpa using Char.ne_of_lt after), ih]
    · simp

theorem find?_place_of_ne {key other : Char} (different : other ≠ key) (value : α)
    (entries : List (Char × α)) :
    (place key value entries).find? (·.1 = other) = entries.find? (·.1 = other) := by
  induction entries with
  | nil => simp [place, different.symm]
  | cons first rest ih =>
    rw [place]
    split_ifs with before after
    · rw [List.find?_cons_of_neg (by simpa using different.symm)]
    · rw [List.find?_cons, List.find?_cons, ih]
    · have same : first.1 = key :=
        Char.le_antisymm (Char.not_lt.mp before) (Char.not_lt.mp after)
      rw [List.find?_cons_of_neg (by simpa using different.symm),
        List.find?_cons_of_neg (by simpa [same] using different.symm)]

/-- A parameter that was added is found, and no other one is touched. -/
theorem get?_insert (params : Params α) (key other : Char) (value : α) :
    (params.insert key value).get? other =
      if key = other then some value else params.get? other := by
  split_ifs with same
  · rw [← same, get?, insert, find?_place_self]
    rfl
  · rw [get?, insert, find?_place_of_ne (Ne.symm same)]
    rfl

end Params

namespace Line

/-- The letters of command words. -/
def commandLetters : List Char := ['G', 'g', 'M', 'm']

/-- The letters of words that need a number. -/
def numberLetters : List Char := ['X', 'x', 'Y', 'y', 'Z', 'z', 'E', 'e', 'F', 'f']

/-- A letter of a parameter is one that no command, coordinate or feed rate starts with. -/
def IsParamLetter (letter : Char) : Prop := letter ∉ commandLetters ∧ letter ∉ numberLetters

instance (letter : Char) : Decidable (IsParamLetter letter) :=
  inferInstanceAs (Decidable (_ ∧ _))

/-- Why a word does not fit its slot, if it does not. -/
def misfit? : List Char → Option ReadFault
  | [] => none
  | letter :: rest =>
    let word := String.ofList (letter :: rest)
    if letter ∈ commandLetters then
      if (Numeral.natural? maxCode rest).isSome then none else some (.invalidCommand word)
    else if letter ∈ numberLetters then
      if (Numeral.read? rest).isSome then none else some (.invalidNumber letter word)
    else none

/-- The command that a word gives. -/
def command? : List Char → Option Command
  | [] => none
  | letter :: rest =>
    if letter ∈ ['G', 'g'] then
      (Numeral.natural? maxCode rest).map fun code => ⟨.g, UInt16.ofNat code⟩
    else if letter ∈ ['M', 'm'] then
      (Numeral.natural? maxCode rest).map fun code => ⟨.m, UInt16.ofNat code⟩
    else none

/-- The number that a word with one of some letters gives. -/
def number? (letters : List Char) : List Char → Option Float
  | [] => none
  | letter :: rest => if letter ∈ letters then Numeral.read? rest else none

/-- The number that a word gives to the parameter with some key. -/
def numberParam? (key : Char) : List Char → Option Float
  | [] => none
  | letter :: rest => if letter = key ∧ IsParamLetter letter then Numeral.read? rest else none

/-- The text that a word gives to the parameter with some key, if it is not a number. -/
def textParam? (key : Char) : List Char → Option String
  | [] => none
  | letter :: rest =>
    if letter = key ∧ IsParamLetter letter ∧ Numeral.read? rest = none then
      some (String.ofList rest)
    else none

/-- What the last word for a slot gives. -/
def lastOf {α : Type} (slot : List Char → Option α) (words : List (List Char)) : Option α :=
  (words.filterMap slot).getLast?

/-- A word at the end is the last for its slot, if it is for that slot. -/
theorem lastOf_concat {α : Type} (slot : List Char → Option α) (words : List (List Char))
    (word : List Char) :
    lastOf slot (words ++ [word]) = (slot word).or (lastOf slot words) := by
  rw [lastOf, List.filterMap_append, List.getLast?_append, lastOf]
  cases given : slot word with
  | none => simp [given]
  | some value => simp [given]

/-- Every slot of a line, its comment apart, holds what the last word for it gives. -/
structure Tells (words : List (List Char)) (line : Line) : Prop where
  command : line.command = lastOf command? words
  x : line.x = lastOf (number? ['X', 'x']) words
  y : line.y = lastOf (number? ['Y', 'y']) words
  z : line.z = lastOf (number? ['Z', 'z']) words
  e : line.e = lastOf (number? ['E', 'e']) words
  feedrate : line.feedrate = (lastOf (number? ['F', 'f']) words).getD 0.0
  numbers : ∀ key, line.numbers.get? key = lastOf (numberParam? key) words
  texts : ∀ key, line.texts.get? key = lastOf (textParam? key) words

/-- One more word replaces what the slot that it is for holds, and nothing else. -/
structure Enters (word : List Char) (before after : Line) : Prop where
  command : after.command = (command? word).or before.command
  x : after.x = (number? ['X', 'x'] word).or before.x
  y : after.y = (number? ['Y', 'y'] word).or before.y
  z : after.z = (number? ['Z', 'z'] word).or before.z
  e : after.e = (number? ['E', 'e'] word).or before.e
  feedrate : after.feedrate = (number? ['F', 'f'] word).getD before.feedrate
  numbers : ∀ key, after.numbers.get? key = (numberParam? key word).or (before.numbers.get? key)
  texts : ∀ key, after.texts.get? key = (textParam? key word).or (before.texts.get? key)
  comment : after.comment = before.comment

theorem tells_nil : Tells [] blank where
  command := rfl
  x := rfl
  y := rfl
  z := rfl
  e := rfl
  feedrate := rfl
  numbers _ := rfl
  texts _ := rfl

theorem Tells.concat {words : List (List Char)} {word : List Char} {before after : Line}
    (told : Tells words before) (entered : Enters word before after) :
    Tells (words ++ [word]) after where
  command := by rw [lastOf_concat, ← told.command, entered.command]
  x := by rw [lastOf_concat, ← told.x, entered.x]
  y := by rw [lastOf_concat, ← told.y, entered.y]
  z := by rw [lastOf_concat, ← told.z, entered.z]
  e := by rw [lastOf_concat, ← told.e, entered.e]
  feedrate := by
    rw [lastOf_concat, Option.getD_or, ← told.feedrate, entered.feedrate]
  numbers key := by rw [lastOf_concat, ← told.numbers, entered.numbers]
  texts key := by rw [lastOf_concat, ← told.texts, entered.texts]

theorem ofLetter_of_isParamLetter {letter : Char} (param : IsParamLetter letter) :
    WordKind.ofLetter letter = .parameter := by
  have away {capital : Char} (upper : capital.isUpper)
      (known : ¬IsParamLetter capital ∧ ¬IsParamLetter capital.toLower) :
      letter.toUpper ≠ capital := by
    intro same
    rcases (toUpper_eq_iff upper).mp same with rfl | rfl
    · exact known.1 param
    · exact known.2 param
  rw [WordKind.ofLetter]
  split
  case h_8 => rfl
  all_goals exact absurd ‹_› (away (by decide) (by decide))

section Letters

variable (line : Line) {letter : Char} (rest : List Char)

/-- A word with the letter of a command is a command if a code follows, else the line's fault. -/
theorem take_commandLetter (isCommand : letter ∈ commandLetters) :
    take line (.ofRun (letter :: rest)) =
      match Numeral.natural? maxCode rest with
      | some code => .ok { line with command := some ⟨familyOfLetter letter, UInt16.ofNat code⟩ }
      | none => .error (.invalidCommand (String.ofList (letter :: rest))) := by
  simp only [commandLetters, List.mem_cons, List.not_mem_nil, or_false] at isCommand
  rw [take, Word.ofRun, String.toList_ofList]
  rcases isCommand with rfl | rfl | rfl | rfl <;> rfl

theorem enters_command (isCommand : letter ∈ commandLetters) {code : Nat}
    (spelt : Numeral.natural? maxCode rest = some code) :
    Enters (letter :: rest) line
      { line with command := some ⟨familyOfLetter letter, UInt16.ofNat code⟩ } := by
  simp only [commandLetters, List.mem_cons, List.not_mem_nil, or_false] at isCommand
  rcases isCommand with rfl | rfl | rfl | rfl
  all_goals
    constructor <;> intros <;>
      simp [command?, number?, numberParam?, textParam?, IsParamLetter, commandLetters, spelt,
        familyOfLetter]

/-- A word with the letter of a coordinate or a feed rate sets it, or is the fault of the line. -/
theorem take_numberLetter (isNumber : letter ∈ numberLetters) :
    ∃ set : Float → Line,
      take line (.ofRun (letter :: rest)) =
        (number letter rest (String.ofList (letter :: rest))).map set ∧
      ∀ value, Numeral.read? rest = some value → Enters (letter :: rest) line (set value) := by
  simp only [numberLetters, List.mem_cons, List.not_mem_nil, or_false] at isNumber
  rcases isNumber with rfl | rfl | rfl | rfl | rfl | rfl | rfl | rfl | rfl | rfl
  all_goals
    refine ⟨_, by rw [take, Word.ofRun, String.toList_ofList]; rfl, ?_⟩
    intro value spelt
    constructor <;> intros <;>
      simp [command?, number?, numberParam?, textParam?, IsParamLetter, numberLetters, spelt,
        setAxis]

/-- A word with any other letter is a parameter. -/
theorem take_paramLetter (param : IsParamLetter letter) :
    take line (.ofRun (letter :: rest)) = .ok (line.addParam letter rest) := by
  have kind : (Word.ofRun (letter :: rest)).kind = .parameter := ofLetter_of_isParamLetter param
  have text : (Word.ofRun (letter :: rest)).text.toList = letter :: rest := String.toList_ofList
  simp only [take, text, kind]

theorem enters_params (param : IsParamLetter letter) {numbers : Params Float}
    {texts : Params String}
    (numbersEnter : ∀ key,
      numbers.get? key = (numberParam? key (letter :: rest)).or (line.numbers.get? key))
    (textsEnter : ∀ key,
      texts.get? key = (textParam? key (letter :: rest)).or (line.texts.get? key)) :
    Enters (letter :: rest) line { line with numbers, texts } := by
  have noCommand : command? (letter :: rest) = none := by
    obtain ⟨noCommand, -⟩ := param
    simp only [commandLetters, List.mem_cons, not_or] at noCommand
    simp [command?, noCommand]
  have noNumber {letters : List Char} (typed : letters ⊆ numberLetters) :
      number? letters (letter :: rest) = none :=
    if_neg fun member => param.2 (typed member)
  constructor
  case command => rw [noCommand, Option.none_or]
  case numbers => exact numbersEnter
  case texts => exact textsEnter
  case comment => rfl
  all_goals
    rw [noNumber (by simp [numberLetters])]
    rfl

theorem enters_addParam (param : IsParamLetter letter) :
    Enters (letter :: rest) line (line.addParam letter rest) := by
  rw [addParam]
  split
  · rename_i value spelt
    apply enters_params line rest param
    · intro key
      rw [Params.get?_insert, numberParam?, spelt]
      by_cases same : letter = key
      · simp [same, same ▸ param]
      · simp [same]
    · intro key
      simp [textParam?, spelt]
  · rename_i spelt
    apply enters_params line rest param
    · intro key
      simp [numberParam?, spelt]
    · intro key
      rw [Params.get?_insert, textParam?]
      by_cases same : letter = key
      · simp [same, same ▸ param, spelt]
      · simp [same]

end Letters

/-- A word that does not fit its slot is the fault of the line. -/
theorem take_of_misfit {word : List Char} {fault : ReadFault} (misfit : misfit? word = some fault)
    (line : Line) : take line (.ofRun word) = .error fault := by
  cases word with
  | nil => contradiction
  | cons letter rest =>
    rw [misfit?] at misfit
    split_ifs at misfit with isCommand code isNumber value
    · rw [take_commandLetter line rest isCommand, Option.not_isSome_iff_eq_none.mp code,
        ← Option.some.inj misfit]
    · obtain ⟨set, taken, -⟩ := take_numberLetter line rest isNumber
      rw [taken, number, Option.not_isSome_iff_eq_none.mp value, ← Option.some.inj misfit]
      rfl

/-- A word that fits its slot is entered into the line. -/
theorem take_of_fit {word : List Char} (fits : misfit? word = none) (line : Line) :
    ∃ after, take line (.ofRun word) = .ok after ∧ Enters word line after := by
  cases word with
  | nil => exact ⟨line, rfl, by constructor <;> intros <;> rfl⟩
  | cons letter rest =>
    rw [misfit?] at fits
    split_ifs at fits with isCommand code isNumber value
    · obtain ⟨code, spelt⟩ := Option.isSome_iff_exists.mp code
      exact ⟨_, by rw [take_commandLetter line rest isCommand, spelt],
        enters_command line rest isCommand spelt⟩
    · obtain ⟨value, spelt⟩ := Option.isSome_iff_exists.mp value
      obtain ⟨set, taken, entered⟩ := take_numberLetter line rest isNumber
      exact ⟨_, by rw [taken, number, spelt]; rfl, entered value spelt⟩
    · exact ⟨_, take_paramLetter line rest ⟨isCommand, isNumber⟩,
        enters_addParam line rest ⟨isCommand, isNumber⟩⟩

/-- If every word fits its slot, the words make a line with what the last word for each slot gives,
and without a comment. -/
theorem foldlM_of_fit {words : List (List Char)} (fits : ∀ word ∈ words, misfit? word = none) :
    ∃ line, (words.map Word.ofRun).foldlM take blank = .ok line ∧ Tells words line ∧
      line.comment = none := by
  induction words using List.reverseRecOn with
  | nil => exact ⟨blank, rfl, tells_nil, rfl⟩
  | append_singleton words word ih =>
    obtain ⟨before, made, told, silent⟩ :=
      ih fun other member => fits other (List.mem_append_left _ member)
    obtain ⟨after, taken, entered⟩ := take_of_fit (fits word (by simp)) before
    refine ⟨after, ?_, told.concat entered, entered.comment.trans silent⟩
    rw [List.map_append, List.foldlM_append, made]
    change List.foldlM take before [Word.ofRun word] = .ok after
    simpa using taken

/-- The leftmost word that does not fit its slot is the fault of the line, whatever comes after. -/
theorem foldlM_of_misfit {front : List (List Char)} {word : List Char} {fault : ReadFault}
    (fits : ∀ other ∈ front, misfit? other = none) (misfit : misfit? word = some fault)
    (back : List Word) :
    (front.map Word.ofRun ++ Word.ofRun word :: back).foldlM take blank = .error fault := by
  obtain ⟨line, made, -, -⟩ := foldlM_of_fit fits
  rw [List.foldlM_append, made]
  change List.foldlM take line (Word.ofRun word :: back) = .error fault
  rw [List.foldlM_cons, take_of_misfit misfit]
  rfl

theorem read_of_misfit (text : String) {front back : List (List Char)} {word : List Char}
    {fault : ReadFault} (split : Word.runs (Word.code text.toList) = front ++ word :: back)
    (fits : ∀ other ∈ front, misfit? other = none) (misfit : misfit? word = some fault) :
    read text = .error fault := by
  simp only [read, ofWords, Word.scan, split, List.map_append, List.map_cons, List.append_assoc,
    List.cons_append]
  exact foldlM_of_misfit fits misfit _

theorem read_of_fit (text : String)
    (fits : ∀ word ∈ Word.runs (Word.code text.toList), misfit? word = none) :
    ∃ line, read text = .ok line ∧ Tells (Word.runs (Word.code text.toList)) line ∧
      line.comment = if Word.remark text.toList = [] then none
        else some (String.ofList (Word.remark text.toList)) := by
  obtain ⟨line, made, told, silent⟩ := foldlM_of_fit fits
  simp only [read, ofWords, Word.scan, List.foldlM_append, made]
  cases shape : Word.remark text.toList with
  | nil => exact ⟨line, rfl, told, silent⟩
  | cons marker rest =>
    refine ⟨{ line with comment := some (String.ofList (marker :: rest)) }, ?_, { told with }, rfl⟩
    change List.foldlM take line [Word.ofRemark (marker :: rest)] = _
    simp [take, Word.ofRemark]

/-- A text divides into its words and its comment in one way. It is not read exactly if one of the
words does not fit its slot, and the fault is that of the leftmost one. Otherwise every slot holds
what the last word for it gives, and the comment is the text from the first marker on. -/
theorem reading_specified (text : String) :
    let words := Word.runs (Word.code text.toList)
    let remark := Word.remark text.toList
    (∀ parts rest, Word.Divides text.toList parts rest ↔ parts = words ∧ rest = remark) ∧
    ((∃ fault, read text = .error fault) ↔ ∃ word ∈ words, misfit? word ≠ none) ∧
    (∀ fault, read text = .error fault ↔
      ∃ front word back, words = front ++ word :: back ∧
        (∀ other ∈ front, misfit? other = none) ∧ misfit? word = some fault) ∧
    ((∀ word ∈ words, misfit? word = none) ↔
      ∃ line, read text = .ok line ∧ Tells words line ∧
        line.comment = if remark = [] then none else some (String.ofList remark)) := by
  intro words remark
  refine ⟨fun _ _ => Word.divides_iff, ?_⟩
  cases found : words.findSome? misfit? with
  | none =>
    have fits := List.findSome?_eq_none_iff.mp found
    obtain ⟨line, outcome, told, comment⟩ := read_of_fit text fits
    refine ⟨iff_of_false ?_ ?_, fun fault => iff_of_false ?_ ?_,
      iff_of_true fits ⟨line, outcome, told, comment⟩⟩
    · simp [outcome]
    · rintro ⟨word, member, misfit⟩
      exact misfit (fits word member)
    · simp [outcome]
    · rintro ⟨front, word, back, split, -, misfit⟩
      have member : word ∈ words := split ▸ List.mem_append_right _ (List.mem_cons_self ..)
      simp [fits word member] at misfit
  | some fault =>
    obtain ⟨front, word, back, split, misfit, fits⟩ := List.findSome?_eq_some_iff.mp found
    have outcome := read_of_misfit text split fits misfit
    have member : word ∈ words := split ▸ List.mem_append_right _ (List.mem_cons_self ..)
    refine ⟨iff_of_true ⟨fault, outcome⟩ ⟨word, member, by simp [misfit]⟩, ?_,
      iff_of_false ?_ ?_⟩
    · intro other
      constructor
      · intro same
        obtain rfl : fault = other := Except.error.inj (outcome.symm.trans same)
        exact ⟨front, word, back, split, fits, misfit⟩
      · rintro ⟨front, word, back, split, fits, misfit⟩
        exact read_of_misfit text split fits misfit
    · intro allFit
      simp [allFit word member] at misfit
    · simp [outcome]

/-- A later word wins in either case of its letter, a key can have a number and a text, and of two
words that do not fit the left one is reported. -/
theorem reading_specified_mixed_words :
    (∃ line, read "\tg1 X1 x2.5 s5 s7a Ω3 S6;; F9" = .ok line ∧
      line.command = some .linearMove ∧ line.x = some 2.5 ∧ line.y = none ∧
      line.feedrate = 0.0 ∧ line.numbers.get? 's' = some 5.0 ∧
      line.texts.get? 's' = some "7a" ∧ line.numbers.get? 'Ω' = some 3.0 ∧
      line.comment = some ";; F9") ∧
    read "G1 s7a ffast M65536 X" = .error (.invalidNumber 'f' "ffast") := by
  constructor
  · obtain ⟨line, outcome, told, comment⟩ :=
      (reading_specified "\tg1 X1 x2.5 s5 s7a Ω3 S6;; F9").2.2.2.mp (by decide +kernel)
    refine ⟨line, outcome, told.command.trans ?_, told.x.trans ?_, told.y.trans ?_,
      told.feedrate.trans ?_, (told.numbers _).trans ?_, (told.texts _).trans ?_,
      (told.numbers _).trans ?_, comment.trans ?_⟩
    all_goals decide +kernel
  · have fault := (reading_specified "G1 s7a ffast M65536 X").2.2.1 (.invalidNumber 'f' "ffast")
    refine fault.mpr ⟨["G1".toList, "s7a".toList], "ffast".toList, ["M65536".toList, "X".toList],
      ?_, ?_, ?_⟩
    all_goals decide +kernel

end Line

end Toolpath
