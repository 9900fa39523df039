import Mathlib
import Toolpath.Line.Reader
import Toolpath.Line.Writer
import Toolpath.Proofs.Decimal.Reading
import Toolpath.Proofs.Line.Scanning

/-! # Reading a written line

A legible line is one whose parameters and comment the reader would take back as they are. Every
line that was read is legible. Writing a legible line and reading the text gives the line with
each number replaced by its settled float, so all that a trip through text can change is the
rounding of numbers, and a feed rate that rounds to zero is no longer mentioned.
-/

namespace Toolpath

theorem exists_of_map_eq_ok {ε α β : Type} {f : α → β} {result : Except ε α} {image : β}
    (mapped : result.map f = .ok image) : ∃ value, result = .ok value ∧ f value = image := by
  cases result with
  | error fault => contradiction
  | ok value => exact ⟨value, rfl, Except.ok.inj mapped⟩

/-- A character that can be the key of a parameter. -/
structure IsKey (key : Char) : Prop where
  parameter : WordKind.ofLetter key = .parameter
  word : isWordChar key

/-- Places that every number can be written with. -/
structure Precision.Fits (precision : Precision) : Prop where
  xy : precision.xy ≤ Fixed.maxPlaces
  z : precision.z ≤ Fixed.maxPlaces
  e : precision.e ≤ Fixed.maxPlaces

namespace Params

variable {α β : Type}

/-- The same keys with other values. -/
def map (f : α → β) (params : Params α) : Params β where
  entries := params.entries.map fun entry => (entry.1, f entry.2)
  sorted := List.pairwise_map.mpr params.sorted

@[simp] theorem map_isEmpty (f : α → β) (params : Params α) :
    (params.map f).isEmpty = params.isEmpty := by
  simp [map, isEmpty]

private theorem place_of_lt {key : Char} {value : α} {entries : List (Char × α)}
    (above : ∀ entry ∈ entries, entry.1 < key) :
    place key value entries = entries ++ [(key, value)] := by
  induction entries with
  | nil => rfl
  | cons first rest ih =>
    have below := above first (List.mem_cons_self ..)
    have later : ∀ entry ∈ rest, entry.1 < key := by
      intro entry member
      exact above entry (List.mem_cons_of_mem _ member)
    rw [place, if_neg (fun above => Char.lt_irrefl _ (Char.lt_trans above below)), if_pos below,
      ih later]
    rfl

/-- Entries that come in the order of their keys are kept as they are. -/
private theorem entries_foldl_insert (params : Params α) (entries : List (Char × α))
    (sorted : (params.entries ++ entries).Pairwise fun a b => a.1 < b.1) :
    (entries.foldl (fun params entry => params.insert entry.1 entry.2) params).entries =
      params.entries ++ entries := by
  induction entries generalizing params with
  | nil => simp
  | cons first rest ih =>
    have placed : (params.insert first.1 first.2).entries = params.entries ++ [first] := by
      apply place_of_lt
      intro entry member
      exact (List.pairwise_append.mp sorted).2.2 entry member first (List.mem_cons_self ..)
    rw [List.foldl_cons, ih _ (by rw [placed]; simpa using sorted), placed, List.append_assoc]
    rfl

theorem mem_place {key : Char} {value : α} {entries : List (Char × α)} {entry : Char × α}
    (member : entry ∈ place key value entries) : entry = (key, value) ∨ entry ∈ entries := by
  induction entries with
  | nil => exact .inl (List.mem_singleton.mp member)
  | cons first rest ih =>
    rw [place] at member
    split_ifs at member
    · exact List.mem_cons.mp member
    · rcases List.mem_cons.mp member with rfl | later
      · exact .inr (List.mem_cons_self ..)
      · exact (ih later).imp_right (List.mem_cons_of_mem _)
    · exact (List.mem_cons.mp member).imp_right (List.mem_cons_of_mem _)

theorem ofList_entries (params : Params α) : ofList params.entries = params := by
  have same := entries_foldl_insert empty params.entries params.sorted
  cases params
  rw [ofList, Params.mk.injEq]
  exact same

/-- Adding the entries one by one, each value through a function, gives the mapped parameters. -/
theorem foldl_insert_entries (f : α → β) (params : Params α) :
    params.entries.foldl (fun params entry => params.insert entry.1 (f entry.2)) empty =
      params.map f := by
  rw [← ofList_entries (params.map f), ofList, map, List.foldl_map]

end Params

namespace Line

/-- A line whose parameters and comment are read back as they are written. -/
structure Legible (line : Line) : Prop where
  numberKeys : ∀ entry ∈ line.numbers.entries, IsKey entry.1
  textKeys : ∀ entry ∈ line.texts.entries, IsKey entry.1
  textsSolid : ∀ entry ∈ line.texts.entries, ∀ c ∈ entry.2.toList, isWordChar c
  textsNoNumbers : ∀ entry ∈ line.texts.entries, Numeral.read? entry.2.toList = none
  commentMarked : ∀ text ∈ line.comment, text.toList.head? = some commentMarker

/-- The line that a line becomes when it is written and read again. -/
def settled (precision : Precision) (line : Line) : Line where
  command := line.command
  x := line.x.map (Fixed.settled precision.xy)
  y := line.y.map (Fixed.settled precision.xy)
  z := line.z.map (Fixed.settled precision.z)
  e := line.e.map (Fixed.settled precision.e)
  feedrate := if line.hasFeedrate then Fixed.settled 0 line.feedrate else 0.0
  numbers := line.numbers.map (Fixed.settled precision.xy)
  texts := line.texts
  comment := line.comment.filter fun text => !text.isEmpty

end Line

namespace Field

/-- The word that a field is scanned as. -/
def word : Field → Word
  | comment remark => .ofRemark remark.toList
  | field => .ofRun field.render.toList

/-- The fields that are not comments and that the scanner keeps whole. -/
def Solid (field : Field) : Prop :=
  field.word = .ofRun field.render.toList ∧ Word.Solid field.render.toList

private theorem isWordChar_of_mem_chars {places : Nat} {value : Float} {c : Char}
    (member : c ∈ Fixed.chars places value) : isWordChar c := by
  rcases Fixed.mem_chars member with digit | other
  · exact isWordChar_of_isDigit digit
  · simp only [List.mem_cons, List.not_mem_nil, or_false] at other
    rcases other with rfl | rfl | rfl | rfl | rfl | rfl | rfl <;> decide

theorem solid_number {letter : Char} (solid : isWordChar letter) (places : Nat) (value : Float) :
    (number letter places value).Solid := by
  refine ⟨rfl, ?_⟩
  rw [render, String.toList_ofList]
  apply Word.solid_cons solid
  intro c member
  exact isWordChar_of_mem_chars member

theorem solid_command (value : Command) : (command value).Solid := by
  refine ⟨rfl, ?_⟩
  rw [render, Command.text, String.toList_ofList]
  apply Word.solid_cons
  · cases value.family <;> decide
  · intro c member
    apply isWordChar_of_isDigit
    exact Nat.isDigit_of_mem_toDigits (by decide) (by decide) member

theorem solid_text {letter : Char} (key : isWordChar letter) {rest : String}
    (solid : ∀ c ∈ rest.toList, isWordChar c) : (text letter rest).Solid := by
  refine ⟨rfl, ?_⟩
  rw [render, String.toList_append, Char.toString_eq_singleton, String.toList_singleton]
  exact Word.solid_cons key solid

end Field

namespace Line

/-- The comment is the last field. -/
theorem fields_eq (precision : Precision) (line : Line) :
    line.fields precision = line.withoutComment.fields precision ++
      (line.comment.filter fun text => !text.isEmpty).toList.map Field.comment := by
  rw [fields, fields, withoutComment, Option.filter_none, Option.toList_none, List.map_nil,
    List.append_nil]
  rfl

/-- The fields that a line can be written with. -/
theorem mem_fields_cases {precision : Precision} {line : Line} {field : Field}
    (member : field ∈ line.fields precision) :
    (∃ command, field = .command command) ∨
      (∃ letter places value, letter ∈ ['X', 'Y', 'Z', 'E'] ∧
        places ∈ [precision.xy, precision.z, precision.e] ∧ field = .number letter places value) ∨
      line.hasFeedrate = true ∧ field = .number 'F' 0 line.feedrate ∨
      (∃ entry ∈ line.numbers.entries, field = .number entry.1 precision.xy entry.2) ∨
      (∃ entry ∈ line.texts.entries, field = .text entry.1 entry.2) ∨
      ∃ remark ∈ line.comment, field = .comment remark := by
  simp only [fields, List.mem_append, List.mem_map, Option.mem_toList] at member
  rcases member with
    (((((((⟨_, -, rfl⟩ | ⟨_, -, rfl⟩) | ⟨_, -, rfl⟩) | ⟨_, -, rfl⟩) | ⟨_, -, rfl⟩) | rate) |
    ⟨entry, present, rfl⟩) | ⟨entry, present, rfl⟩) | ⟨remark, present, rfl⟩
  · exact .inl ⟨_, rfl⟩
  · exact .inr (.inl ⟨'X', _, _, by simp, by simp, rfl⟩)
  · exact .inr (.inl ⟨'Y', _, _, by simp, by simp, rfl⟩)
  · exact .inr (.inl ⟨'Z', _, _, by simp, by simp, rfl⟩)
  · exact .inr (.inl ⟨'E', _, _, by simp, by simp, rfl⟩)
  · split_ifs at rate with mentioned
    · exact .inr (.inr (.inl ⟨mentioned, List.mem_singleton.mp rate⟩))
    · contradiction
  · exact .inr (.inr (.inr (.inl ⟨entry, present, rfl⟩)))
  · exact .inr (.inr (.inr (.inr (.inl ⟨entry, present, rfl⟩))))
  · exact .inr (.inr (.inr (.inr (.inr ⟨remark, (Option.mem_filter_iff.mp present).1, rfl⟩))))

theorem render?_of_fits {precision : Precision} (fits : precision.Fits) (line : Line) :
    line.render? precision = some (line.render precision) := by
  apply if_pos
  rw [List.all_eq_true]
  intro field member
  rcases mem_fields_cases member with ⟨_, rfl⟩ | ⟨_, places, _, -, known, rfl⟩ | ⟨-, rfl⟩ |
    ⟨_, -, rfl⟩ | ⟨_, -, rfl⟩ | ⟨_, -, rfl⟩
  · rfl
  · apply decide_eq_true
    simp only [List.mem_cons, List.not_mem_nil, or_false] at known
    rcases known with rfl | rfl | rfl
    · exact fits.xy
    · exact fits.z
    · exact fits.e
  · rfl
  · exact decide_eq_true fits.xy
  · rfl
  · rfl

theorem render?_eq_some {precision : Precision} {line : Line} {text : String}
    (written : line.render? precision = some text) : text = line.render precision := by
  rw [render?] at written
  split_ifs at written
  exact (Option.some.inj written).symm

theorem solid_of_mem_fields {precision : Precision} {line : Line} (legible : line.Legible)
    {field : Field} (member : field ∈ line.withoutComment.fields precision) : field.Solid := by
  rcases mem_fields_cases member with ⟨_, rfl⟩ | ⟨letter, _, _, axis, -, rfl⟩ | ⟨-, rfl⟩ |
    ⟨entry, present, rfl⟩ | ⟨entry, present, rfl⟩ | ⟨_, comment, -⟩
  · exact Field.solid_command _
  · simp only [List.mem_cons, List.not_mem_nil, or_false] at axis
    rcases axis with rfl | rfl | rfl | rfl <;> exact Field.solid_number (by decide) _ _
  · exact Field.solid_number (by decide) _ _
  · exact Field.solid_number (legible.numberKeys entry present).word _ _
  · exact Field.solid_text (legible.textKeys entry present).word (legible.textsSolid entry present)
  · contradiction

/-- A written line is its fields one space apart, the comment last. -/
theorem toList_render (precision : Precision) (line : Line) :
    (line.render precision).toList = [' '].intercalate
      ((line.withoutComment.fields precision).map (·.render.toList) ++
        ((line.comment.filter fun text => !text.isEmpty).map String.toList).toList) := by
  rw [render, String.toList_intercalate, fields_eq]
  simp only [List.map_append, List.map_map, Option.toList_map]
  rfl

/-- A written line is scanned field by field. -/
theorem scan_render {line : Line} (legible : line.Legible) (precision : Precision) :
    Word.scan (line.render precision) = (line.fields precision).map Field.word := by
  have solid : ∀ field ∈ line.withoutComment.fields precision, field.Solid := by
    intro field member
    exact solid_of_mem_fields legible member
  rw [Word.scan_eq, toList_render, Word.scanChars_intercalate]
  · rw [fields_eq precision line, List.map_append, List.map_map, List.map_map, Option.toList_map,
      List.map_map]
    refine congrArg₂ (· ++ ·) ?_ rfl
    apply List.map_congr_left
    intro field member
    exact (solid field member).1.symm
  · intro part member
    obtain ⟨field, present, rfl⟩ := List.mem_map.mp member
    exact (solid field present).2
  · intro text member
    obtain ⟨remark, present, rfl⟩ := Option.mem_map.mp member
    exact legible.commentMarked remark (Option.mem_filter_iff.mp present).1

section Taking

variable (line : Line)

private theorem natural?_toDigits {limit code : Nat} (within : code ≤ limit) :
    Numeral.natural? limit (Nat.toDigits 10 code) = some code := by
  have digits : ∀ c ∈ Nat.toDigits 10 code, c.isDigit := by
    intro c member
    exact Nat.isDigit_of_mem_toDigits (by decide) (by decide) member
  obtain ⟨first, rest, shape⟩ :=
    List.exists_cons_of_ne_nil (Nat.toDigits_ne_nil (n := code) (b := 10))
  have value : Nat.ofDigitChars 10 (Nat.toDigits 10 code) 0 = code :=
    Nat.ofDigitChars_toDigits (by decide) (by decide)
  have unsigned : first ≠ '+' := by
    rintro rfl
    exact absurd (digits '+' (shape ▸ List.mem_cons_self ..)) (by decide)
  rw [shape] at digits value ⊢
  have all : (first :: rest).all Char.isDigit = true := List.all_eq_true.mpr digits
  simp only [Numeral.natural?]
  split
  · rename_i same
    exact absurd (List.cons.inj same).1 unsigned
  · simp only [all, value]
    rw [if_neg (by simp), if_neg (by omega)]

private theorem take_command (value : Command) :
    line.take (Field.command value).word = .ok { line with command := some value } := by
  have code : value.code.toNat ≤ maxCode := by
    have := value.code.toNat_lt
    simp only [maxCode]
    omega
  have kind : WordKind.ofLetter value.family.letter = .command := by cases value.family <;> rfl
  have family : familyOfLetter value.family.letter = value.family := by cases value.family <;> rfl
  simp only [take, Field.word, Field.render, Command.text, Word.ofRun, String.toList_ofList,
    List.head?_cons, Option.elim_some, kind, natural?_toDigits code, family, UInt16.ofNat_toNat]

private theorem take_axis {letter : Char} (axis : WordKind.ofLetter letter = .axis) (places : Nat)
    (value : Float) : line.take (Field.number letter places value).word =
      .ok (line.setAxis letter (Fixed.settled places value)) := by
  simp only [take, Field.word, Field.render, Word.ofRun, String.toList_ofList, List.head?_cons,
    Option.elim_some, axis, number, Fixed.read?_chars]
  rfl

private theorem take_feedrate (value : Float) :
    line.take (Field.number 'F' 0 value).word =
      .ok { line with feedrate := Fixed.settled 0 value } := by
  simp only [take, Field.word, Field.render, Word.ofRun, String.toList_ofList, List.head?_cons,
    Option.elim_some, show WordKind.ofLetter 'F' = .feedrate from rfl, number, Fixed.read?_chars]
  rfl

private theorem take_number {key : Char} (isKey : IsKey key) (places : Nat) (value : Float) :
    line.take (Field.number key places value).word =
      .ok { line with numbers := line.numbers.insert key (Fixed.settled places value) } := by
  simp only [take, Field.word, Field.render, Word.ofRun, String.toList_ofList, List.head?_cons,
    Option.elim_some, isKey.parameter, addParam, Fixed.read?_chars]

private theorem take_text {key : Char} (isKey : IsKey key) {text : String}
    (noNumber : Numeral.read? text.toList = none) :
    line.take (Field.text key text).word =
      .ok { line with texts := line.texts.insert key text } := by
  simp only [take, Field.word, Field.render, Word.ofRun, String.toList_append,
    Char.toString_eq_singleton, String.toList_singleton, List.singleton_append,
    String.toList_ofList, List.head?_cons, Option.elim_some, isKey.parameter, addParam, noNumber,
    String.ofList_toList]

private theorem take_comment {text : String} (nonempty : text.toList ≠ []) :
    line.take (Field.comment text).word = .ok { line with comment := some text } := by
  obtain ⟨first, rest, shape⟩ := List.exists_cons_of_ne_nil nonempty
  simp only [take, Field.word, Word.ofRemark, String.ofList_toList]
  rw [shape]

/-- Reading the words of fields leads from one line to another. -/
private def Takes (fields : List Field) (before after : Line) : Prop :=
  (fields.map Field.word).foldlM take before = .ok after

private theorem Takes.append {first second : List Field} {before between after : Line}
    (front : Takes first before between) (back : Takes second between after) :
    Takes (first ++ second) before after := by
  rw [Takes, List.map_append, List.foldlM_append, front]
  exact back

private theorem takes_option {α β : Type} (value : Option α) (field : α → Field) (settle : α → β)
    (set : Option β → Line)
    (step : ∀ content ∈ value,
      (set none).take (field content).word = .ok (set (some (settle content)))) :
    Takes (value.toList.map field) (set none) (set (value.map settle)) := by
  cases value with
  | none => rfl
  | some content =>
    have taken := step content rfl
    simp only [Takes, Option.toList_some, List.map_cons, List.map_nil, List.foldlM_cons, taken]
    rfl

private theorem takes_entries {α β : Type} (entries : List (Char × α)) (field : Char × α → Field)
    (settle : α → β) (set : Params β → Line)
    (step : ∀ entry ∈ entries, ∀ params,
      (set params).take (field entry).word = .ok (set (params.insert entry.1 (settle entry.2))))
    (params : Params β) :
    Takes (entries.map field) (set params) (set (entries.foldl
      (fun params entry => params.insert entry.1 (settle entry.2)) params)) := by
  induction entries generalizing params with
  | nil => rfl
  | cons first rest ih =>
    have taken := step first (List.mem_cons_self ..) params
    have later := ih (fun entry member => step entry (List.mem_cons_of_mem _ member))
      (params.insert first.1 (settle first.2))
    rw [Takes, List.map_cons, List.map_cons, List.foldlM_cons, taken]
    exact later

end Taking

/-- Writing a legible line and reading the text gives the settled line. -/
theorem read_render {line : Line} (legible : line.Legible) (precision : Precision) :
    read (line.render precision) = .ok (line.settled precision) := by
  let rate := if line.hasFeedrate then some line.feedrate else none
  let s := line.settled precision
  have command := takes_option line.command .command id
    (fun command => { command }) fun _ _ => take_command ..
  rw [Option.map_id_apply] at command
  have x := takes_option line.x (.number 'X' precision.xy) (Fixed.settled precision.xy)
    (fun x => { command := s.command, x }) fun _ _ => take_axis _ rfl ..
  have y := takes_option line.y (.number 'Y' precision.xy) (Fixed.settled precision.xy)
    (fun y => { command := s.command, x := s.x, y }) fun _ _ => take_axis _ rfl ..
  have z := takes_option line.z (.number 'Z' precision.z) (Fixed.settled precision.z)
    (fun z => { command := s.command, x := s.x, y := s.y, z }) fun _ _ => take_axis _ rfl ..
  have e := takes_option line.e (.number 'E' precision.e) (Fixed.settled precision.e)
    (fun e => { command := s.command, x := s.x, y := s.y, z := s.z, e })
    fun _ _ => take_axis _ rfl ..
  have feedrate := takes_option rate (.number 'F' 0) (Fixed.settled 0)
    (fun rate =>
      { command := s.command, x := s.x, y := s.y, z := s.z, e := s.e, feedrate := rate.getD 0.0 })
    fun _ _ => take_feedrate ..
  have rates : (rate.map (Fixed.settled 0)).getD 0.0 = s.feedrate := by
    simp only [rate, s, settled]
    split_ifs <;> rfl
  have written : rate.toList.map (Field.number 'F' 0) =
      if line.hasFeedrate then [.number 'F' 0 line.feedrate] else [] := by
    simp only [rate]
    split_ifs <;> rfl
  rw [rates, written] at feedrate
  have numbers := takes_entries line.numbers.entries
    (fun entry => .number entry.1 precision.xy entry.2) (Fixed.settled precision.xy)
    (fun numbers => { s with numbers, texts := .empty, comment := none })
    (fun entry member _ => take_number _ (legible.numberKeys entry member) ..) .empty
  have texts := takes_entries line.texts.entries (fun entry => .text entry.1 entry.2) id
    (fun texts => { s with texts, comment := none })
    (fun entry member _ =>
      take_text _ (legible.textKeys entry member) (legible.textsNoNumbers entry member)) .empty
  have comment := takes_option (line.comment.filter fun text => !text.isEmpty) .comment id
    (fun comment => { s with comment }) fun text member => take_comment _ <| by
      have nonempty := (Option.mem_filter_iff.mp member).2
      simpa [String.isEmpty_iff] using nonempty
  rw [Params.foldl_insert_entries] at numbers texts
  have kept : line.texts.map id = s.texts := by simp [Params.map, s, settled]
  rw [kept] at texts
  rw [Option.map_id_apply] at comment
  rw [read, ofWords, scan_render legible, fields]
  exact command.append x |>.append y |>.append z |>.append e |>.append feedrate
    |>.append numbers |>.append texts |>.append comment

theorem legible_blank : blank.Legible :=
  ⟨List.forall_mem_nil _, List.forall_mem_nil _, List.forall_mem_nil _, List.forall_mem_nil _,
    nofun⟩

private theorem legible_addParam {line : Line} (legible : line.Legible) {key : Char}
    (isKey : IsKey key) {rest : List Char} (solid : ∀ c ∈ rest, isWordChar c) :
    (line.addParam key rest).Legible := by
  rw [addParam]
  split
  · refine { legible with numberKeys := ?_ }
    intro entry member
    rcases Params.fst_of_mem_place member with same | older
    · exact same ▸ isKey
    · exact legible.numberKeys entry older
  · rename_i noNumber
    have entries : ∀ entry ∈ (line.texts.insert key (String.ofList rest)).entries,
        entry = (key, String.ofList rest) ∨ entry ∈ line.texts.entries := by
      intro entry member
      exact Params.mem_place member
    refine { legible with textKeys := ?_, textsSolid := ?_, textsNoNumbers := ?_ }
    all_goals
      intro entry member
      rcases entries entry member with rfl | older
    · exact isKey
    · exact legible.textKeys entry older
    · simpa using solid
    · exact legible.textsSolid entry older
    · simpa using noNumber
    · exact legible.textsNoNumbers entry older

private theorem legible_setAxis {line : Line} (legible : line.Legible) (letter : Char)
    (value : Float) : (line.setAxis letter value).Legible := by
  rw [setAxis]
  split <;> exact { legible with }

private theorem read?_of_number {letter : Char} {rest : List Char} {word : String} {value : Float}
    (outcome : number letter rest word = .ok value) : Numeral.read? rest = some value := by
  rw [number] at outcome
  split at outcome
  · rename_i read
    rw [read, Except.ok.inj outcome]
  · contradiction

/-- What a word that is not a comment does to a line. -/
theorem take_run_cases {line next : Line} {letter : Char} {rest : List Char}
    (taken : line.take (.ofRun (letter :: rest)) = .ok next) :
    (∃ code, Numeral.natural? maxCode rest = some code ∧
        next = { line with command := some ⟨familyOfLetter letter, UInt16.ofNat code⟩ }) ∨
      (∃ value, Numeral.read? rest = some value ∧ next = line.setAxis letter value) ∨
      (∃ value, Numeral.read? rest = some value ∧ next = { line with feedrate := value }) ∨
      WordKind.ofLetter letter = .parameter ∧ next = line.addParam letter rest := by
  have kind : (Word.ofRun (letter :: rest)).kind = WordKind.ofLetter letter := rfl
  have text : (Word.ofRun (letter :: rest)).text.toList = letter :: rest := String.toList_ofList
  simp only [take, text, kind] at taken
  split at taken
  · rename_i comment
    exact absurd comment (WordKind.ofLetter_ne_comment letter)
  · split at taken
    · rename_i code read
      exact .inl ⟨code, read, (Except.ok.inj taken).symm⟩
    · contradiction
  · obtain ⟨value, outcome, same⟩ := exists_of_map_eq_ok taken
    exact .inr (.inl ⟨value, read?_of_number outcome, same.symm⟩)
  · obtain ⟨value, outcome, same⟩ := exists_of_map_eq_ok taken
    exact .inr (.inr (.inl ⟨value, read?_of_number outcome, same.symm⟩))
  · rename_i parameter
    exact .inr (.inr (.inr ⟨parameter, (Except.ok.inj taken).symm⟩))

private theorem legible_take_run {line next : Line} (legible : line.Legible) {run : List Char}
    (solid : Word.Solid run) (taken : line.take (.ofRun run) = .ok next) : next.Legible := by
  obtain ⟨letter, rest, rfl⟩ := List.exists_cons_of_ne_nil solid.nonempty
  rcases take_run_cases taken with ⟨_, -, rfl⟩ | ⟨_, -, rfl⟩ | ⟨_, -, rfl⟩ | ⟨parameter, rfl⟩
  · exact { legible with }
  · exact legible_setAxis legible ..
  · exact { legible with }
  · apply legible_addParam legible ⟨parameter, solid.word letter (List.mem_cons_self ..)⟩
    intro c member
    exact solid.word c (List.mem_cons_of_mem _ member)

private theorem comment_take_run {line next : Line} {run : List Char} (solid : Word.Solid run)
    (taken : line.take (.ofRun run) = .ok next) : next.comment = line.comment := by
  obtain ⟨letter, rest, rfl⟩ := List.exists_cons_of_ne_nil solid.nonempty
  rcases take_run_cases taken with ⟨_, -, rfl⟩ | ⟨_, -, rfl⟩ | ⟨_, -, rfl⟩ | ⟨-, rfl⟩
  · rfl
  · rw [setAxis]
    split <;> rfl
  · rfl
  · rw [addParam]
    split <;> rfl

private theorem take_remark_cases {line next : Line} {remark : List Char}
    (taken : line.take (.ofRemark remark) = .ok next) :
    next = line ∨ next = { line with comment := some (String.ofList remark) } := by
  simp only [take, Word.ofRemark] at taken
  split at taken
  · exact .inl (Except.ok.inj taken).symm
  · exact .inr (Except.ok.inj taken).symm

private theorem legible_take {line next : Line} (legible : line.Legible) {text : String}
    {word : Word} (member : word ∈ Word.scan text) (taken : line.take word = .ok next) :
    next.Legible := by
  rcases Word.mem_scanChars member with ⟨run, solid, rfl⟩ | ⟨remark, -, marked, rfl⟩
  · exact legible_take_run legible solid taken
  · rcases take_remark_cases taken with rfl | rfl
    · exact legible
    · refine { legible with commentMarked := ?_ }
      intro text same
      obtain rfl := Option.some.inj same
      rwa [String.toList_ofList]

private theorem suffix_take {line next : Line} {text : String}
    (within : ∀ remark ∈ line.comment, remark.toList <:+ text.toList) {word : Word}
    (member : word ∈ Word.scan text) (taken : line.take word = .ok next) :
    ∀ remark ∈ next.comment, remark.toList <:+ text.toList := by
  rcases Word.mem_scanChars member with ⟨run, solid, rfl⟩ | ⟨remark, suffix, -, rfl⟩
  · rwa [comment_take_run solid taken]
  · rcases take_remark_cases taken with rfl | rfl
    · exact within
    · intro remark same
      obtain rfl := Option.some.inj same
      rwa [String.toList_ofList]

/-- A property that every word preserves holds of the line that is read. -/
private theorem read_induction (invariant : Line → Prop) (start : invariant blank) {text : String}
    (step : ∀ {line next word}, invariant line → word ∈ Word.scan text →
      line.take word = .ok next → invariant next)
    {line : Line} (outcome : read text = .ok line) : invariant line := by
  suffices run : ∀ (words : List Word) (before : Line), words ⊆ Word.scan text →
      invariant before → words.foldlM take before = .ok line → invariant line from
    run _ _ (List.Subset.refl _) start outcome
  intro words
  induction words with
  | nil =>
    intro before _ holds same
    exact Except.ok.inj same ▸ holds
  | cons word rest ih =>
    intro before within holds taken
    rw [List.foldlM_cons] at taken
    cases next : before.take word with
    | error fault =>
      rw [next] at taken
      contradiction
    | ok after =>
      rw [next] at taken
      have holdsNext := step holds (within (List.mem_cons_self ..)) next
      exact ih after (fun _ member => within (List.mem_cons_of_mem _ member)) holdsNext taken

/-- Every line that was read is legible. -/
theorem legible_of_read {text : String} {line : Line} (outcome : read text = .ok line) :
    line.Legible :=
  read_induction Legible legible_blank
    (fun legible member taken => legible_take legible member taken) outcome

/-- The comment of a line that was read ends its text. -/
theorem comment_suffix_of_read {text : String} {line : Line} (outcome : read text = .ok line) :
    ∀ remark ∈ line.comment, remark.toList <:+ text.toList :=
  read_induction (fun line => ∀ remark ∈ line.comment, remark.toList <:+ text.toList) nofun
    (fun within member taken => suffix_take within member taken) outcome

end Line

end Toolpath
