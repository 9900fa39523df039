import Mathlib
import Toolpath.Proofs.Decimal.Layout
import Toolpath.Shell.JsonLibrary

/-! # The JSON library keeps to the notation

The reader is followed along a spelled object: a number up to what cannot belong to it, a member up
to the mark behind it, all members up to the closing brace. What is written is spelled, because
every layout of a number is. So the library is lawful as soon as it accepts numbers in range, and
the one that reads to the nearest float rounds correctly.
-/

namespace Toolpath.Json

/-- No digit comes first. -/
def EndsDigits (rest : List Char) : Prop := ∀ c ∈ rest.head?, c.isDigit = false

/-- Nothing that could belong to a number comes first. -/
def EndsNumber (rest : List Char) : Prop :=
  ∀ c ∈ rest.head?, c.isDigit = false ∧ c ≠ '.' ∧ c ≠ 'e' ∧ c ≠ 'E'

theorem isSpace_iff {c : Char} :
    isSpace c = true ↔ c = ' ' ∨ c = '\n' ∨ c = '\t' ∨ c = '\r' := by
  simp only [isSpace, Bool.or_eq_true, decide_eq_true_iff, or_assoc]

private theorem skip_blanks (blanks : Blanks) (rest : List Char) :
    skip (blanks.text ++ rest) = skip rest := by
  rw [skip, List.dropWhile_append_of_pos blanks.blank]
  rfl

private theorem skip_cons {first : Char} (token : isSpace first = false) (rest : List Char) :
    skip (first :: rest) = first :: rest := by
  rw [skip, List.dropWhile_cons_of_neg (by simp [token])]

theorem EndsNumber.blanks {rest : List Char} (ends : EndsNumber rest) (blanks : Blanks) :
    EndsNumber (blanks.text ++ rest) := by
  cases shape : blanks.text with
  | nil => exact ends
  | cons first others =>
    intro c same
    obtain rfl : first = c := by simpa using same
    have space : isSpace first = true := blanks.blank first (by simp [shape])
    rcases isSpace_iff.mp space with rfl | rfl | rfl | rfl <;> decide

section Numbers

variable {digits rest : List Char}

private theorem digits?_append (nonempty : digits ≠ []) (digit : ∀ c ∈ digits, c.isDigit = true)
    (ends : EndsDigits rest) : digits? (digits ++ rest) = some (digits, rest) := by
  have scanned : (digits ++ rest).takeWhile Char.isDigit = digits ∧
      (digits ++ rest).dropWhile Char.isDigit = rest := by
    rw [List.takeWhile_append_of_pos digit, List.dropWhile_append_of_pos digit]
    cases rest with
    | nil => simp
    | cons first rest => simp [ends first rfl]
  rw [digits?, scanned.1, scanned.2]
  simp [nonempty]

private theorem whole?_append (whole : IsWhole digits) (ends : EndsDigits rest) :
    whole? (digits ++ rest) = some (digits, rest) := by
  rcases whole.lead with rfl | lead
  · have other : rest.head?.any Char.isDigit = false := by
      cases rest with
      | nil => rfl
      | cons first rest => exact ends first rfl
    simp [whole?, other]
  · obtain ⟨first, others, rfl⟩ := List.exists_cons_of_ne_nil whole.nonempty
    have notZero : first ≠ '0' := by simpa using lead
    rw [← digits?_append whole.nonempty whole.digit ends]
    rw [List.cons_append, whole?]
    rintro later same
    injection same with same _
    exact notZero same

private theorem fraction?_append (digit : ∀ c ∈ digits, c.isDigit = true) (ends : EndsDigits rest)
    (noPoint : rest.head? ≠ some '.') :
    fraction? (pointed digits ++ rest) = some (digits, rest) := by
  cases digits with
  | nil =>
    rw [pointed, List.nil_append, fraction?]
    rintro later rfl
    exact noPoint rfl
  | cons first others => exact digits?_append (List.cons_ne_nil _ _) digit ends

private theorem takeSign_append {sign : List Char} (signed : sign ∈ [[], ['+'], ['-']])
    (nonempty : digits ≠ []) (digit : ∀ c ∈ digits, c.isDigit = true) :
    Numeral.takeSign (sign ++ (digits ++ rest)) = (decide (sign = ['-']), digits ++ rest) := by
  obtain ⟨first, others, rfl⟩ := List.exists_cons_of_ne_nil nonempty
  have lead := digit first (List.mem_cons_self ..)
  simp only [List.mem_cons, List.not_mem_nil, or_false] at signed
  rcases signed with rfl | rfl | rfl
  · rw [List.nil_append, List.cons_append, Numeral.takeSign]
    · rfl
    all_goals
      rintro later same
      injection same with same _
      subst same
      simp at lead
  · rfl
  · rfl

/-- An exponent is read up to what ends the number. -/
private theorem exponent?_of_spells {exponent : Int} {tail : List Char}
    (spells : SpellsExponent exponent tail) (ends : EndsNumber rest) :
    exponent? (tail ++ rest) = some (exponent, rest) := by
  cases spells with
  | absent =>
    cases rest with
    | nil => rfl
    | cons first rest =>
      obtain ⟨-, -, lower, upper⟩ := ends first rfl
      simp [exponent?, lower, upper]
  | @marked mark sign digits exponential signed nonempty digit =>
    have read := digits?_append nonempty digit fun c first => (ends c first).1
    rw [List.cons_append, List.append_assoc, exponent?, if_pos exponential,
      takeSign_append signed nonempty digit]
    simp only [read, Option.bind_eq_bind, Option.bind_some, Option.pure_def, decide_eq_true_eq]

/-- An exponent does not go on with digits or a point. -/
private theorem head_of_spells {exponent : Int} {tail : List Char}
    (spells : SpellsExponent exponent tail) (ends : EndsNumber rest) :
    EndsDigits (tail ++ rest) ∧ (tail ++ rest).head? ≠ some '.' := by
  cases spells with
  | absent => exact ⟨fun c first => (ends c first).1, fun point => (ends '.' point).2.1 rfl⟩
  | @marked mark sign digits exponential =>
    rcases exponential with rfl | rfl
    all_goals
      refine ⟨?_, by simp⟩
      intro c same
      obtain rfl : _ = c := Option.some.inj same
      rfl

/-- A number without its sign is read up to what ends it. -/
private theorem unsigned?_append {numeral : Numeral} (whole : IsWhole numeral.whole)
    (fraction : ∀ c ∈ numeral.fraction, c.isDigit = true) {tail : List Char}
    (spells : SpellsExponent numeral.exponent tail) (ends : EndsNumber rest) :
    unsigned? numeral.negative (numeral.whole ++ (pointed numeral.fraction ++ tail) ++ rest) =
      some (numeral, rest) := by
  obtain ⟨digitless, noPoint⟩ := head_of_spells spells ends
  have wholeEnds : EndsDigits (pointed numeral.fraction ++ (tail ++ rest)) := by
    cases numeral.fraction with
    | nil => exact digitless
    | cons first others =>
      intro c same
      obtain rfl : '.' = c := Option.some.inj same
      rfl
  rw [unsigned?, List.append_assoc, List.append_assoc, whole?_append whole wholeEnds]
  simp [fraction?_append fraction digitless noPoint, exponent?_of_spells spells ends]

/-- A spelled number starts with a digit or a minus. -/
private theorem exists_cons_of_spells {numeral : Numeral} {text : List Char}
    (spells : numeral.Spells text) :
    ∃ first others, text = first :: others ∧ (first.isDigit = true ∨ first = '-') := by
  obtain ⟨whole, -, tail, -, rfl⟩ := spells
  rw [signed]
  split_ifs
  · exact ⟨'-', _, rfl, .inr rfl⟩
  · obtain ⟨first, others, shape⟩ := List.exists_cons_of_ne_nil whole.nonempty
    rw [shape]
    exact ⟨first, _, rfl, .inl (whole.digit first (by simp [shape]))⟩

/-- A spelled number is read up to what ends it. -/
theorem number?_of_spells {numeral : Numeral} {text : List Char} (spells : numeral.Spells text)
    (ends : EndsNumber rest) : number? (text ++ rest) = some (numeral, rest) := by
  obtain ⟨whole, fraction, tail, exponent, rfl⟩ := spells
  have read := unsigned?_append whole fraction exponent ends
  rw [signed]
  cases negative : numeral.negative with
  | true =>
    rw [negative] at read
    exact read
  | false =>
    rw [negative] at read
    rw [if_neg (by decide), number?]
    · exact read
    · rintro later same
      obtain ⟨first, others, shape⟩ := List.exists_cons_of_ne_nil whole.nonempty
      have lead := whole.digit first (by simp [shape])
      rw [shape] at same
      injection same with same _
      subst same
      simp at lead

end Numbers

/-- What a token is in a tree. -/
def Token.tree : Token → Tree
  | null => .null
  | flag value => .bool value
  | number numeral => .number numeral

/-- A value that starts like a number is one. -/
private theorem value?_of_number {fuel : Nat} {text rest : List Char} {first : Char}
    (start : skip text = first :: rest) (numeric : first.isDigit = true ∨ first = '-') :
    value? (fuel + 1) text =
      (number? (first :: rest)).map fun (value, after) => (.number value, after) := by
  rw [value?, start]
  split
  case h_7 => rfl
  -- Every other kind of value starts with a letter or a bracket of its own.
  all_goals
    rename_i same
    injection same with same _
    subst same
    simp at numeric

/-- A spelled token is read up to what could not belong to a number. -/
private theorem value?_of_spells {token : Token} {text rest : List Char} (spells : token.Spells text)
    (ends : EndsNumber rest) (fuel : Nat) (blanks : Blanks) :
    value? (fuel + 1) (blanks.text ++ (text ++ rest)) = some (token.tree, rest) := by
  cases spells with
  | null =>
    rw [value?, skip_blanks]
    rfl
  | flag value =>
    rw [value?, skip_blanks]
    cases value <;> rfl
  | @number numeral text spells =>
    obtain ⟨first, others, rfl, numeric⟩ := exists_cons_of_spells spells
    have token : isSpace first = false := by
      apply Bool.eq_false_iff.mpr
      intro space
      rcases isSpace_iff.mp space with rfl | rfl | rfl | rfl <;> simp at numeric
    have start : skip (blanks.text ++ (first :: others ++ rest)) = first :: (others ++ rest) := by
      rw [skip_blanks, List.cons_append, skip_cons token]
    rw [value?_of_number start numeric, ← List.cons_append, number?_of_spells spells ends]
    rfl

theorem isPlain_iff {c : Char} :
    isPlain c = true ↔ 32 ≤ c.toNat ∧ c ≠ '"' ∧ c ≠ '\\' := by
  simp [isPlain, and_assoc]

section Names

variable {text : List Char} (plain : ∀ c ∈ text, isPlain c = true)
include plain

/-- Plain characters up to the closing quote are the raw content. -/
private theorem string?_plain (rest : List Char) :
    string? (text ++ '"' :: rest) = some (text, rest) := by
  induction text with
  | nil => rfl
  | cons first others ih =>
    obtain ⟨printable, notQuote, notSlash⟩ := isPlain_iff.mp (plain first (by simp))
    rw [List.cons_append, string?]
    · rw [if_neg (by simp [notSlash, printable]), ih fun c member => plain c (by simp [member])]
      rfl
    all_goals simp [notQuote, notSlash]

/-- Plain characters are their own text. -/
private theorem decode?_plain : decode? text = some text := by
  induction text with
  | nil => rfl
  | cons first others ih =>
    obtain ⟨-, -, notSlash⟩ := isPlain_iff.mp (plain first (by simp))
    rw [decode?]
    · rw [ih fun c member => plain c (by simp [member])]
      rfl
    all_goals simp [notSlash]

/-- Plain characters are written as they are. -/
private theorem flatMap_escape_plain : text.flatMap escape = text := by
  induction text with
  | nil => rfl
  | cons first others ih =>
    have one : escape first = [first] := if_pos (plain first (by simp))
    rw [List.flatMap_cons, one, ih fun c member => plain c (by simp [member])]
    rfl

end Names

section Members

private theorem endsNumber_mark {mark : Char} (separates : mark = ',' ∨ mark = '\x7d')
    (rest : List Char) : EndsNumber (mark :: rest) := by
  intro c same
  obtain rfl : mark = c := by simpa using same
  rcases separates with rfl | rfl <;> decide

private theorem skip_mark {mark : Char} (separates : mark = ',' ∨ mark = '\x7d')
    (rest : List Char) : skip (mark :: rest) = mark :: rest := by
  rcases separates with rfl | rfl <;> rfl

/-- What a member is in a tree. -/
private def branch (member : Member) : List Char × Tree := (member.name.toList, member.token.tree)

private theorem skip_text (member : Member) (rest : List Char) :
    skip (member.text ++ rest) =
      '"' :: (member.name.toList ++ '"' :: (member.beforeColon.text ++
        ':' :: (member.beforeValue.text ++ (member.spelling ++
          (member.afterValue.text ++ rest))))) := by
  rw [Member.text, List.append_assoc, skip_blanks, List.cons_append, skip_cons (by decide)]
  simp only [List.append_assoc, List.cons_append]

/-- The texts of members stand one after the other, with commas between them. -/
private theorem intercalate_text (member next : Member) (members : List Member)
    (rest : List Char) :
    [','].intercalate ((member :: next :: members).map Member.text) ++ rest =
      member.text ++ ',' :: ([','].intercalate ((next :: members).map Member.text) ++ rest) := by
  rw [List.map_cons, List.map_cons, List.intercalate_cons_cons, List.append_assoc,
    List.append_assoc, List.singleton_append]

/-- One member is read up to the mark after it. -/
private theorem members?_member (member : Member) (fuel : Nat) (blanks : Blanks) {mark : Char}
    (separates : mark = ',' ∨ mark = '\x7d') (rest : List Char) :
    members? (fuel + 2) (member.text ++ (blanks.text ++ mark :: rest)) =
      if mark = ',' then
        (members? (fuel + 1) rest).map fun (members, after) => (branch member :: members, after)
      else some ([branch member], rest) := by
  have ends := ((endsNumber_mark separates rest).blanks blanks).blanks member.afterValue
  have read := value?_of_spells member.spells ends fuel member.beforeValue
  have colon (after : List Char) :
      skip (member.beforeColon.text ++ ':' :: after) = ':' :: after := by
    rw [skip_blanks, skip_cons (by decide)]
  have next : skip (member.afterValue.text ++ (blanks.text ++ mark :: rest)) = mark :: rest := by
    rw [skip_blanks, skip_blanks, skip_mark separates]
  rw [members?, skip_text]
  simp only [string?_plain member.plain, Option.bind_eq_bind, Option.bind_some, colon, read, next]
  rcases separates with rfl | rfl
  · simp only [if_true]
    cases members? (fuel + 1) rest <;> rfl
  · rfl

/-- All members are read up to the closing brace. -/
private theorem members?_members (member : Member) (members : List Member) (extra : Nat)
    (inner : Blanks) (rest : List Char) :
    members? (members.length + extra + 2)
        ([','].intercalate ((member :: members).map Member.text) ++
          (inner.text ++ '\x7d' :: rest)) = some ((member :: members).map branch, rest) := by
  induction members generalizing member with
  | nil =>
    rw [List.map_singleton, List.intercalate_singleton]
    exact members?_member member (0 + extra) inner (.inr rfl) rest
  | cons next members ih =>
    have read := members?_member member (members.length + 1 + extra) ⟨[], by simp⟩ (.inl rfl)
      ([','].intercalate ((next :: members).map Member.text) ++ (inner.text ++ '\x7d' :: rest))
    rw [if_pos rfl, show members.length + 1 + extra + 1 = members.length + extra + 2 by omega,
      ih next] at read
    rw [intercalate_text]
    exact read

private theorem length_le_text (members : List Member) :
    members.length ≤ ([','].intercalate (members.map Member.text)).length := by
  induction members with
  | nil => exact Nat.le_refl _
  | cons member members ih =>
    have some : 1 ≤ member.text.length := by
      rw [Member.text, List.length_append, List.length_cons]
      omega
    cases members with
    | nil =>
      rw [List.map_singleton, List.intercalate_singleton]
      exact some
    | cons next members =>
      have separated := congrArg List.length (intercalate_text member next members [])
      simp only [List.append_nil, List.length_append, List.length_cons] at separated ih ⊢
      omega

/-- A spelled object is read as its members. -/
private theorem read?_object (lead inner trail : Blanks) (members : List Member) :
    read? (object lead inner trail members).toList = some (.object (members.map branch)) := by
  have enough := length_le_text members
  have closed : skip trail.text = [] := by
    rw [← List.append_nil trail.text, skip_blanks]
    rfl
  rw [object, String.toList_ofList, read?]
  cases members with
  | nil =>
    rw [value?, skip_blanks, skip_cons (by decide)]
    simp only [List.map_nil, List.intercalate_nil, List.nil_append, skip_blanks,
      skip_cons (show isSpace '\x7d' = false by decide), closed]
    rfl
  | cons member members =>
    generalize size : (lead.text ++ '\x7b' :: _).length = length
    have fuel : 2 * length + 1 = members.length + (2 * length - 1 - members.length) + 2 := by
      rw [List.length_append, List.length_cons, List.length_append, List.length_append,
        List.length_cons] at size
      rw [List.length_cons] at enough
      omega
    have read := members?_members member members (2 * length - 1 - members.length) inner trail.text
    obtain ⟨after, quote⟩ : ∃ after,
        skip ([','].intercalate ((member :: members).map Member.text) ++
          (inner.text ++ '\x7d' :: trail.text)) = '"' :: after := by
      cases members with
      | nil =>
        rw [List.map_singleton, List.intercalate_singleton]
        exact ⟨_, skip_text member _⟩
      | cons next members =>
        rw [intercalate_text]
        exact ⟨_, skip_text member _⟩
    rw [value?, skip_blanks, skip_cons (by decide)]
    simp only [quote, fuel, read, Option.map_some]
    change (if (skip trail.text).isEmpty = true then some (Tree.object _) else none) = _
    rw [closed]
    rfl

end Members

section Library

variable {float? : Numeral → Option Float}

private theorem document?_branches (members : List Member) :
    Tree.document? float? (.object (members.map branch)) =
      some (.object (members.map fun member =>
        (member.name, (library float?).value? member.token))) := by
  have branches : (members.map branch).mapM (fun branch => (decode? branch.1).map fun name =>
      (String.ofList name, Tree.scalar? float? branch.2)) =
        some (members.map fun member => (member.name, (library float?).value? member.token)) := by
    induction members with
    | nil => rfl
    | cons member members ih =>
      have value : Tree.scalar? float? member.token.tree =
          (library float?).value? member.token := by
        cases member.token <;> rfl
      simp [branch, decode?_plain member.plain, value, ih]
  rw [Tree.document?, branches, Option.map_some]

private theorem quoted_plain {name : String} (plain : ∀ c ∈ name.toList, isPlain c = true) :
    quoted name = "\"" ++ name ++ "\"" := by
  rw [quoted, flatMap_escape_plain plain]
  apply String.toList_injective
  simp

private theorem scalarText_eq (float? : Numeral → Option Float) (scalar : Machine.Scalar) :
    scalarText scalar = (library float?).text scalar := by
  cases scalar <;> rfl

/-- A library that accepts numbers in range is lawful. -/
theorem lawful_library (accepts : ∀ (numeral : Numeral) (negative : Bool) (units : Nat),
    numeral.decimal.nearest = .finite negative units → (float? numeral).isSome = true) :
    (library float?).Lawful where
  parse?_object lead inner trail members := by
    change (read? _).bind (Tree.document? float?) = _
    rw [read?_object, Option.bind_some, document?_branches]
  compact_eq fields plain := by
    have texts : (fields.map fun field => quoted field.1 ++ ":" ++ scalarText field.2) =
        fields.map fun field => "\"" ++ field.1 ++ "\":" ++ (library float?).text field.2 := by
      apply List.map_congr_left
      intro field member
      rw [quoted_plain (plain field member), scalarText_eq float?]
      apply String.toList_injective
      simp
    change "\x7b" ++ ",".intercalate
      (fields.map fun field => quoted field.1 ++ ":" ++ scalarText field.2) ++ "\x7d" = _
    rw [texts]
  pretty_eq fields plain nonempty := by
    have texts : (fields.map fun field => "  " ++ quoted field.1 ++ ": " ++ scalarText field.2) =
        fields.map fun field => "  \"" ++ field.1 ++ "\": " ++ (library float?).text field.2 := by
      apply List.map_congr_left
      intro field member
      rw [quoted_plain (plain field member), scalarText_eq float?]
      apply String.toList_injective
      simp
    change (if (fields.map fun field =>
      "  " ++ quoted field.1 ++ ": " ++ scalarText field.2).isEmpty then _ else _) = _
    rw [if_neg (by simpa using nonempty), texts]
  numeral_accepted value finite := by
    obtain ⟨numeral, spells, nearest⟩ := documentLayout.exists_spells_text finite
    obtain ⟨negative, units, content⟩ := Exact.isFinite_iff.mp finite
    exact ⟨numeral, spells, accepts numeral negative units (nearest.trans content)⟩

end Library

end Toolpath.Json

namespace Toolpath.JsonLibrary

private theorem nearest?_eq (numeral : Json.Numeral) (negative : Bool) (units : Nat)
    (nearest : numeral.decimal.nearest = .finite negative units) :
    numeral.nearest? = some (Exact.finite negative units).toFloat := by
  rw [Json.Numeral.nearest?, nearest]

theorem lawful_precise : precise.Lawful := by
  apply Json.lawful_library
  intro numeral negative units nearest
  rw [nearest?_eq numeral negative units nearest, Option.isSome_some]

theorem roundsCorrectly_precise : precise.RoundsCorrectly where
  numeral_nearest _ finite := Json.documentLayout.exists_spells_text finite
  float?_eq := nearest?_eq

-- Two roundings may miss the nearest float.
example : fast.parse? "[0.9999999999999999]" = some (.array [some (.number 1.0)]) ∧
    precise.parse? "[0.9999999999999999]" ≠ some (.array [some (.number 1.0)]) := by
  decide +kernel

end Toolpath.JsonLibrary
