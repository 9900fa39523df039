import Mathlib
import Toolpath.Proofs.Line.Settled
import Toolpath.Proofs.Machine.Reference
import Toolpath.Proofs.Pass.Composing

/-! # One line of the program for each line of a composer

Without lines of its caller's making a composer holds two kinds of lines: a command with coordinates
and a feed rate, and a comment with nothing else. Written and read again, each is what it was, so
the program has one line for each of them, unless the text of a comment holds a line feed. What
stands after that is a line of its own, and is carried out as such.
-/

namespace Toolpath

namespace Line

/-- A line with a command and no more than coordinates and a feed rate. -/
structure Commanded (line : Line) : Prop where
  command : line.command.isSome = true
  plain : line.hasParams = false
  bare : line.comment = none

theorem Commanded.legible {line : Line} (commanded : line.Commanded) : line.Legible := by
  have plain := commanded.plain
  simp only [hasParams, Bool.or_eq_false_iff, Bool.not_eq_false', Params.isEmpty,
    List.isEmpty_iff] at plain
  obtain ⟨numbers, texts⟩ := plain
  constructor
  · rw [numbers]
    exact List.forall_mem_nil _
  · rw [texts]
    exact List.forall_mem_nil _
  · rw [texts]
    exact List.forall_mem_nil _
  · rw [texts]
    exact List.forall_mem_nil _
  · rw [commanded.bare]
    rintro _ ⟨⟩

theorem hasWords_blank : blank.hasWords = false := by decide +kernel

theorem isEmpty_blank : blank.isEmpty = true := by decide +kernel

theorem legible_ofComment {text : String} (marked : text.toList.head? = some commentMarker) :
    (ofComment text).Legible := by
  refine { legible_blank with commentMarked := ?_ }
  rintro _ ⟨⟩
  exact marked

/-- A comment is written as it is. -/
theorem render_ofComment {text : String} (nonempty : text ≠ "") (precision : Precision) :
    (ofComment text).render precision = text := by
  have none : (ofComment text).withoutComment = blank := rfl
  have empty : blank.fields precision = [] := by
    have rate : blank.hasFeedrate = false := Tuning.zero_bne_zero
    simp only [fields, rate]
    rfl
  rw [← String.toList_inj, toList_render, none, empty]
  simp [ofComment, Option.filter, nonempty]

/-- Writing and reading keeps what is a comment and what is not, in a line with a command and in one
without words. -/
theorem isCommentOnly_settled {line : Line} (legible : line.Legible)
    (kind : line.command.isSome = true ∨ line.hasWords = false) (precision : Precision) :
    (line.settled precision).isCommentOnly = line.isCommentOnly := by
  have command : (line.settled precision).command = line.command := rfl
  rw [isCommentOnly, isCommentOnly, command, legible.comment_settled]
  rcases kind with commanded | bare
  · rw [Option.isNone_eq_false_iff.mpr commanded, Bool.false_and, Bool.false_and, Bool.false_and,
      Bool.false_and]
  · rw [bare, hasWords_settled bare]

/-- What is left of a command is a command, if anything is left. -/
theorem Commanded.reduce {tuning : Tuning} {machine : Machine} {line : Line}
    (commanded : line.Commanded) (accepts : tuning.Accepts machine line)
    (present : (tuning.reduce machine line).line.isEmpty = false) :
    (tuning.reduce machine line).line.Commanded := by
  have stripped : tuning.strip line = line := Tuning.strip_of_bare fun _ => commanded.bare
  rcases accepts.line_cases with ⟨-, same⟩ | ⟨-, same⟩ | same
  · rw [same, stripped]
    exact commanded
  · rw [same, stripped]
    exact ⟨commanded.command, commanded.plain, commanded.bare⟩
  · rw [same] at present
    contradiction

end Line

namespace Composer

theorem head?_markComment (text : String) :
    (markComment text).toList.head? = some commentMarker := by
  rw [markComment]
  split_ifs with marked
  · exact marked
  · rw [String.toList_append, String.toList_ofList]
    rfl

theorem markComment_ne_empty (text : String) : markComment text ≠ "" := by
  intro empty
  have marked := head?_markComment text
  rw [empty] at marked
  contradiction

theorem feed_mem_markComment_iff (text : String) :
    '\n' ∈ (markComment text).toList ↔ '\n' ∈ text.toList := by
  rw [markComment]
  split_ifs with marked
  · rfl
  · rw [String.toList_append, String.toList_ofList, List.mem_append]
    simp [commentMarker]

/-- Adding a line keeps the tuning, and adds what is left of the line if it is accepted and anything
is left of it. -/
theorem add_cases (composer : Composer) (line : Line) :
    (composer.add line).composer.tuning = composer.tuning ∧
      ((composer.add line).composer.lines = composer.lines ∨
        composer.tuning.Accepts composer.machine line ∧
        (composer.tuning.reduce composer.machine line).line.isEmpty = false ∧
        (composer.add line).composer.lines =
          composer.lines.push (composer.tuning.reduce composer.machine line).line) := by
  by_cases accepts : composer.tuning.Accepts composer.machine line
  · rw [(add_of_accepts accepts).2, keep]
    refine ⟨rfl, ?_⟩
    cases empty : (composer.tuning.reduce composer.machine line).line.isEmpty with
    | true => exact .inl rfl
    | false => exact .inr ⟨accepts, rfl, rfl⟩
  · rw [(add_of_refusal accepts).2]
    exact ⟨rfl, .inl rfl⟩

/-- What the lines that some orders have added are: commands, and the comments that were asked for
unless comments are removed. -/
structure Adds (tuning : Tuning) (orders : List Order) (added : List Line) : Prop where
  made : ∀ line ∈ added, line.Commanded ∨ tuning.removeComments = false ∧
    ∃ text, .comment text ∈ orders ∧ line = .ofComment (markComment text)
  remarks : tuning.removeComments = false →
    ∀ text, .comment text ∈ orders → .ofComment (markComment text) ∈ added

theorem Adds.append {tuning : Tuning} {first second : List Order} {front back : List Line}
    (early : Adds tuning first front) (late : Adds tuning second back) :
    Adds tuning (first ++ second) (front ++ back) := by
  constructor
  · intro line member
    rcases List.mem_append.mp member with here | later
    · apply (early.made line here).imp_right
      rintro ⟨keeps, text, ordered, same⟩
      exact ⟨keeps, text, List.mem_append_left _ ordered, same⟩
    · apply (late.made line later).imp_right
      rintro ⟨keeps, text, ordered, same⟩
      exact ⟨keeps, text, List.mem_append_right _ ordered, same⟩
  · intro keeps text ordered
    rcases List.mem_append.mp ordered with here | later
    · exact List.mem_append_left _ (early.remarks keeps text here)
    · exact List.mem_append_right _ (late.remarks keeps text later)

/-- The second composer has the lines of the first one, and after them those that some orders have
added. -/
def Extends (orders : List Order) (before after : Composer) : Prop :=
  after.tuning = before.tuning ∧
    ∃ added, after.lines.toList = before.lines.toList ++ added ∧ Adds before.tuning orders added

/-- Orders that add nothing leave the lines as they are. -/
theorem extends_of_silent {orders : List Order} (silent : ∀ text, .comment text ∉ orders)
    {before after : Composer} (tuning : after.tuning = before.tuning)
    (lines : after.lines = before.lines) : Extends orders before after := by
  refine ⟨tuning, [], by rw [lines, List.append_nil], List.forall_mem_nil _, ?_⟩
  intro _ text ordered
  exact absurd ordered (silent text)

theorem Extends.trans {first second : List Order} {before between after : Composer}
    (early : Extends first before between) (late : Extends second between after) :
    Extends (first ++ second) before after := by
  obtain ⟨same, front, lines, adds⟩ := early
  obtain ⟨last, back, linesAfter, addsAfter⟩ := late
  rw [same] at last addsAfter
  refine ⟨last, front ++ back, ?_, adds.append addsAfter⟩
  rw [linesAfter, lines, List.append_assoc]

/-- An order for a command adds what is left of that command. -/
private theorem extends_commanded {composer : Composer} {order : Order}
    (silent : ∀ text, .comment text ∉ [order]) {line : Line} (commanded : line.Commanded)
    (does : composer.carryOut order = composer.add line) :
    Extends [order] composer (composer.carryOut order).composer := by
  rw [does]
  obtain ⟨tuning, same | ⟨accepts, present, pushed⟩⟩ := composer.add_cases line
  · exact extends_of_silent silent tuning same
  · refine ⟨tuning, [(composer.tuning.reduce composer.machine line).line],
      by rw [pushed, Array.toList_push], ?_, fun _ text ordered => absurd ordered (silent text)⟩
    intro left member
    rw [List.mem_singleton.mp member]
    exact .inl (commanded.reduce accepts present)

/-- An order for a comment adds that comment, unless comments are removed. -/
private theorem extends_comment (composer : Composer) (text : String) :
    Extends [.comment text] composer (composer.carryOut (.comment text)).composer := by
  have words : (Line.ofComment (markComment text)).hasWords = false := Line.hasWords_blank
  have inert := Line.isInert_iff.mpr ⟨rfl, words⟩
  have does := Tuning.reduce_of_isInert composer.tuning composer.machine inert
  simp only [carryOut, add, does]
  refine ⟨rfl, ?_⟩
  cases removes : composer.tuning.removeComments with
  | true =>
    have nothing : composer.tuning.strip (.ofComment (markComment text)) = .blank := by
      rw [Tuning.strip, removes]
      rfl
    rw [nothing, if_pos Line.isEmpty_blank]
    exact ⟨[], (List.append_nil _).symm, List.forall_mem_nil _, by simp [removes]⟩
  | false =>
    have whole : composer.tuning.strip (.ofComment (markComment text)) =
        .ofComment (markComment text) := by
      rw [Tuning.strip, removes]
      rfl
    have present : (Line.ofComment (markComment text)).isEmpty = false := by
      simp [Line.isEmpty, Line.hasComment, Line.ofComment, markComment_ne_empty]
    rw [whole, present]
    refine ⟨[.ofComment (markComment text)], Array.toList_push, ?_, ?_⟩
    · intro line member
      exact .inr ⟨removes, text, List.mem_singleton_self _, List.mem_singleton.mp member⟩
    · intro _ other ordered
      obtain rfl := Order.comment.inj (List.mem_singleton.mp ordered)
      exact List.mem_singleton_self _

/-- An order that is not for a line of its caller's making adds a command or a comment, whether it
succeeds or not. -/
theorem extends_carryOut (composer : Composer) {order : Order} (own : ∀ line, order ≠ .line line) :
    Extends [order] composer (composer.carryOut order).composer := by
  cases order with
  | home => exact extends_commanded (by simp) ⟨rfl, rfl, rfl⟩ rfl
  | relativeExtrusion => exact extends_commanded (by simp) ⟨rfl, rfl, rfl⟩ rfl
  | comment text => exact composer.extends_comment text
  | line line => exact absurd rfl (own line)
  | travel x y z feedrate =>
    have commanded : (composer.travelLine x y z feedrate).Commanded := ⟨rfl, rfl, rfl⟩
    exact extends_commanded (by simp) commanded rfl
  | print x y z feedrate =>
    have commanded : (composer.printLine x y z feedrate).Commanded := ⟨rfl, rfl, rfl⟩
    by_cases relative : composer.machine.relativeExtrusion = true
    · exact extends_commanded (by simp) commanded (if_pos relative)
    · rw [carryOut, if_neg relative]
      exact extends_of_silent (by simp) rfl rfl

/-- So do orders that are carried out one after the other. -/
theorem extends_callAll (composer : Composer) {orders : List Order}
    (own : ∀ line, .line line ∉ orders) :
    Extends orders composer (composer.callAll (orders.map .order)) := by
  induction orders generalizing composer with
  | nil => exact extends_of_silent (fun _ => List.not_mem_nil) rfl rfl
  | cons order orders ih =>
    have first : ∀ line, order ≠ .line line := by
      rintro line rfl
      exact own line (List.mem_cons_self ..)
    apply (composer.extends_carryOut first).trans
    exact ih _ fun line member => own line (List.mem_cons_of_mem _ member)

section Program

variable {tuning : Tuning} {orders : List Order} {added : List Line}
  (adds : Adds tuning orders added)
include adds

theorem Adds.legible {line : Line} (member : line ∈ added) : line.Legible := by
  rcases adds.made line member with commanded | ⟨-, text, -, rfl⟩
  · exact commanded.legible
  · exact Line.legible_ofComment (head?_markComment text)

/-- Every line that was added is written in one line exactly if no comment that is kept has a line
feed in its text. -/
theorem Adds.one_line_iff :
    (∀ line ∈ added, '\n' ∉ (line.render tuning.precision).toList) ↔
      (tuning.removeComments = false → ∀ text, .comment text ∈ orders → '\n' ∉ text.toList) := by
  constructor
  · intro within keeps text ordered
    have line := within _ (adds.remarks keeps text ordered)
    rwa [Line.render_ofComment (markComment_ne_empty text), feed_mem_markComment_iff] at line
  · intro within line member
    apply Line.feed_not_mem_render (adds.legible member)
    rcases adds.made line member with commanded | ⟨keeps, text, ordered, rfl⟩
    · rw [Line.OneLine, commanded.bare]
      exact nofun
    · rintro _ ⟨⟩
      rw [feed_mem_markComment_iff]
      exact within keeps text ordered

/-- A line that was added is read again as a line with its command, and as a comment exactly if it
is one. -/
theorem Adds.reread {line : Line} (member : line ∈ added) :
    ∃ again, Line.read (line.render tuning.precision) = .ok again ∧
      again.command = line.command ∧ again.isCommentOnly = line.isCommentOnly := by
  have legible := adds.legible member
  refine ⟨line.settled tuning.precision, Line.read_render legible _, rfl, ?_⟩
  apply Line.isCommentOnly_settled legible
  rcases adds.made line member with commanded | ⟨-, text, -, rfl⟩
  · exact .inl commanded.command
  · exact .inr Line.hasWords_blank

end Program

/-- The program of a composer that was given no lines of its caller's making can be written, and it
has one line for each line of the composer, which is read as a line with that command, and as a
comment exactly if it is one. There is one exception: comments are kept, and the text of one that
was asked for holds a line feed. -/
theorem one_line_each_iff (geometry : Geometry) {tuning : Tuning} (fits : tuning.precision.Fits)
    {orders : List Order} (own : ∀ line, .line line ∉ orders) :
    let composer := ({ geometry, tuning } : Composer).callAll (orders.map .order)
    ∃ program, composer.program? = some program ∧
      ((∃ pieces, program.toList.splitOn '\n' = pieces ++ [[]] ∧
        List.Forall₂ (fun line piece => ∃ again, Line.read (String.ofList piece) = .ok again ∧
          again.command = line.command ∧ again.isCommentOnly = line.isCommentOnly)
          composer.lines.toList pieces) ↔
        (tuning.removeComments = false → ∀ text, .comment text ∈ orders → '\n' ∉ text.toList)) := by
  intro composer
  obtain ⟨same, added, lines, adds⟩ := extends_callAll ({ geometry, tuning } : Composer) own
  change composer.tuning = tuning at same
  change composer.lines.toList = [] ++ added at lines
  rw [List.nil_append] at lines
  have program : composer.program? =
      some (Run.terminated (added.map (Line.render tuning.precision))) := by
    rw [program?, composer.texts?_of_fits (same ▸ fits), same, lines]
    rfl
  refine ⟨_, program, ?_⟩
  have feeds := Run.length_splitOn_eq_iff (added.map (Line.render tuning.precision))
  rw [List.forall_mem_map, List.length_map] at feeds
  rw [lines, ← adds.one_line_iff, ← feeds, Run.splitOn_terminated]
  constructor
  · rintro ⟨pieces, cut, paired⟩
    rw [List.append_cancel_right cut]
    exact paired.length_eq.symm
  · intro single
    refine ⟨_, rfl, ?_⟩
    have alone : ((added.map (Line.render tuning.precision)).flatMap
        fun text => text.toList.splitOn '\n') =
        added.map fun line => (line.render tuning.precision).toList := by
      rw [List.flatMap_map, List.map_eq_flatMap]
      apply List.flatMap_congr
      intro line member
      exact List.splitOn_eq_singleton (feeds.mp single line member)
    rw [alone, List.forall₂_map_right_iff, List.forall₂_same]
    intro line member
    rw [String.ofList_toList]
    exact adds.reread member

/-- A refused print, a marker and a carriage return within a comment, and a print of no number. -/
theorem one_line_each_iff_marker_within :
    let orders : List Order :=
      [.home, .print 1.0 0.0 none none, .relativeExtrusion, .comment "a ; G28\r",
        .print (0.0 / 0.0) 4.0 none none]
    let composer := ({} : Composer).callAll (orders.map .order)
    Tuning.permissive.precision.Fits ∧ (∀ line, .line line ∉ orders) ∧
      composer.program? = some "G28\nM83\n; a ; G28\r\nG1 XNaN Y4 ENaN F2400\n" ∧
      ∃ program, composer.program? = some program ∧
        ((∃ pieces, program.toList.splitOn '\n' = pieces ++ [[]] ∧
          List.Forall₂ (fun line piece => ∃ again, Line.read (String.ofList piece) = .ok again ∧
            again.command = line.command ∧ again.isCommentOnly = line.isCommentOnly)
            composer.lines.toList pieces) ↔
          (Tuning.permissive.removeComments = false →
            ∀ text, .comment text ∈ orders → '\n' ∉ text.toList)) := by
  intro orders composer
  have fits : Tuning.permissive.precision.Fits := ⟨by decide, by decide, by decide⟩
  have own : ∀ line, .line line ∉ orders := by
    intro line member
    simp [orders] at member
  exact ⟨fits, own, by decide +kernel, one_line_each_iff {} fits own⟩

/-- What stands after a line feed in the text of a comment becomes a command. -/
theorem comment_feed_injects_command :
    let composer := ({} : Composer).callAll [.order (.comment "a\nG28")]
    let program := "; a\nG28\n"
    composer.lines.toList = [.ofComment "; a\nG28"] ∧ composer.program? = some program ∧
      program.toList.splitOn '\n' = [[';', ' ', 'a'], ['G', '2', '8'], []] ∧
      Line.read "G28" = .ok (.ofCommand .home) ∧
      ¬ ∃ pieces, program.toList.splitOn '\n' = pieces ++ [[]] ∧
        pieces.length = composer.lines.toList.length := by
  intro composer program
  have lines : composer.lines.toList = [.ofComment "; a\nG28"] := by decide +kernel
  have cut : program.toList.splitOn '\n' = [[';', ' ', 'a'], ['G', '2', '8'], []] := by
    decide +kernel
  refine ⟨lines, by decide +kernel, cut, by decide +kernel, ?_⟩
  rintro ⟨pieces, split, length⟩
  have whole := congrArg List.length (cut.symm.trans split)
  rw [List.length_append, length, lines] at whole
  contradiction

end Composer

end Toolpath
