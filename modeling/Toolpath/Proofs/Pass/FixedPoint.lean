import Mathlib
import Toolpath.Proofs.Pass.Replay

/-! # When a second pass changes nothing

A second pass takes the output of a first one from the same machine. It never ends early, but it can
still drop words: the first pass compares the numbers that it reads, the second one the numbers as
they were written, and between the two every number is rounded. The output is a fixed point exactly
if carrying it out finds no word that is redundant, no feed rate that is written as zero, and no
line that ends in a carriage return.
-/

namespace Toolpath

namespace Tuning

/-- A text that a pass keeps as it is. -/
structure Lasts (tuning : Tuning) (machine : Machine) (text : String) (line : Line) : Prop where
  noReturn : text.toList.getLast? ≠ some '\r'
  noZeroRate : Word.zeroRate ∉ Word.scan text
  notices : line.action = .move → tuning.Notices machine line

/-- Texts that a pass keeps as they are, each against the machine that carries out those before
it. -/
def Lasting (tuning : Tuning) : Machine → List String → Prop
  | _, [] => True
  | machine, text :: texts => ∃ line, Line.read text = .ok line ∧ tuning.Lasts machine text line ∧
      tuning.Lasting (machine.follow line) texts

/-- What is known about a line that survived a pass. -/
structure Survivor (tuning : Tuning) (line : Line) : Prop where
  legible : line.Legible
  present : line.isEmpty = false
  bare : tuning.removeComments = true → line.comment = none
  words : line.action = .move → line.hasWords = true

theorem Accepts.survives {tuning : Tuning} {machine : Machine} {line : Line}
    (accepts : tuning.Accepts machine line) (legible : line.Legible)
    (present : (tuning.reduce machine line).line.isEmpty = false) :
    tuning.Survivor (tuning.reduce machine line).line := by
  refine ⟨accepts.legible legible, present, accepts.bare_line, ?_⟩
  intro move
  obtain ⟨same, words⟩ := accepts.line_of_move ((accepts.survivor present).1 ▸ move) present
  rw [same]
  exact words

/-- The feed rate that is left is the feed rate that was there. -/
theorem Accepts.feedrate_line {tuning : Tuning} {machine : Machine} {line : Line}
    (accepts : tuning.Accepts machine line)
    (mentioned : (tuning.reduce machine line).line.hasFeedrate = true) :
    (tuning.reduce machine line).line.feedrate = line.feedrate := by
  have stripped : (tuning.strip line).feedrate = line.feedrate := by
    rw [strip]
    split_ifs <;> rfl
  rcases accepts.line_cases with ⟨-, same⟩ | ⟨-, same⟩ | same <;> rw [same] at mentioned ⊢
  · exact stripped
  · rw [hasFeedrate_keptWords] at mentioned
    rw [keptWords, if_pos mentioned]
    exact stripped
  · rw [Line.hasFeedrate, Line.blank, zero_bne_zero] at mentioned
    contradiction

section Again

variable {tuning : Tuning} {machine : Machine} {line : Line} (survivor : tuning.Survivor line)
  (accepts : tuning.Accepts machine (line.trimReturn.settled tuning.precision))
include survivor accepts

/-- A line that lasts is kept as it is and carried out. -/
private theorem reduce_of_lasts
    (lasts : tuning.Lasts machine (line.render tuning.precision) (line.settled tuning.precision)) :
    tuning.reduce machine (line.trimReturn.settled tuning.precision) =
      ⟨machine.follow (line.settled tuning.precision), line.settled tuning.precision, none⟩ ∧
    (line.settled tuning.precision).render tuning.precision = line.render tuning.precision ∧
    (line.settled tuning.precision).isEmpty = false := by
  have legible := survivor.legible
  have whole : line.trimReturn.settled tuning.precision = line.settled tuning.precision := by
    have same := Lines.trimReturn_eq_self_iff.mpr lasts.noReturn
    rw [Line.trimReturn_render legible] at same
    have read := Line.read_render legible.trimReturn tuning.precision
    rw [same, Line.read_render legible] at read
    exact (Except.ok.inj read).symm
  have kept : line.hasFeedrate = true → Fixed.chars 0 line.feedrate ≠ ['0'] := by
    intro mentioned zero
    apply lasts.noZeroRate
    exact (Line.zeroRate_mem_scan_render_iff legible _).mpr ⟨mentioned, zero⟩
  have stripped : tuning.strip (line.settled tuning.precision) = line.settled tuning.precision := by
    apply strip_of_bare
    intro removes
    rw [Line.settled, survivor.bare removes]
    rfl
  rw [whole] at accepts ⊢
  refine ⟨accepts.reduce_of_notices stripped lasts.notices ?_ ?_, Line.render_settled kept _, ?_⟩
  · intro move
    rw [Line.hasWords_settled_eq kept, survivor.words move]
  · intro _ unset
    rw [Line.hasFeedrate_settled kept] at unset
    simp only [Line.settled, unset, Bool.false_eq_true, if_false]
  · have present := survivor.present
    rw [Line.isEmpty] at present ⊢
    rw [Line.hasWords_settled_eq kept, Line.hasComment, Line.settled, legible.filter_comment]
    exact present

/-- A line that is written as before lasts. -/
private theorem lasts_of_render
    (same : (tuning.reduce machine
        (line.trimReturn.settled tuning.precision)).line.render tuning.precision =
      line.render tuning.precision) :
    tuning.Lasts machine (line.render tuning.precision) (line.settled tuning.precision) := by
  have legible := survivor.legible
  have again := accepts.legible (legible.trimReturn.settled tuning.precision)
  -- Both lines are read as one, so the second pass has dropped nothing that can be read.
  have settled : (tuning.reduce machine
        (line.trimReturn.settled tuning.precision)).line.settled tuning.precision =
      line.settled tuning.precision := by
    have read := Line.read_render again tuning.precision
    rw [same, Line.read_render legible] at read
    exact (Except.ok.inj read).symm
  have unchanged : line.comment.map Lines.trimReturn = line.comment := by
    cases shape : line.comment with
    | none => rfl
    | some remark =>
      have comments := congrArg Line.comment settled
      rw [again.comment_settled, legible.comment_settled] at comments
      have held := accepts.comment_line (comments.trans shape)
      rw [legible.trimReturn.comment_settled, Line.trimReturn, shape] at held
      exact held
  have whole : line.trimReturn = line := by rw [Line.trimReturn, unchanged]
  rw [whole] at accepts same settled again
  refine ⟨?_, ?_, ?_⟩
  · rw [← Lines.trimReturn_eq_self_iff, Line.trimReturn_render legible, whole]
  · intro zero
    rw [← same, Line.zeroRate_mem_scan_render_iff again] at zero
    obtain ⟨mentioned, zero⟩ := zero
    have rate := accepts.feedrate_line mentioned
    rw [Line.hasFeedrate, rate] at mentioned
    have before := (Line.hasFeedrate_settled_iff tuning.precision).mp mentioned
    rw [rate, Line.settled, if_pos before.1, Fixed.chars_settled] at zero
    exact before.2 zero
  · intro move
    have present :
        (tuning.reduce machine (line.settled tuning.precision)).line.isEmpty = false := by
      rw [Bool.eq_false_iff, Ne, ← Line.render_eq_empty_iff again, same,
        Line.render_eq_empty_iff legible, survivor.present]
      exact Bool.false_ne_true
    refine accepts.notices move ?_ ?_ ?_ ?_ ?_ present
    case refine_5 =>
      intro mentioned
      rw [← settled] at mentioned
      exact ((Line.hasFeedrate_settled_iff tuning.precision).mp mentioned).1
    all_goals
      intro mentioned
      rw [← settled] at mentioned
      simpa [Line.settled] using mentioned

end Again

/-- The texts of survivors are kept by a second pass exactly if they last. -/
private theorem survivingTexts_eq_iff {tuning : Tuning} {survivors again : List Line}
    {machine last : Machine} (survive : ∀ line ∈ survivors, tuning.Survivor line)
    (success : tuning.reduceAll machine
        (survivors.map fun line => line.trimReturn.settled tuning.precision) =
      .ok (last, again)) :
    survivingTexts tuning.precision again = survivors.map (Line.render tuning.precision) ↔
      tuning.Lasting machine (survivors.map (Line.render tuning.precision)) := by
  induction survivors generalizing machine again with
  | nil =>
    obtain ⟨-, rfl⟩ := Prod.mk.inj (Except.ok.inj success)
    exact ⟨fun _ => trivial, fun _ => rfl⟩
  | cons line survivors ih =>
    obtain ⟨accepts, rest, later, rfl⟩ := reduceAll_cons_eq_ok_iff.mp success
    obtain ⟨survivor, others⟩ := List.forall_mem_cons.mp survive
    have read := Line.read_render survivor.legible tuning.precision
    rw [survivingTexts_cons, List.map_cons]
    constructor
    · intro same
      cases empty : (tuning.reduce machine
        (line.trimReturn.settled tuning.precision)).line.isEmpty with
      | true =>
        -- A dropped line leaves too few texts.
        have shorter := length_survivingTexts_le tuning.precision rest
        rw [empty, if_pos rfl, List.nil_append] at same
        rw [same, length_reduceAll later, List.length_cons, List.length_map, List.length_map]
          at shorter
        omega
      | false =>
        rw [empty, if_neg Bool.false_ne_true, List.singleton_append] at same
        obtain ⟨first, later'⟩ := List.cons.inj same
        have lasts := lasts_of_render survivor accepts first
        rw [(reduce_of_lasts survivor accepts lasts).1] at later
        exact ⟨_, read, lasts, (ih others later).mp later'⟩
    · rintro ⟨other, readOther, lasts, lasting⟩
      obtain rfl := Except.ok.inj (read.symm.trans readOther)
      obtain ⟨kept, written, present⟩ := reduce_of_lasts survivor accepts lasts
      rw [kept] at later ⊢
      simp only [present, written, Bool.false_eq_true, if_false, List.singleton_append,
        (ih others later).mpr lasting]

/-- A second pass over the output of a pass, from the same machine, never ends early, and it changes
nothing exactly if the lines of the output last. -/
theorem second_pass (tuning : Tuning) (fits : tuning.precision.Fits) (machine : Machine)
    (text : String) (success : (tuning.run machine text).fault = none) :
    (tuning.run machine (tuning.run machine text).output).fault = none ∧
      ((tuning.run machine (tuning.run machine text).output).output =
        (tuning.run machine text).output ↔
        tuning.Lasting machine (tuning.run machine text).kept.toList) := by
  obtain ⟨lines, kept, reads, reduced, texts⟩ := runLines_cases success
  rw [← run] at reduced texts
  have readable := reads.presentable fun raw => Lines.feed_not_mem_of_mem_ofString
  have presentable := presentable_of_reduceAll reduced readable
  have present : ∀ line ∈ kept, line.isEmpty = false → tuning.Survivor line := by
    refine forall_mem_of_reduceAll ?_ reduced readable
    rintro machine line accepts ⟨legible, -⟩
    exact accepts.survives legible
  generalize tuning.run machine text = first at *
  by_cases nothing : first.kept.toList = []
  · have output : first.output = "\n" := if_pos (by simpa using nothing)
    obtain ⟨fault, none⟩ := run_of_feed tuning fits machine
    rw [output, nothing]
    refine ⟨fault, fun _ => trivial, ?_⟩
    intro _
    exact if_pos (by simpa using none)
  · have output : first.output = Run.terminated (survivingTexts tuning.precision kept) := by
      rw [Run.output, if_neg (by simpa using nothing), texts]
    have survive : ∀ line ∈ kept.filter (fun line => !line.isEmpty), tuning.Survivor line := by
      intro line member
      obtain ⟨member, nonempty⟩ := List.mem_filter.mp member
      exact present line member (by simpa using nonempty)
    have readsAgain := Line.reads_terminated presentable tuning.precision
    obtain ⟨last, again, reducedAgain⟩ :=
      reduceAll_reread id reduced tuning.precision (.refl machine)
    obtain ⟨fault, -, textsAgain⟩ := runLines_of_reduceAll fits readsAgain reducedAgain
    have presentableAgain := presentable_of_reduceAll reducedAgain
      (readsAgain.presentable fun raw => Lines.feed_not_mem_of_mem_ofString)
    rw [← run, ← output] at fault textsAgain
    refine ⟨fault, ?_⟩
    rw [Run.output_inj (textsAgain ▸ of_mem_survivingTexts presentableAgain)
      (texts ▸ of_mem_survivingTexts presentable), textsAgain, texts]
    exact survivingTexts_eq_iff survive reducedAgain

theorem second_pass_of_round_numbers :
    let first := Tuning.standard.run {} "G28\nG1 X1 F1500\nG1 X2\n"
    first.fault = none ∧ (Tuning.standard.run {} first.output).fault = none ∧
      ((Tuning.standard.run {} first.output).output = first.output ↔
        Tuning.standard.Lasting {} first.kept.toList) :=
  ⟨by decide +kernel,
    second_pass .standard ⟨by decide, by decide, by decide⟩ {} _ (by decide +kernel)⟩

/-- The output of a pass need not be a fixed point: two numbers that differ enough when they are
read can be too near to each other as they are written. -/
theorem second_pass_changes :
    (Tuning.standard.run {} "G28\nG1 X1.20004\nG1 X1.19903\n").fault = none ∧
      (Tuning.standard.run {} "G28\nG1 X1.20004\nG1 X1.19903\n").output =
        "G28\nG1 X1.2\nG1 X1.199\n" ∧
      (Tuning.standard.run {} "G28\nG1 X1.2\nG1 X1.199\n").output = "G28\nG1 X1.2\n" := by
  decide +kernel

-- A feed rate that is written as zero, a carriage return at the end of a comment, and increments
-- that are counted but not kept each make a second pass change the output too.
example :
    ∀ text ∈ ["G28\nG1 F0.4\n", "G28 ;c\r\r\n",
        "G28\nM83\nG1 E0.0009\nG1 E0.0009\nM82\nG1 E0.0005\n"],
      (Tuning.standard.run {} text).fault = none ∧
        (Tuning.standard.run {} (Tuning.standard.run {} text).output).output ≠
          (Tuning.standard.run {} text).output := by
  decide +kernel

end Tuning

end Toolpath
