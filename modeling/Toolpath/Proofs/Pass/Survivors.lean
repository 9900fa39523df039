import Mathlib
import Toolpath.Pass
import Toolpath.Proofs.Reduce.Acceptance

/-! # The surviving lines of a pass

A pass that does not end early has read every line, reduced the lines in order and kept the written
forms of those that are not empty. Its output can be read again, line by line, as these lines with
their numbers settled.
-/

namespace Toolpath

/-- The written forms of the lines that are not empty. -/
def survivingTexts (precision : Precision) (lines : List Line) : List String :=
  (lines.filter fun line => !line.isEmpty).map (Line.render precision)

theorem survivingTexts_append (precision : Precision) (first second : List Line) :
    survivingTexts precision (first ++ second) =
      survivingTexts precision first ++ survivingTexts precision second := by
  rw [survivingTexts, List.filter_append, List.map_append]
  rfl

theorem survivingTexts_cons (precision : Precision) (line : Line) (lines : List Line) :
    survivingTexts precision (line :: lines) =
      (if line.isEmpty then [] else [line.render precision]) ++ survivingTexts precision lines := by
  rw [survivingTexts, List.filter_cons]
  cases line.isEmpty <;> rfl

theorem length_survivingTexts_le (precision : Precision) (lines : List Line) :
    (survivingTexts precision lines).length ≤ lines.length := by
  rw [survivingTexts, List.length_map]
  exact List.length_filter_le ..

namespace Run

variable {tuning : Tuning} {run : Run} {raw : String}

/-- A pass that does not end at a line has read it, and the line was accepted. -/
theorem feed_cases (running : run.fault = none) (success : (run.feed tuning raw).fault = none) :
    ∃ line, Line.read raw = .ok line ∧ tuning.Accepts run.machine line ∧
      (run.feed tuning raw).machine = (tuning.reduce run.machine line).machine ∧
      (run.feed tuning raw).kept.toList = run.kept.toList ++
        survivingTexts tuning.precision [(tuning.reduce run.machine line).line] := by
  have notEnded : ¬ run.fault.isSome := by simp [running]
  rw [feed, if_neg notEnded] at success ⊢
  simp only [Tuning.turn] at success ⊢
  cases outcome : Line.read raw with
  | error fault => simp [outcome] at success
  | ok line =>
    simp only [outcome] at success ⊢
    cases fault : (tuning.reduce run.machine line).fault with
    | some fault => simp [fault] at success
    | none =>
      simp only [fault] at success ⊢
      refine ⟨line, rfl, Tuning.fault_reduce_eq_none_iff.mp fault, ?_⟩
      rw [survivingTexts_cons]
      cases empty : (tuning.reduce run.machine line).line.isEmpty with
      | true => exact ⟨by simp, by simp [survivingTexts]⟩
      | false =>
        simp only [empty, Bool.false_eq_true, if_false] at success ⊢
        cases written : (tuning.reduce run.machine line).line.render? tuning.precision with
        | none => simp [written] at success
        | some text =>
          rw [← Line.render?_eq_some written]
          exact ⟨rfl, by simp [survivingTexts]⟩

/-- An accepted line does not end a pass whose numbers can be written. -/
theorem feed_of_accepts (fits : tuning.precision.Fits) (running : run.fault = none) {line : Line}
    (outcome : Line.read raw = .ok line) (accepts : tuning.Accepts run.machine line) :
    (run.feed tuning raw).fault = none := by
  have notEnded : ¬ run.fault.isSome := by simp [running]
  have fault := Tuning.fault_reduce_eq_none_iff.mpr accepts
  have written := Line.render?_of_fits fits (tuning.reduce run.machine line).line
  rw [feed, if_neg notEnded]
  simp only [Tuning.turn, outcome, fault, written]
  cases (tuning.reduce run.machine line).line.isEmpty <;> exact running

/-- A pass that has ended early stays so. -/
theorem running_of_feedAll {lines : List String}
    (success : (run.feedAll tuning lines).fault = none) : run.fault = none := by
  by_contra ended
  rw [feedAll_of_fault (Option.isSome_iff_ne_none.mpr ended)] at success
  exact ended success

/-- A pass that does not end early has reduced the lines that its texts are read as. -/
theorem feedAll_cases {raws : List String} (success : (run.feedAll tuning raws).fault = none) :
    ∃ lines kept, Line.Reads raws lines ∧
      tuning.reduceAll run.machine lines = .ok ((run.feedAll tuning raws).machine, kept) ∧
      (run.feedAll tuning raws).kept.toList =
        run.kept.toList ++ survivingTexts tuning.precision kept := by
  induction raws generalizing run with
  | nil => exact ⟨[], [], .nil, rfl, (List.append_nil _).symm⟩
  | cons raw raws ih =>
    have running := running_of_feedAll success
    rw [feedAll_cons] at success ⊢
    obtain ⟨line, outcome, accepts, machine, texts⟩ :=
      feed_cases running (running_of_feedAll success)
    obtain ⟨lines, kept, reads, later, laterTexts⟩ := ih success
    rw [machine] at later
    refine ⟨line :: lines, (tuning.reduce run.machine line).line :: kept, .cons outcome reads, ?_⟩
    constructor
    · exact Tuning.reduceAll_cons_eq_ok_iff.mpr ⟨accepts, kept, later, rfl⟩
    · rw [laterTexts, texts, List.append_assoc, ← survivingTexts_append]
      rfl

/-- A pass over texts whose lines are reduced in order does not end early. -/
theorem feedAll_of_reduceAll (fits : tuning.precision.Fits) (running : run.fault = none)
    {raws : List String} {lines kept : List Line} {after : Machine} (reads : Line.Reads raws lines)
    (success : tuning.reduceAll run.machine lines = .ok (after, kept)) :
    (run.feedAll tuning raws).fault = none ∧ (run.feedAll tuning raws).machine = after ∧
      (run.feedAll tuning raws).kept.toList =
        run.kept.toList ++ survivingTexts tuning.precision kept := by
  induction reads generalizing run kept with
  | nil =>
    obtain ⟨rfl, rfl⟩ := Prod.mk.inj (Except.ok.inj success)
    exact ⟨running, rfl, (List.append_nil _).symm⟩
  | @cons raw line raws lines outcome reads ih =>
    obtain ⟨accepts, rest, later, rfl⟩ := Tuning.reduceAll_cons_eq_ok_iff.mp success
    have firstSuccess := feed_of_accepts fits running outcome accepts
    obtain ⟨other, again, -, machine, texts⟩ := feed_cases running firstSuccess
    obtain rfl : line = other := Except.ok.inj (outcome.symm.trans again)
    rw [← machine] at later
    obtain ⟨fault, last, laterTexts⟩ := ih firstSuccess later
    rw [feedAll_cons]
    refine ⟨fault, last, ?_⟩
    rw [laterTexts, texts, List.append_assoc, ← survivingTexts_append]
    rfl

/-- A line of a pass that has not ended is counted. If the pass ends there, the line is named and
nothing of it is kept. -/
theorem feed_of_running (running : run.fault = none) (tuning : Tuning) (text : String) :
    (run.feed tuning text).count = run.count + 1 ∧
      ∀ fault ∈ (run.feed tuning text).fault,
        (∃ reason, fault = .line (run.count + 1) reason) ∧
          (run.feed tuning text).kept = run.kept := by
  have notEnded : ¬ run.fault.isSome = true := by simp [running]
  rw [feed, if_neg notEnded]
  cases verdict : (tuning.turn run.machine (run.count + 1) text).verdict with
  | kept _ | dropped =>
    refine ⟨by simp only [verdict], ?_⟩
    intro fault member
    simp only [verdict, running] at member
    contradiction
  | failed reason =>
    refine ⟨by simp only [verdict], ?_⟩
    intro fault member
    simp only [verdict, Option.mem_def, Option.some.injEq] at member ⊢
    exact ⟨⟨reason, member.symm⟩, trivial⟩

theorem count_feedAll {texts : List String}
    (success : (run.feedAll tuning texts).fault = none) :
    (run.feedAll tuning texts).count = run.count + texts.length := by
  induction texts generalizing run with
  | nil => rfl
  | cons text texts ih =>
    have step := (feed_of_running (running_of_feedAll success) tuning text).1
    rw [feedAll_cons, ih success, step, List.length_cons]
    omega

/-- A pass that ends early does so at the line after some lines that it takes without a fault, and
keeps what these leave. -/
theorem feedAll_stops {texts : List String} {fault : PassFault} (running : run.fault = none)
    (ended : (run.feedAll tuning texts).fault = some fault) :
    ∃ front text back reason, texts = front ++ text :: back ∧
      fault = .line (run.count + front.length + 1) reason ∧
      (run.feedAll tuning front).fault = none ∧
      (run.feedAll tuning texts).kept = (run.feedAll tuning front).kept ∧
      ((run.feedAll tuning front).feed tuning text).fault = some fault := by
  induction texts generalizing run with
  | nil =>
    rw [feedAll_nil, running] at ended
    contradiction
  | cons text texts ih =>
    obtain ⟨count, stops⟩ := feed_of_running running tuning text
    rw [feedAll_cons] at ended
    cases outcome : (run.feed tuning text).fault with
    | none =>
      obtain ⟨front, bad, back, reason, rfl, same, success, kept, stopped⟩ := ih outcome ended
      refine ⟨text :: front, bad, back, reason, rfl, ?_, success, kept, stopped⟩
      rw [same, count, List.length_cons, Nat.add_right_comm run.count, Nat.add_assoc run.count]
    | some other =>
      obtain ⟨⟨reason, named⟩, kept⟩ := stops other outcome
      have stopped : (run.feed tuning text).feedAll tuning texts = run.feed tuning text :=
        feedAll_of_fault (by rw [outcome]; rfl) tuning texts
      rw [stopped] at ended
      refine ⟨[], text, texts, reason, rfl, ?_, running, ?_, ended⟩
      · rw [← Option.some.inj (outcome.symm.trans ended)]
        exact named
      · rw [feedAll_cons, stopped]
        exact kept

end Run

namespace Tuning

variable {tuning : Tuning} {machine : Machine} {raws : List String}

/-- The lines of a pass that does not end early, and what became of them. -/
theorem runLines_cases (success : (tuning.runLines machine raws).fault = none) :
    ∃ lines kept, Line.Reads raws lines ∧
      tuning.reduceAll machine lines = .ok ((tuning.runLines machine raws).machine, kept) ∧
      (tuning.runLines machine raws).kept.toList = survivingTexts tuning.precision kept :=
  Run.feedAll_cases success

/-- A pass over texts whose lines are reduced in order does not end early, and keeps what is
left. -/
theorem runLines_of_reduceAll (fits : tuning.precision.Fits) {lines kept : List Line}
    {after : Machine} (reads : Line.Reads raws lines)
    (success : tuning.reduceAll machine lines = .ok (after, kept)) :
    (tuning.runLines machine raws).fault = none ∧ (tuning.runLines machine raws).machine = after ∧
      (tuning.runLines machine raws).kept.toList = survivingTexts tuning.precision kept :=
  Run.feedAll_of_reduceAll fits rfl reads success

/-- The first lines of a pass that does not end early make a pass that does not end early. -/
theorem fault_runLines_take (success : (tuning.runLines machine raws).fault = none) (count : Nat) :
    (tuning.runLines machine (raws.take count)).fault = none := by
  rw [runLines, ← List.take_append_drop count raws, Run.feedAll_append] at success
  exact Run.running_of_feedAll success

/-- What the first lines leave stands at the start of what all lines leave. -/
theorem kept_runLines_take (success : (tuning.runLines machine raws).fault = none) (count : Nat) :
    (tuning.runLines machine (raws.take count)).kept.toList <+:
      (tuning.runLines machine raws).kept.toList := by
  rw [runLines, ← List.take_append_drop count raws, Run.feedAll_append] at success
  obtain ⟨_, later, -, -, texts⟩ := Run.feedAll_cases success
  rw [← Run.feedAll_append, List.take_append_drop] at texts
  exact ⟨survivingTexts tuning.precision later, texts.symm⟩

/-- The comment that is left is the comment that was there. -/
theorem Accepts.comment_line {tuning : Tuning} {machine : Machine} {line : Line}
    (accepts : tuning.Accepts machine line) {remark : String}
    (present : remark ∈ (tuning.reduce machine line).line.comment) : remark ∈ line.comment := by
  have stripped : ∀ remark ∈ (tuning.strip line).comment, remark ∈ line.comment := by
    rw [strip]
    split_ifs
    · intro remark present
      exact absurd present (Option.not_mem_none remark)
    · intro remark present
      exact present
  rcases accepts.line_cases with ⟨-, same⟩ | ⟨-, same⟩ | same <;> rw [same] at present
  · exact stripped remark present
  · exact stripped remark present
  · contradiction

theorem Accepts.legible {tuning : Tuning} {machine : Machine} {line : Line}
    (accepts : tuning.Accepts machine line) (legible : line.Legible) :
    (tuning.reduce machine line).line.Legible := by
  have stripped : (tuning.strip line).Legible := by
    rw [strip]
    split_ifs
    · refine { legible with commentMarked := ?_ }
      intro text present
      exact absurd present (Option.not_mem_none text)
    · exact legible
  rcases accepts.line_cases with ⟨-, same⟩ | ⟨-, same⟩ | same <;> rw [same]
  · exact stripped
  · exact { stripped with }
  · exact Line.legible_blank

theorem Accepts.oneLine {tuning : Tuning} {machine : Machine} {line : Line}
    (accepts : tuning.Accepts machine line) (oneLine : line.OneLine) :
    (tuning.reduce machine line).line.OneLine := by
  intro remark present
  exact oneLine remark (accepts.comment_line present)

/-- What holds of an accepted line after it was reduced holds of all lines that were. -/
theorem forall_mem_of_reduceAll {property property' : Line → Prop} {tuning : Tuning}
    (step : ∀ {machine line}, tuning.Accepts machine line → property line →
      property' (tuning.reduce machine line).line)
    {machine after : Machine} {lines kept : List Line}
    (success : tuning.reduceAll machine lines = .ok (after, kept))
    (holds : ∀ line ∈ lines, property line) : ∀ line ∈ kept, property' line := by
  induction lines generalizing machine kept with
  | nil =>
    obtain ⟨-, rfl⟩ := Prod.mk.inj (Except.ok.inj success)
    exact List.forall_mem_nil _
  | cons line lines ih =>
    obtain ⟨accepts, rest, later, rfl⟩ := reduceAll_cons_eq_ok_iff.mp success
    obtain ⟨first, others⟩ := List.forall_mem_cons.mp holds
    exact List.forall_mem_cons.mpr ⟨step accepts first, ih later others⟩

/-- What is left of legible lines of one line each is legible and of one line each. -/
theorem presentable_of_reduceAll {tuning : Tuning} {machine after : Machine}
    {lines kept : List Line} (success : tuning.reduceAll machine lines = .ok (after, kept))
    (presentable : ∀ line ∈ lines, line.Legible ∧ line.OneLine) :
    ∀ line ∈ kept, line.Legible ∧ line.OneLine := by
  refine forall_mem_of_reduceAll ?_ success presentable
  rintro machine line accepts ⟨legible, oneLine⟩
  exact ⟨accepts.legible legible, accepts.oneLine oneLine⟩

end Tuning

/-- The texts of surviving lines are of one line each and not empty. -/
theorem of_mem_survivingTexts {precision : Precision} {kept : List Line}
    (presentable : ∀ line ∈ kept, line.Legible ∧ line.OneLine) :
    ∀ text ∈ survivingTexts precision kept, '\n' ∉ text.toList ∧ text ≠ "" := by
  intro text member
  obtain ⟨line, present, rfl⟩ := List.mem_map.mp member
  obtain ⟨present, nonempty⟩ := List.mem_filter.mp present
  obtain ⟨legible, oneLine⟩ := presentable line present
  refine ⟨Line.feed_not_mem_render legible oneLine precision, ?_⟩
  intro nothing
  rw [(Line.render_eq_empty_iff legible).mp nothing] at nonempty
  contradiction

namespace Line

/-- Lines of a text are legible and of one line each. -/
theorem Reads.presentable {raws : List String} {lines : List Line} (reads : Reads raws lines)
    (within : ∀ raw ∈ raws, '\n' ∉ raw.toList) : ∀ line ∈ lines, line.Legible ∧ line.OneLine := by
  refine reads.forall_mem ?_
  intro raw member line outcome
  exact ⟨legible_of_read outcome, oneLine_of_read outcome (within raw member)⟩

/-- What the surviving lines of a text are read as when it is read again. -/
def reread (precision : Precision) (kept : List Line) : List Line :=
  (kept.filter fun line => !line.isEmpty).map fun line => line.trimReturn.settled precision

/-- The texts of surviving lines, put into one text, can be read again. -/
theorem reads_terminated {kept : List Line}
    (presentable : ∀ line ∈ kept, line.Legible ∧ line.OneLine) (precision : Precision) :
    Reads (Lines.ofString (Run.terminated (survivingTexts precision kept)))
      (reread precision kept) := by
  have within : ∀ text ∈ survivingTexts precision kept, '\n' ∉ text.toList := by
    intro text member
    exact (of_mem_survivingTexts presentable text member).1
  rw [Run.ofString_terminated within, survivingTexts, List.map_map, reread, Reads,
    List.forall₂_map_left_iff, List.forall₂_map_right_iff, List.forall₂_same]
  intro line member
  have legible := (presentable line (List.mem_of_mem_filter member)).1
  rw [Function.comp_apply, trimReturn_render legible]
  exact read_render legible.trimReturn precision

/-- Carrying out the surviving lines of a text is carrying out the kept lines with settled
numbers. -/
theorem followAll_reread (precision : Precision) (kept : List Line) (machine : Machine) :
    machine.followAll (reread precision kept) =
      machine.followAll (kept.map (settled precision)) := by
  induction kept generalizing machine with
  | nil => rfl
  | cons line kept ih =>
    rw [List.map_cons, Machine.followAll_cons, ← ih, reread, List.filter_cons]
    cases empty : line.isEmpty with
    | false => rfl
    | true =>
      have nothing : (line.settled precision).action = .unknown := by
        simp only [isEmpty, Bool.and_eq_true, Option.isNone_iff_eq_none] at empty
        rw [action, settled, empty.1.1]
        rfl
      rw [Machine.follow_of_unknown nothing]
      rfl

/-- The output of a pass over lines of a text is carried out as its kept lines with settled
numbers. -/
theorem followText_terminated {kept : List Line}
    (presentable : ∀ line ∈ kept, line.Legible ∧ line.OneLine) (precision : Precision)
    (machine : Machine) :
    machine.followText (Run.terminated (survivingTexts precision kept)) =
      .ok (machine.followAll (kept.map (settled precision))) := by
  rw [Machine.followText, (reads_terminated presentable precision).followTexts, followAll_reread]

end Line

/-- What a pass over a text keeps are lines that are not empty. -/
theorem Tuning.of_mem_kept {tuning : Tuning} {machine : Machine} {text : String}
    (success : (tuning.run machine text).fault = none) :
    ∀ line ∈ (tuning.run machine text).kept.toList, '\n' ∉ line.toList ∧ line ≠ "" := by
  obtain ⟨lines, kept, reads, reduced, texts⟩ := runLines_cases success
  have readable := reads.presentable fun raw => Lines.feed_not_mem_of_mem_ofString
  rw [← run] at texts
  rw [texts]
  exact of_mem_survivingTexts (presentable_of_reduceAll reduced readable)

/-- A lone line feed does nothing, so an output without lines is carried out as no lines are. -/
theorem Run.followText_output (run : Run) (machine : Machine) :
    machine.followText run.output = machine.followText (terminated run.kept.toList) := by
  rw [output]
  split_ifs with empty
  · rw [Array.isEmpty_iff.mp empty]
    rfl
  · rfl

end Toolpath
