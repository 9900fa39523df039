import Mathlib
import Toolpath.Proofs.Pass.Endings
import Toolpath.Proofs.Text.Remarks

/-! # Removing comments before a pass or during it

A pass that removes comments takes a line as a pass that keeps them takes the line cut just before
its first comment marker: both work on the same words, and there is no comment that either of them
could keep. So cutting all lines of a text and passing over it is passing over the text and removing
the comments, for every outcome of the pass.
-/

namespace Toolpath

namespace Tuning

variable {tuning : Tuning}

/-- The same tuning, but comments are kept. -/
def keepingComments (tuning : Tuning) : Tuning := { tuning with removeComments := false }

/-- A line is reduced the same way whether its comment is removed before or at that time. -/
theorem reduce_keepingComments (removes : tuning.removeComments = true) (machine : Machine)
    (line : Line) :
    tuning.keepingComments.reduce machine line.withoutComment = tuning.reduce machine line := by
  have stripped : tuning.strip line = line.withoutComment := if_pos removes
  rw [reduce, reduce, stripped]
  rfl

theorem turn_keepingComments (removes : tuning.removeComments = true) (machine : Machine)
    (number : Nat) {raw bare : String} (cut : Word.Bare raw.toList bare.toList) :
    tuning.keepingComments.turn machine number bare = tuning.turn machine number raw := by
  rw [turn, turn, Line.read_of_bare cut]
  cases Line.read raw with
  | error fault => rfl
  | ok line =>
    have stripped : tuning.strip line = line.withoutComment := if_pos removes
    simp only [Except.map, reduce_keepingComments removes, notes, stripped]
    rfl

end Tuning

namespace Run

variable {tuning : Tuning}

theorem feed_keepingComments (removes : tuning.removeComments = true) (run : Run)
    {raw bare : String} (cut : Word.Bare raw.toList bare.toList) :
    run.feed tuning.keepingComments bare = run.feed tuning raw := by
  rw [feed, feed]
  simp only [Tuning.turn_keepingComments removes run.machine (run.count + 1) cut]

/-- Lines without their comments take a run that keeps comments where the lines take it. -/
theorem feedAll_keepingComments (removes : tuning.removeComments = true) (run : Run)
    {raws bares : List String}
    (cuts : List.Forall₂ (fun raw bare : String => Word.Bare raw.toList bare.toList) raws bares) :
    run.feedAll tuning.keepingComments bares = run.feedAll tuning raws := by
  induction cuts generalizing run with
  | nil => rfl
  | cons cut _ ih => rw [feedAll_cons, feedAll_cons, feed_keepingComments removes run cut, ih]

/-- An empty line is counted and dropped, and nothing else. -/
theorem feed_empty (tuning : Tuning) (run : Run) :
    (run.feed tuning "").machine = run.machine ∧ (run.feed tuning "").kept = run.kept ∧
      (run.feed tuning "").fault = run.fault := by
  have read : Line.read "" = .ok .blank := rfl
  have inert : Line.blank.isInert = true := rfl
  have empty : (tuning.strip .blank).isEmpty = true := by
    rw [Tuning.strip]
    split_ifs <;> rfl
  rw [feed]
  split_ifs
  · exact ⟨rfl, rfl, rfl⟩
  · simp only [Tuning.turn, read, Tuning.reduce_of_isInert tuning run.machine inert, empty, if_true,
      and_self]

end Run

namespace Tuning

/-- Cutting every line of a text just before its first comment marker and keeping comments is
keeping the text and removing comments: the pass ends with the same fault or with none, with the
same machine and with the same output. -/
theorem comments_cut_first (tuning : Tuning) (removes : tuning.removeComments = true)
    (machine : Machine) (text : String) :
    let cut := tuning.keepingComments.run machine (Lines.withoutRemarks text)
    let run := tuning.run machine text
    cut.fault = run.fault ∧ cut.machine = run.machine ∧ cut.output = run.output := by
  intro cut run
  obtain ⟨rest, shape, cuts⟩ := Lines.bare_ofString text
  have whole : run = cut.feedAll tuning.keepingComments rest := by
    have same := Run.feedAll_keepingComments removes { machine } cuts
    rw [Run.feedAll_append] at same
    exact same.symm
  clear_value cut run
  rcases shape with rfl | rfl
  · rw [whole, Run.feedAll_nil]
    exact ⟨rfl, rfl, rfl⟩
  · obtain ⟨last, kept, fault⟩ := Run.feed_empty tuning.keepingComments cut
    rw [whole, Run.feedAll_cons, Run.feedAll_nil, Run.output, Run.output, last, kept, fault]
    exact ⟨rfl, rfl, rfl⟩

/-- Both kinds of line endings, a marker and a carriage return inside a comment, a carriage return
before a marker, and at the end a comment that is not ended: the cut text has a line less. -/
theorem comments_cut_first_endings :
    let tuning : Tuning := { Tuning.standard with removeComments := true }
    let text := "G28 ;home\r\nG1 X1;a;b\r;c\n; only\r\nG1 Y2\r;d\nG1 X1.0001 ;e\n;f"
    let cut := tuning.keepingComments.run {} (Lines.withoutRemarks text)
    let run := tuning.run {} text
    tuning.removeComments = true ∧
      Lines.withoutRemarks text = "G28 \r\nG1 X1\n\r\nG1 Y2\r\nG1 X1.0001 \n" ∧
      run.output = "G28\nG1 X1\nG1 Y2\n" ∧
      cut.fault = run.fault ∧ cut.machine = run.machine ∧ cut.output = run.output := by
  intro tuning text cut run
  exact ⟨rfl, by decide +kernel, by decide +kernel, comments_cut_first tuning rfl {} text⟩

end Tuning

end Toolpath
