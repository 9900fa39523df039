import Mathlib
import Toolpath.Proofs.Pass.Survivors

/-! # A pass preserves motion

Three machines are compared: one that carries out the text of a pass, the one that the pass tracks,
and one that carries out the output. On every axis the first is never farther from the tracked
position than a single dropped word allows, and the last stands where the tracked position is after
it was written and read, so errors do not add up. The modes of the three machines are the same.
-/

namespace Toolpath

namespace Tuning

/-- An axis of the three machines: the commanded position is the tracked one or near it, and the
printed position is the tracked one, exactly or as it is written with the given places. -/
structure TracksAxis (tuning : Tuning) (places : Nat)
    (commanded tracked printed : Float) : Prop where
  commanded : commanded = tracked ∨ tuning.near commanded tracked
  printed : printed = tracked ∨ Numeral.read? (Fixed.chars places tracked) = some printed

/-- The three machines agree on their modes and, up to one threshold and one rounding, on where
they stand. -/
structure Tracks (tuning : Tuning) (commanded tracked printed : Machine) : Prop where
  x : tuning.TracksAxis tuning.precision.xy commanded.x tracked.x printed.x
  y : tuning.TracksAxis tuning.precision.xy commanded.y tracked.y printed.y
  z : tuning.TracksAxis tuning.precision.z commanded.z tracked.z printed.z
  commandedModes : Machine.SameModes commanded tracked
  printedModes : Machine.SameModes printed tracked

variable {tuning : Tuning}

theorem TracksAxis.refl (places : Nat) (value : Float) :
    tuning.TracksAxis places value value value :=
  ⟨.inl rfl, .inl rfl⟩

theorem Tracks.refl (machine : Machine) : tuning.Tracks machine machine machine :=
  ⟨.refl .., .refl .., .refl .., .refl _, .refl _⟩

/-- One word of a move: a word that is kept moves all three machines, and a word that is dropped
moves the first one near the tracked position. -/
theorem TracksAxis.keepAxis {places : Nat} {commanded tracked printed : Float}
    (tracks : tuning.TracksAxis places commanded tracked printed) (word : Option Float) :
    tuning.TracksAxis places (word.getD commanded) (tuning.keepAxis word tracked).2
      (((tuning.keepAxis word tracked).1.map (Fixed.settled places)).getD printed) := by
  cases word with
  | none => exact tracks
  | some value =>
    rw [Tuning.keepAxis]
    split_ifs with near
    · exact ⟨.inr near, tracks.printed⟩
    · exact ⟨.inl rfl, .inr (Fixed.read?_chars places value)⟩

/-- Carrying out what is left of a move is carrying out its kept words, also if there is none. -/
theorem follow_settled_reduceMove (tuning : Tuning) (machine printed : Machine) {line : Line}
    (move : line.action = .move) :
    printed.follow ((tuning.reduceMove machine (tuning.strip line)).2.settled tuning.precision) =
      printed.move ((tuning.keptWords machine line).settled tuning.precision) := by
  have stripped :
      printed.move ((tuning.keptWords machine (tuning.strip line)).settled tuning.precision) =
      printed.move ((tuning.keptWords machine line).settled tuning.precision) := by
    rw [strip]
    split_ifs <;> rfl
  rw [reduceMove_eq, ← stripped]
  split_ifs with words
  · exact Machine.follow_of_move ((tuning.action_strip line).trans move)
  · rw [Machine.move_of_not_hasWords (Line.hasWords_settled (by simpa using words) _)]
    exact Machine.follow_of_unknown rfl

/-- One accepted line keeps the three machines together. -/
theorem Tracks.step {commanded tracked printed : Machine}
    (tracks : tuning.Tracks commanded tracked printed) {line : Line}
    (accepts : tuning.Accepts tracked line) :
    tuning.Tracks (commanded.follow line) (tuning.reduce tracked line).machine
      (printed.follow ((tuning.reduce tracked line).line.settled tuning.precision)) := by
  by_cases move : line.action = .move
  · rw [accepts.reduce_move move, Machine.follow_of_move move]
    have left := follow_settled_reduceMove tuning tracked printed move
    rw [left]
    have modes := (sameModes_afterMove tuning tracked line).symm
    have commandedModes := (Machine.sameModes_move commanded line).trans tracks.commandedModes
    have printedModes := (Machine.sameModes_move printed
      ((tuning.keptWords tracked line).settled tuning.precision)).trans tracks.printedModes
    exact ⟨tracks.x.keepAxis line.x, tracks.y.keepAxis line.y, tracks.z.keepAxis line.z,
      commandedModes.trans modes, printedModes.trans modes⟩
  · rw [accepts.reduce_other move]
    have same : ((tuning.strip line).settled tuning.precision).action = line.action :=
      tuning.action_strip line
    have commandedModes := tracks.commandedModes.follow (rfl : line.action = line.action)
    have printedModes := tracks.printedModes.follow same
    simp only [Machine.follow, same] at commandedModes printedModes ⊢
    generalize line.action = action at *
    cases action with
    | move => contradiction
    | home => exact ⟨.refl .., .refl .., .refl .., commandedModes, printedModes⟩
    | extrusion _ | positioning _ | unknown =>
      exact ⟨tracks.x, tracks.y, tracks.z, commandedModes, printedModes⟩

/-- Accepted lines in order keep the three machines together. -/
theorem Tracks.run {commanded tracked printed after : Machine}
    (tracks : tuning.Tracks commanded tracked printed) {lines kept : List Line}
    (success : tuning.reduceAll tracked lines = .ok (after, kept)) :
    tuning.Tracks (commanded.followAll lines) after
      (printed.followAll (kept.map (Line.settled tuning.precision))) := by
  induction lines generalizing commanded tracked printed kept with
  | nil =>
    obtain ⟨rfl, rfl⟩ := Prod.mk.inj (Except.ok.inj success)
    exact tracks
  | cons line lines ih =>
    obtain ⟨accepts, rest, later, rfl⟩ := reduceAll_cons_eq_ok_iff.mp success
    exact ih (tracks.step accepts) later

/-- A pass preserves motion: after any number of lines of a text that a pass takes without a fault,
the machine that carries out these lines, the tracked machine and the machine that carries out the
lines kept so far agree on their modes and, up to one threshold and one rounding, on where they
stand. -/
theorem motion_preserved (tuning : Tuning) (machine : Machine) (text : String)
    (success : (tuning.run machine text).fault = none) (count : Nat) :
    let lines := (Lines.ofString text).take count
    let run := tuning.runLines machine lines
    run.fault = none ∧ run.kept.toList <+: (tuning.run machine text).kept.toList ∧
      ∃ commanded printed, machine.followTexts lines = .ok commanded ∧
        machine.followText (Run.terminated run.kept.toList) = .ok printed ∧
        machine.followText run.output = .ok printed ∧
        tuning.Tracks commanded run.machine printed := by
  intro lines run
  have partSuccess : run.fault = none := fault_runLines_take success count
  obtain ⟨read, kept, reads, reduced, texts⟩ := runLines_cases partSuccess
  have within : ∀ raw ∈ lines, '\n' ∉ raw.toList := by
    intro raw member
    exact Lines.feed_not_mem_of_mem_ofString (List.mem_of_mem_take member)
  have presentable := presentable_of_reduceAll reduced (reads.presentable within)
  have printed := Line.followText_terminated presentable tuning.precision machine
  rw [← texts] at printed
  refine ⟨partSuccess, ?_, _, _, reads.followTexts machine, printed, ?_,
    (Tracks.refl machine).run reduced⟩
  · exact kept_runLines_take success count
  · rw [Run.followText_output, printed]

/-- A move that is rounded when it is written, and one that is dropped. -/
theorem motion_preserved_rounded_move :
    let text := "G28\nG1 X1.23456 F1500\nG1 X1.235\n"
    let run := Tuning.standard.runLines {} ((Lines.ofString text).take 3)
    (Tuning.standard.run {} text).fault = none ∧ run.kept.toList = ["G28", "G1 X1.2346 F1500"] ∧
      ∃ commanded printed, Machine.followText {} run.output = .ok printed ∧
        Tuning.standard.Tracks commanded run.machine printed := by
  refine ⟨by decide +kernel, by decide +kernel, ?_⟩
  obtain ⟨-, -, commanded, printed, -, -, output, tracks⟩ :=
    motion_preserved .standard {} "G28\nG1 X1.23456 F1500\nG1 X1.235\n" (by decide +kernel) 3
  exact ⟨commanded, printed, output, tracks⟩

end Tuning

end Toolpath
