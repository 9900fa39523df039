import Mathlib
import Toolpath.Composer
import Toolpath.Proofs.Text.Terminated

/-! # Writing in parts

Writing bytes in two parts comes to the same as writing them at once, until something does not fit.
So writing line by line is writing all lines in one piece.
-/

namespace Toolpath

namespace Sink

/-- A sink with room for some bytes takes the first ones up to that number. -/
theorem write_of_limit {sink : Sink} {room : Nat} {fault : IoFault}
    (limited : sink.limit = some (room, fault)) (bytes : ByteArray) :
    sink.write bytes =
      ({ sink with
          written := sink.written ++ bytes.extract 0 room
          limit := some (room - bytes.size, fault) },
        if bytes.size ≤ room then none else some fault) := by
  simp only [write, limited]
  split_ifs with fits
  · have whole : bytes.extract 0 (max room bytes.size) = bytes := ByteArray.extract_zero_max_size
    rw [max_eq_left fits] at whole
    rw [whole]
  · rw [Nat.sub_eq_zero_of_le (by omega)]

/-- Writing in two parts is writing the whole, unless the first part fails; then the second part is
not written, and nothing of it would fit. -/
theorem write_append (sink : Sink) (first second : ByteArray) :
    sink.write (first ++ second) =
      match sink.write first with
      | (after, none) => after.write second
      | (after, some fault) => (after, some fault) := by
  cases limit : sink.limit with
  | none => simp [write, limit, ByteArray.append_assoc]
  | some bound =>
    obtain ⟨room, fault⟩ := bound
    have cut : (first ++ second).extract 0 room =
        first.extract 0 room ++ second.extract 0 (room - first.size) := by
      rw [ByteArray.extract_append, Nat.zero_sub]
    rw [write_of_limit limit, write_of_limit limit, cut, ByteArray.size_append, ← Nat.sub_sub]
    by_cases fits : first.size ≤ room
    · simp only [if_pos fits]
      rw [write_of_limit rfl]
      simp only [ByteArray.append_assoc, Nat.le_sub_iff_add_le' fits]
    · have full : room - first.size = 0 := by omega
      simp only [if_neg fits, if_neg (show ¬ first.size + second.size ≤ room by omega), full,
        ByteArray.extract_same, ByteArray.append_empty, Nat.zero_sub]

theorem write_empty (sink : Sink) : sink.write .empty = (sink, none) := by
  obtain ⟨written, limit, flushFault⟩ := sink
  cases limit <;> simp [write]

/-- Writing does not decide whether the output can be completed. -/
theorem flushFault_write (sink : Sink) (bytes : ByteArray) :
    (sink.write bytes).1.flushFault = sink.flushFault := by
  rw [write]
  split
  · rfl
  · split_ifs <;> rfl

@[simp] theorem writeLine_unlimited (before : ByteArray) (text : String) :
    ({ written := before } : Sink).writeLine text =
      ({ written := before ++ (text ++ "\n").toUTF8 }, none) := rfl

end Sink

/-- A composer that writes lines into any sink writes them all at once, and then completes the
output. -/
theorem Composer.writeLines_eq {precision : Precision} (lines : List Line)
    (written : ∀ line ∈ lines, line.render? precision = some (line.render precision))
    (sink : Sink) :
    writeLines precision sink lines =
      match sink.write (Run.terminated (lines.map (Line.render precision))).toUTF8 with
      | (after, none) => (after, sink.flushFault.elim Closing.complete .failed)
      | (after, some fault) => (after, .failed fault) := by
  induction lines generalizing sink with
  | nil =>
    change _ = match sink.write .empty with
      | (after, none) => (after, sink.flushFault.elim Closing.complete .failed)
      | (after, some fault) => (after, Closing.failed fault)
    rw [Sink.write_empty]
    rfl
  | cons line lines ih =>
    obtain ⟨first, others⟩ := List.forall_mem_cons.mp written
    have cut : Run.terminated ((line :: lines).map (Line.render precision)) =
        line.render precision ++ "\n" ++ Run.terminated (lines.map (Line.render precision)) := by
      rw [← Run.terminated_singleton, ← Run.terminated_append]
      rfl
    have bytes : (Run.terminated ((line :: lines).map (Line.render precision))).toUTF8 =
        (line.render precision ++ "\n").toUTF8 ++
          (Run.terminated (lines.map (Line.render precision))).toUTF8 := by
      rw [cut]
      exact String.toByteArray_append
    rw [bytes, Sink.write_append, writeLines, first]
    simp only [Sink.writeLine]
    cases outcome : sink.write (line.render precision ++ "\n").toUTF8 with
    | mk after fault =>
      have flush : after.flushFault = sink.flushFault := by
        rw [← sink.flushFault_write (line.render precision ++ "\n").toUTF8, outcome]
      cases fault with
      | none => simp only [ih others, flush]
      | some fault => rfl

end Toolpath
