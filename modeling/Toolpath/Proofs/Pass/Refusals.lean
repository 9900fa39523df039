import Mathlib
import Toolpath.Proofs.Machine.Reference
import Toolpath.Proofs.Pass.Composing

/-! # What is refused changes nothing

A line that is refused leaves the machine where it is and loses at most its comment. So an order that
a composer refuses, at whichever of the checks, leaves the composer as it was, and one that it grants
adds at most one line, which is not empty. A run of orders, some of which are refused, is the run of
those that are granted.
-/

namespace Toolpath

namespace Composer

/-- The orders that are granted when orders are carried out one after the other. -/
def granted (composer : Composer) : List Order → List Order
  | [] => []
  | order :: orders =>
    let reply := composer.carryOut order
    if reply.fault.isSome then reply.composer.granted orders
    else order :: reply.composer.granted orders

/-- The second composer has the lines of the first one and after them some that are not empty. -/
def Grows (limit : Nat) (before after : Composer) : Prop :=
  ∃ added : List Line, after.lines.toList = before.lines.toList ++ added ∧ added.length ≤ limit ∧
    ∀ line ∈ added, line.isEmpty = false

theorem Grows.refl (composer : Composer) : Grows 0 composer composer :=
  ⟨[], (List.append_nil _).symm, Nat.le_refl 0, List.forall_mem_nil _⟩

theorem Grows.trans {first second : Nat} {before between after : Composer}
    (early : Grows first before between) (late : Grows second between after) :
    Grows (first + second) before after := by
  obtain ⟨front, lines, short, present⟩ := early
  obtain ⟨back, linesAfter, shortAfter, presentAfter⟩ := late
  refine ⟨front ++ back, by rw [linesAfter, lines, List.append_assoc], ?_, ?_⟩
  · rw [List.length_append]
    exact Nat.add_le_add short shortAfter
  · intro line member
    rcases List.mem_append.mp member with early | late
    · exact present line early
    · exact presentAfter line late

theorem grows_keep (composer : Composer) (machine : Machine) (line : Line) :
    Grows 1 composer (composer.keep machine line) := by
  cases empty : line.isEmpty with
  | true =>
    refine ⟨[], ?_, Nat.zero_le 1, List.forall_mem_nil _⟩
    rw [keep, empty, List.append_nil]
    rfl
  | false =>
    refine ⟨[line], ?_, Nat.le_refl 1, List.forall_mem_singleton.mpr empty⟩
    rw [keep, empty]
    exact Array.toList_push

/-- An order is refused and changes nothing, or is granted and adds at most one line. -/
theorem carryOut_outcome (composer : Composer) (order : Order) :
    (composer.carryOut order).fault.isSome = true ∧
        (composer.carryOut order).composer = composer ∨
      (composer.carryOut order).fault = none ∧
        Grows 1 composer (composer.carryOut order).composer := by
  rcases composer.carryOut_cases order with ⟨line, same⟩ | same
  · rw [same]
    by_cases accepts : composer.tuning.Accepts composer.machine line
    · obtain ⟨granted, kept⟩ := add_of_accepts accepts
      rw [kept]
      exact .inr ⟨granted, composer.grows_keep _ _⟩
    · exact .inl (add_of_refusal accepts)
  · rw [same]
    exact .inl ⟨rfl, rfl⟩

/-- Orders that are refused may as well not be given. -/
theorem callAll_granted (composer : Composer) (orders : List Order) :
    composer.callAll (orders.map .order) =
        composer.callAll ((composer.granted orders).map .order) ∧
      Grows (composer.granted orders).length composer (composer.callAll (orders.map .order)) := by
  induction orders generalizing composer with
  | nil => exact ⟨rfl, .refl composer⟩
  | cons order orders ih =>
    rw [List.map_cons, granted]
    change (composer.carryOut order).composer.callAll _ = _ ∧
      Grows _ composer ((composer.carryOut order).composer.callAll _)
    rcases composer.carryOut_outcome order with ⟨refused, same⟩ | ⟨done, grows⟩
    · simp only [refused, if_true, same]
      exact ih composer
    · obtain ⟨later, growsLater⟩ := ih (composer.carryOut order).composer
      simp only [done, Option.isSome_none, Bool.false_eq_true, if_false, List.map_cons,
        List.length_cons]
      refine ⟨later, ?_⟩
      rw [Nat.add_comm]
      exact grows.trans growsLater

/-- What is refused changes nothing. A line that is refused leaves the machine as it was, and the
line too, less its comment where comments are removed. An order that is refused leaves the composer
as it was, however that came about, and an order that is granted adds at most one line, which is not
empty. So a run of orders does what the orders do that are granted, and adds at most one line for
each of these. -/
theorem refusals_change_nothing :
    (∀ (tuning : Tuning) (machine : Machine) (line : Line) (fault : Fault),
      (tuning.reduce machine line).fault = some fault →
        (tuning.reduce machine line).machine = machine ∧
          (tuning.reduce machine line).line =
            if tuning.removeComments then { line with comment := none } else line) ∧
    (∀ (composer : Composer) (order : Order) (fault : Fault),
      (composer.carryOut order).fault = some fault →
        (composer.carryOut order).composer = composer) ∧
    (∀ (composer : Composer) (order : Order), (composer.carryOut order).fault = none →
      Grows 1 composer (composer.carryOut order).composer) ∧
    ∀ (composer : Composer) (orders : List Order),
      composer.callAll (orders.map .order) =
          composer.callAll ((composer.granted orders).map .order) ∧
        Grows (composer.granted orders).length composer
          (composer.callAll (orders.map .order)) := by
  refine ⟨?_, ?_, ?_, callAll_granted⟩
  · intro tuning machine line fault failed
    apply Tuning.reduce_of_refusal
    rw [← Tuning.fault_reduce_eq_none_iff, failed]
    exact nofun
  · intro composer order fault failed
    rcases composer.carryOut_outcome order with ⟨-, same⟩ | ⟨done, -⟩
    · exact same
    · rw [done] at failed
      contradiction
  · intro composer order done
    rcases composer.carryOut_outcome order with ⟨refused, -⟩ | ⟨-, grows⟩
    · rw [done] at refused
      contradiction
    · exact grows

/-- Orders that are refused before homing, for E words that are positions, for a parameter and for
an unknown command, and one that is granted but adds nothing. -/
theorem refusals_change_nothing_every_check :
    let heat : Line := { command := some ⟨.m, 104⟩, comment := some "; heat" }
    let bare : Tuning := { Tuning.standard with removeComments := true }
    let composer : Composer := { tuning := .standard }
    let orders : List Order :=
      [.travel 1.0 2.0 none none, .home, .print 1.0 0.0 none none, .relativeExtrusion,
        .line { command := some .linearMove, x := some 5.0, numbers := .ofList [('S', 1.0)] },
        .line heat, .print 1.0 0.0 none none, .travel 1.0 0.0 none (some 2400.0)]
    let granted : List Order :=
      [.home, .relativeExtrusion, .print 1.0 0.0 none none, .travel 1.0 0.0 none (some 2400.0)]
    (bare.reduce {} heat).fault = some (.unknownCommand "M104") ∧
      (bare.reduce {} heat).machine = {} ∧ (bare.reduce {} heat).line = .ofCommand ⟨.m, 104⟩ ∧
      (composer.carryOut (.travel 1.0 2.0 none none)).fault = some (.unsupported .notHomed) ∧
      (composer.carryOut (.travel 1.0 2.0 none none)).composer = composer ∧
      (composer.carryOut .home).fault = none ∧
      Grows 1 composer (composer.carryOut .home).composer ∧
      composer.granted orders = granted ∧
      composer.callAll (orders.map .order) = composer.callAll (granted.map .order) ∧
      (composer.callAll (orders.map .order)).lines.size = 3 := by
  intro heat bare composer orders granted
  obtain ⟨line, refused, done, run⟩ := refusals_change_nothing
  have unknown : (bare.reduce {} heat).fault = some (.unknownCommand "M104") := by decide +kernel
  have early : (composer.carryOut (.travel 1.0 2.0 none none)).fault =
      some (.unsupported .notHomed) := by decide +kernel
  have homes : (composer.carryOut .home).fault = none := by decide +kernel
  have given : composer.granted orders = granted := by decide +kernel
  obtain ⟨machine, left⟩ := line bare {} heat _ unknown
  exact ⟨unknown, machine, left, early, refused composer _ _ early, homes, done composer _ homes,
    given, given ▸ (run composer orders).1, by decide +kernel⟩

end Composer

end Toolpath
