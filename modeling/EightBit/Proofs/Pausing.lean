import EightBit.Machine.Run
import EightBit.Proofs.Agreement

namespace EightBit
namespace Machine

/-!
# Pausing is transparent

A run can be cut short by a budget, by its device or from outside, and be taken
up again by another run or by single steps.  None of this can be seen in what
the machine has computed: it is what the same number of cycles give in a row
when nobody interferes.

The invariant is `Reaches`: wherever a sequence of calls has come to, the
machine agrees with the undisturbed one after as many cycles.  Calls may be
carried out in any order, so it is proved for one cycle, then for the loop of a
run, and then for a list of calls.
-/

/-- What can be asked of a machine from outside. -/
inductive Call where
  | step
  | run (budget : Option Int)
  | stop
deriving DecidableEq, Repr

/-- Carries out a call and counts its cycles.  A run looks at no more than
`fuel` cycles. -/
def Call.perform (wiring : Wiring) (fuel : Nat) (machine : Machine) : Call → Progress
  | .step =>
    match cycle wiring machine with
    | .ok _ after => .returned (if machine.halted then 0 else 1) after
    | .error fault after => .faulted fault 0 after
  | .run budget => machine.run wiring budget fuel
  | .stop => .returned 0 machine.stop

/-- Carries out calls one after the other until one fails, and counts the cycles
of all. -/
def perform (wiring : Wiring) (fuel : Nat) : List Call → Nat → Machine → Progress
  | [], executed, machine => .returned executed machine
  | call :: rest, executed, machine =>
    match call.perform wiring fuel machine with
    | .returned count after => perform wiring fuel rest (executed + count) after
    | .faulted fault count after => .faulted fault (executed + count) after
    | .unfinished count after => .unfinished (executed + count) after

/-- A machine has computed what so many undisturbed cycles compute in a row, all
of which succeed. -/
structure Reaches (wiring : Wiring) (start : Machine) (count : Nat) (machine : Machine) :
    Prop where
  succeed : ∀ earlier < count,
    (start.after wiring.undisturbed earlier).succeeds wiring.undisturbed = true
  cycles : machine.cycles = start.cycles + count
  agrees : machine.Agrees (start.after wiring.undisturbed count)

/-- A machine has failed in the cycle after so many undisturbed ones. -/
structure Fails (wiring : Wiring) (start : Machine) (fault : Fault) (count : Nat)
    (machine : Machine) : Prop where
  succeed : ∀ earlier < count,
    (start.after wiring.undisturbed earlier).succeeds wiring.undisturbed = true
  fails : ∃ failed,
    cycle wiring.undisturbed (start.after wiring.undisturbed count) = .error fault failed ∧
      machine.Agrees failed

/-- What has come of calls, after so many cycles executed before them, is what
comes of as many undisturbed cycles in a row.  Calls that have not come to an
end are at least on their way. -/
def Progress.Undisturbed (wiring : Wiring) (start : Machine) (before : Nat) : Progress → Prop
  | .returned executed machine => Reaches wiring start (executed + before) machine
  | .unfinished executed machine => Reaches wiring start (executed + before) machine
  | .faulted fault executed machine => Fails wiring start fault (executed + before) machine

namespace Reaches

variable {wiring : Wiring} {start machine after : Machine} {count : Nat}

theorem refl (wiring : Wiring) (start : Machine) : Reaches wiring start 0 start where
  succeed := fun _ impossible => absurd impossible (Nat.not_lt_zero _)
  cycles := rfl
  agrees := Agrees.refl start

theorem aside (reaches : Reaches wiring start count machine) (running : Bool)
    (journal : Journal) : Reaches wiring start count { machine with running, journal } :=
  ⟨reaches.succeed, reaches.cycles, reaches.agrees.aside running journal⟩

/-- A cycle that succeeds is the next of the undisturbed ones. -/
theorem cycle_ok (reaches : Reaches wiring start count machine)
    (running : machine.halted = false) {alive : Bool}
    (ok : cycle wiring machine = .ok alive after) :
    Reaches wiring start (count + 1) after := by
  rcases reaches.agrees.cycle_ok ok with ⟨follower, follower_eq, agrees⟩
  have next_eq : start.after wiring.undisturbed (count + 1) = follower := by
    simp only [Machine.after, next, follower_eq]
  constructor
  · intro earlier bound
    rcases Nat.lt_succ_iff_lt_or_eq.mp bound with before | same
    · exact reaches.succeed earlier before
    · subst same
      simp only [succeeds, follower_eq]
  · rw [cycles_of_cycle_eq_ok running ok, reaches.cycles]
    rfl
  · exact next_eq ▸ agrees

/-- A cycle that fails does so in the undisturbed row as well. -/
theorem cycle_error (reaches : Reaches wiring start count machine)
    (takes : ∀ index, (wiring.device index).fails = false) {fault : Fault}
    (failed : cycle wiring machine = .error fault after) :
    Fails wiring start fault count after where
  succeed := reaches.succeed
  fails := by
    refine reaches.agrees.cycle_error failed ?_
    intro emission
    simp only [refuses, takes, Bool.and_false]

/-- The loop of a run: wherever it ends, and for whatever reason, it has only
executed cycles. -/
theorem drive_undisturbed (takes : ∀ index, (wiring.device index).fails = false)
    (budget : Option Int) {fuel executed before : Nat}
    (reaches : Reaches wiring start (executed + before) machine) :
    (machine.drive wiring budget fuel executed).Undisturbed wiring start before := by
  induction fuel generalizing executed machine with
  | zero =>
      unfold drive
      split
      · exact reaches
      · exact reaches.aside false _
  | succ fuel inductionHypothesis =>
      unfold drive
      split
      · rename_i goesOn
        have running : machine.halted = false := by
          simp only [Machine.goesOn, Bool.and_eq_true, Bool.not_eq_true'] at goesOn
          exact goesOn.1.2
        cases ended : cycle wiring machine with
        | ok alive after =>
            have reached := reaches.cycle_ok running ended
            rw [Nat.add_right_comm] at reached
            exact inductionHypothesis reached
        | error fault after =>
            have failed := reaches.cycle_error takes ended
            rcases failed.fails with ⟨follower, follower_eq, agrees⟩
            exact ⟨failed.succeed, follower, follower_eq, agrees.aside false after.journal⟩
      · exact reaches.aside false _

theorem call_undisturbed (takes : ∀ index, (wiring.device index).fails = false) (fuel : Nat)
    (call : Call) (reaches : Reaches wiring start count machine) :
    (call.perform wiring fuel machine).Undisturbed wiring start count := by
  cases call with
  | stop =>
      simp only [Call.perform, Progress.Undisturbed, Nat.zero_add]
      exact reaches.aside false machine.journal
  | run budget =>
      have started := reaches.aside true machine.journal
      rw [← Nat.zero_add count] at started
      exact drive_undisturbed takes budget started
  | step =>
      unfold Call.perform
      cases ended : cycle wiring machine with
      | error fault after =>
          simp only [Progress.Undisturbed, Nat.zero_add]
          exact reaches.cycle_error takes ended
      | ok alive after =>
          cases halted : machine.halted with
          | false =>
              simp only [Progress.Undisturbed, Bool.false_eq_true, if_false, Nat.add_comm 1]
              exact reaches.cycle_ok halted ended
          | true =>
              rw [cycle_of_halted wiring machine halted] at ended
              cases ended
              simpa only [Progress.Undisturbed, if_true, Nat.zero_add] using reaches

theorem perform_undisturbed (takes : ∀ index, (wiring.device index).fails = false) (fuel : Nat)
    (calls : List Call) (reaches : Reaches wiring start count machine) :
    (perform wiring fuel calls count machine).Undisturbed wiring start 0 := by
  induction calls generalizing count machine with
  | nil => exact reaches
  | cons call rest inductionHypothesis =>
      have performed := call_undisturbed takes fuel call reaches
      unfold perform
      cases ended : call.perform wiring fuel machine with
      | returned executed after =>
          rw [ended, Progress.Undisturbed, Nat.add_comm] at performed
          exact inductionHypothesis performed
      | unfinished executed after =>
          rw [ended, Progress.Undisturbed, Nat.add_comm] at performed
          exact performed
      | faulted fault executed after =>
          rw [ended, Progress.Undisturbed, Nat.add_comm] at performed
          exact performed

end Reaches

/-- However a sequence of runs, steps and stops slices the work of a machine,
and whatever pauses its device asks for: once the calls have executed a number
of cycles, the machine has computed what the same number of cycles in a row
compute under a device that never asks.  When the calls end in a fault, the next
of those cycles has the same fault and leaves the same behind. -/
theorem perform_eq_undisturbed (table : InstructionTable) (strict : Bool) (stops : Nat → Bool)
    (fuel : Nat) (calls : List Call) (start : Machine) :
    let wiring : Wiring := { table, strict, device := fun index => { stops := stops index } }
    (perform wiring fuel calls 0 start).Undisturbed wiring start 0 :=
  (Reaches.refl _ start).perform_undisturbed (fun _ => rfl) fuel calls

end Machine
end EightBit
