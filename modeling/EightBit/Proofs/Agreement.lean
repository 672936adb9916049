import EightBit.Proofs.Cycle

namespace EightBit
namespace Machine

/-!
# Machines that agree

Two machines are alike when they have the same registers, memory, status and
trace.  Their next cycles then have the same plan.  They agree when they have
also counted the same cycles and emitted the same values.  Whether a run is
under way, what the device saw beside the values, and the journals do not
matter.

A cycle keeps agreement, whatever is connected to the two machines, as long as
no device fails.
-/

/-- Two machines that differ at most in counters, output and journal. -/
structure Alike (machine other : Machine) : Prop where
  registers : machine.registers = other.registers
  memory : machine.memory = other.memory
  status : machine.status = other.status
  trace : machine.trace = other.trace

/-- Two machines that have computed the same. -/
structure Agrees (machine other : Machine) : Prop extends Alike machine other where
  cycles : machine.cycles = other.cycles
  values : machine.values = other.values

variable {machine other : Machine}

/-- An effect leaves machines alike that differed at most where it writes. -/
theorem left_alike (device plain : Nat → Reply) (effect : Effect) (journal noted : Journal)
    (status : machine.status = other.status) (trace : machine.trace = other.trace) :
    (machine.left device effect journal).Alike (other.left plain effect noted) where
  registers := rfl
  memory := rfl
  status := by simp [status]
  trace := by simp [trace]

namespace Alike

theorem halted_eq (alike : machine.Alike other) : machine.halted = other.halted := by
  simp only [halted, alike.status]

theorem plan_eq (alike : machine.Alike other) {wiring plain : Wiring}
    (table : wiring.table = plain.table) (strict : wiring.strict = plain.strict) :
    machine.plan wiring = other.plan plain := by
  simp only [plan, alike.registers, alike.memory, table, strict]

theorem leftFailed (alike : machine.Alike other) (failure : Failure) (journal noted : Journal) :
    (machine.leftFailed failure journal).Alike (other.leftFailed failure noted) :=
  ⟨rfl, alike.memory, alike.status, alike.trace⟩

theorem settle (alike : machine.Alike other) (commit : Commit) :
    (machine.settle commit).Alike (other.settle commit) where
  registers := by simp [alike.registers]
  memory := alike.memory
  status := by simp [alike.status]
  trace := by
    simp only [Machine.settle, record, halted, alike.registers, alike.status, alike.trace]

theorem trap (alike : machine.Alike other) (fault : Fault) :
    (machine.trap fault).Alike (other.trap fault) where
  registers := alike.registers
  memory := alike.memory
  status := by simp [alike.status]
  trace := alike.trace

end Alike

namespace Agrees

theorem refl (machine : Machine) : machine.Agrees machine :=
  ⟨⟨rfl, rfl, rfl, rfl⟩, rfl, rfl⟩

/-- Whether a run is under way, and the journal, are not among what a machine
computes. -/
theorem aside (agrees : machine.Agrees other) (running : Bool) (journal : Journal) :
    Agrees { machine with running, journal } other :=
  ⟨⟨agrees.registers, agrees.memory, agrees.status, agrees.trace⟩, agrees.cycles, agrees.values⟩

theorem left (agrees : machine.Agrees other) (device plain : Nat → Reply) (effect : Effect)
    (journal noted : Journal) :
    (machine.left device effect journal).Agrees (other.left plain effect noted) where
  toAlike := left_alike device plain effect journal noted agrees.status agrees.trace
  cycles := by simp [agrees.cycles]
  values := by simp [agrees.values]

theorem leftFailed (agrees : machine.Agrees other) (failure : Failure)
    (journal noted : Journal) :
    (machine.leftFailed failure journal).Agrees (other.leftFailed failure noted) :=
  ⟨agrees.toAlike.leftFailed failure journal noted, agrees.cycles, agrees.values⟩

theorem settle (agrees : machine.Agrees other) (commit : Commit) :
    (machine.settle commit).Agrees (other.settle commit) :=
  ⟨agrees.toAlike.settle commit, congrArg (· + 1) agrees.cycles, agrees.values⟩

theorem trap (agrees : machine.Agrees other) (fault : Fault) :
    (machine.trap fault).Agrees (other.trap fault) :=
  ⟨agrees.toAlike.trap fault, congrArg (· + 1) agrees.cycles, agrees.values⟩

end Agrees

end Machine

/-- The same table and strictness, connected to a device that takes every value
and never asks for anything. -/
def Wiring.undisturbed (wiring : Wiring) : Wiring :=
  { wiring with device := fun _ => {} }

namespace Machine

variable {wiring : Wiring} {machine other after : Machine}

theorem refuses_undisturbed (wiring : Wiring) (machine : Machine) (emission : Option Int) :
    machine.refuses wiring.undisturbed.device emission = false := by
  simp [refuses, Wiring.undisturbed]

/-- A machine that agrees follows a cycle that succeeds. -/
theorem Agrees.cycle_ok (agrees : machine.Agrees other) {alive : Bool}
    (ok : cycle wiring machine = .ok alive after) :
    ∃ follower, cycle wiring.undisturbed other = .ok alive follower ∧ after.Agrees follower := by
  cases halted : machine.halted with
  | true =>
      rw [cycle_of_halted wiring machine halted] at ok
      cases ok
      refine ⟨other, ?_, agrees⟩
      exact cycle_of_halted _ other (agrees.halted_eq ▸ halted)
  | false =>
      rcases cycle_eq_ok halted ok with ⟨plan, journal, planned, _, after_eq, alive_eq⟩
      have planned' : other.plan wiring.undisturbed = .ok plan :=
        (agrees.plan_eq rfl rfl).symm.trans planned
      rcases cycle_of_taken wiring.undisturbed (agrees.halted_eq ▸ halted) planned'
          (refuses_undisturbed wiring other plan.effect.emission) with
        ⟨noted, cycle_eq⟩
      have following : after.Agrees
          ((other.left wiring.undisturbed.device plan.effect noted).settle plan.commit) :=
        after_eq ▸ (agrees.left wiring.device _ plan.effect journal noted).settle plan.commit
      refine ⟨_, ?_, following⟩
      rw [cycle_eq, alive_eq, following.halted_eq]

/-- A machine that agrees follows a cycle that traps. -/
theorem Agrees.cycle_error (agrees : machine.Agrees other) {fault : Fault}
    (failed : cycle wiring machine = .error fault after)
    (accepted : ∀ emission, machine.refuses wiring.device emission = false) :
    ∃ follower, cycle wiring.undisturbed other = .error fault follower ∧
      after.Agrees follower := by
  cases halted : machine.halted with
  | true =>
      rw [cycle_of_halted wiring machine halted] at failed
      cases failed
  | false =>
      rcases cycle_eq_error failed with
        ⟨failure, journal, planned, fault_eq, after_eq⟩ | ⟨plan, _, _, refused, _⟩
      · have planned' : other.plan wiring.undisturbed = .error failure :=
          (agrees.plan_eq rfl rfl).symm.trans planned
        rcases cycle_of_failure wiring.undisturbed (agrees.halted_eq ▸ halted) planned' with
          ⟨noted, cycle_eq⟩
        subst fault_eq after_eq
        refine ⟨_, cycle_eq, ?_⟩
        exact (agrees.leftFailed failure journal noted).trap failure.fault
      · exact absurd (accepted plan.effect.emission) (by simp [refused])

end Machine

namespace Machine

variable {machine other : Machine}

/-!
## Under the same wiring

Devices count the values that they were given.  Machines that agree have given as many, so
a device answers both in the same way, whether it takes a value or refuses it.
-/

namespace Agrees

theorem size_eq (agrees : machine.Agrees other) :
    machine.emissions.size = other.emissions.size := by
  rw [← length_values, ← length_values, agrees.values]

theorem refuses_eq (agrees : machine.Agrees other) (device : Nat → Reply)
    (emission : Option Int) : machine.refuses device emission = other.refuses device emission := by
  rw [refuses, refuses, agrees.size_eq]

/-- The next cycles of machines that agree end alike. -/
theorem next (agrees : machine.Agrees other) (wiring : Wiring) :
    (machine.next wiring).Agrees (other.next wiring) ∧
      machine.fault? wiring = other.fault? wiring := by
  cases halted : machine.halted with
  | true =>
      have otherHalted := agrees.halted_eq.symm.trans halted
      unfold Machine.next fault?
      rw [cycle_of_halted wiring machine halted, cycle_of_halted wiring other otherHalted]
      exact ⟨agrees, rfl⟩
  | false =>
      have otherRunning := agrees.halted_eq.symm.trans halted
      have plan_eq : machine.plan wiring = other.plan wiring := agrees.plan_eq rfl rfl
      rcases cycle_eq wiring machine halted with ⟨journal, ended⟩
      rcases cycle_eq wiring other otherRunning with ⟨noted, otherEnded⟩
      unfold Machine.next fault?
      rw [ended, otherEnded, ← plan_eq]
      cases machine.plan wiring with
      | error failure =>
          exact ⟨(agrees.leftFailed failure journal noted).trap failure.fault, rfl⟩
      | ok plan =>
          have left := agrees.left wiring.device wiring.device plan.effect journal noted
          simp only [cycled, agrees.refuses_eq wiring.device plan.effect.emission]
          cases other.refuses wiring.device plan.effect.emission with
          | true => exact ⟨left.trap .output, rfl⟩
          | false => exact ⟨left.settle plan.commit, rfl⟩

theorem after (agrees : machine.Agrees other) (wiring : Wiring) (count : Nat) :
    (machine.after wiring count).Agrees (other.after wiring count) := by
  induction count with
  | zero => exact agrees
  | succ count inductionHypothesis => exact (inductionHypothesis.next wiring).1

theorem fault?_eq (agrees : machine.Agrees other) (wiring : Wiring) :
    machine.fault? wiring = other.fault? wiring :=
  (agrees.next wiring).2

end Agrees

end Machine
end EightBit
