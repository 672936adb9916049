import EightBit.Proofs.LifeCycle
import EightBit.Proofs.MemoryHistory
import EightBit.Proofs.Recording
import EightBit.Proofs.Writing

namespace EightBit

/-!
# A reset plays a run again

A reset brings back everything that decides what a machine is going to do, but for the
memory.  If a run stores nothing that is not there already, then the same run after a reset
does the same: it answers the same, emits the same values, records the same entries, and
comes to the same registers, status, cycles and memory.

The two runs do not start from the same machine.  Values have been emitted, entries
recorded and notes made by the first one.  `Abreast` leaves these aside, and each cycle
keeps it and adds the same value and the same entry on both sides.  Only the device could
tell the runs apart, since it counts the values that it was given, so it has to be one that
never asks for anything.
-/

/-- What is connected never asks for a pause and never fails. -/
def Wiring.Silent (wiring : Wiring) : Prop :=
  ∀ index, wiring.device index = {}

/-- Writing a byte where it is already changes nothing. -/
theorem Memory.eq_of_store {memory after : Memory} {address value : Int}
    (stores : memory.store address value = .ok after)
    (present : memory.byteAt? address = some (Byte.ofInt value)) : after = memory := by
  apply snapshot_injective
  apply List.ext_getElem?
  intro index
  rw [getElem?_snapshot, getElem?_snapshot]
  grind

namespace Machine

/-- Two machines that are going to do the same, whatever they have emitted, recorded and
noted before. -/
structure Abreast (machine other : Machine) : Prop where
  registers : machine.registers = other.registers
  memory : machine.memory = other.memory
  status : machine.status = other.status
  running : machine.running = other.running
  cycles : machine.cycles = other.cycles

/-- Two runs that have come equally far, with machines that are abreast. -/
inductive Progress.Abreast : Progress → Progress → Prop where
  | returned (executed : Nat) {machine other : Machine} (abreast : machine.Abreast other) :
      Abreast (.returned executed machine) (.returned executed other)
  | faulted (fault : Fault) (executed : Nat) {machine other : Machine}
      (abreast : machine.Abreast other) :
      Abreast (.faulted fault executed machine) (.faulted fault executed other)
  | unfinished (executed : Nat) {machine other : Machine} (abreast : machine.Abreast other) :
      Abreast (.unfinished executed machine) (.unfinished executed other)

/-- The next cycle stores no byte, or one that is there already. -/
def StoresNothingNew (wiring : Wiring) (machine : Machine) : Prop :=
  ∀ entry ∈ machine.stores? wiring, machine.memory.byteAt? entry.1 = some entry.2

instance (wiring : Wiring) (machine : Machine) : Decidable (machine.StoresNothingNew wiring) :=
  inferInstanceAs (Decidable (∀ entry ∈ _, _))

variable {wiring : Wiring} {machine other : Machine}

/-!
## One cycle
-/

theorem refuses_of_silent (silent : wiring.Silent) (emission : Option Int) :
    machine.refuses wiring.device emission = false := by
  simp [refuses, silent _]

namespace Abreast

theorem halted_eq (abreast : machine.Abreast other) : machine.halted = other.halted := by
  rw [halted, halted, abreast.status]

theorem goesOn_eq (abreast : machine.Abreast other) (budget : Option Int) (executed : Nat) :
    machine.goesOn budget executed = other.goesOn budget executed := by
  rw [goesOn, goesOn, abreast.running, abreast.halted_eq]

theorem plan_eq (abreast : machine.Abreast other) (wiring : Wiring) :
    machine.plan wiring = other.plan wiring := by
  rw [plan, plan, abreast.registers, abreast.memory]

theorem aside (abreast : machine.Abreast other) (running : Bool) (journal noted : Journal) :
    Abreast { machine with running, journal } { other with running, journal := noted } :=
  ⟨abreast.registers, abreast.memory, abreast.status, rfl, abreast.cycles⟩

theorem leftFailed (abreast : machine.Abreast other) (failure : Failure)
    (journal noted : Journal) :
    (machine.leftFailed failure journal).Abreast (other.leftFailed failure noted) :=
  ⟨rfl, abreast.memory, abreast.status, abreast.running, abreast.cycles⟩

theorem left (abreast : machine.Abreast other) (silent : wiring.Silent)
    (effect : Effect) (journal noted : Journal) :
    (machine.left wiring.device effect journal).Abreast
      (other.left wiring.device effect noted) where
  registers := rfl
  memory := rfl
  status := by simp [abreast.status]
  running := by
    have calm : ∀ index, (wiring.device index).stops = false := fun index => by
      rw [silent index]
    simp only [Machine.left, machine.delivered_running calm, other.delivered_running calm,
      abreast.running]
  cycles := by simp [abreast.cycles]

theorem settle (abreast : machine.Abreast other) (commit : Commit) :
    (machine.settle commit).Abreast (other.settle commit) where
  registers := by simp [abreast.registers]
  memory := abreast.memory
  status := by simp [abreast.status]
  running := abreast.running
  cycles := by simp [abreast.cycles]

theorem trap (abreast : machine.Abreast other) (fault : Fault) :
    (machine.trap fault).Abreast (other.trap fault) where
  registers := abreast.registers
  memory := abreast.memory
  status := by simp [abreast.status]
  running := abreast.running
  cycles := by simp [abreast.cycles]

/-- What a device is given comes with the same flag, address and number of cycles. -/
theorem delivered_eq (abreast : machine.Abreast other) (device : Nat → Reply)
    (value : Option Int) :
    (machine.delivered device value).emissions[machine.emissions.size]? =
      (other.delivered device value).emissions[other.emissions.size]? := by
  cases value with
  | none => simp only [delivered, Array.getElem?_size]
  | some value =>
      simp only [delivered, emitted, Array.getElem?_push_size, abreast.running,
        abreast.registers, abreast.cycles]

/-- The next cycles of machines that are abreast end alike, and emit the same. -/
theorem next (abreast : machine.Abreast other) (silent : wiring.Silent) :
    (machine.next wiring).Abreast (other.next wiring) ∧
      machine.fault? wiring = other.fault? wiring ∧
      machine.emission? wiring = other.emission? wiring := by
  unfold emission? Machine.next fault?
  cases halted : machine.halted with
  | true =>
      have otherHalted := abreast.halted_eq.symm.trans halted
      rw [cycle_of_halted wiring machine halted, cycle_of_halted wiring other otherHalted]
      exact ⟨abreast, rfl, by simp only [Array.getElem?_size]⟩
  | false =>
      have otherRunning := abreast.halted_eq.symm.trans halted
      rcases cycle_eq wiring machine halted with ⟨journal, ended⟩
      rcases cycle_eq wiring other otherRunning with ⟨noted, otherEnded⟩
      rw [ended, otherEnded, ← abreast.plan_eq wiring]
      cases machine.plan wiring with
      | error failure =>
          refine ⟨(abreast.leftFailed failure journal noted).trap failure.fault, rfl, ?_⟩
          exact abreast.delivered_eq wiring.device none
      | ok plan =>
          simp only [cycled, refuses_of_silent silent, Bool.false_eq_true, if_false]
          refine ⟨(abreast.left silent plan.effect journal noted).settle plan.commit, trivial, ?_⟩
          exact abreast.delivered_eq wiring.device plan.effect.emission

/-- Either both cycles succeed, or both fail with the same fault. -/
theorem cycle_cases (abreast : machine.Abreast other) (silent : wiring.Silent) :
    (∃ alive otherAlive after follower, cycle wiring machine = .ok alive after ∧
      cycle wiring other = .ok otherAlive follower ∧ after.Abreast follower) ∨
    ∃ fault after follower, cycle wiring machine = .error fault after ∧
      cycle wiring other = .error fault follower ∧ after.Abreast follower := by
  rcases abreast.next silent with ⟨later, faults, _⟩
  unfold Machine.next at later
  unfold fault? at faults
  cases ended : cycle wiring machine with
  | ok alive after =>
      cases otherEnded : cycle wiring other with
      | ok otherAlive follower =>
          rw [ended, otherEnded] at later
          exact Or.inl ⟨alive, otherAlive, after, follower, rfl, rfl, later⟩
      | error fault follower => simp [ended, otherEnded] at faults
  | error fault after =>
      cases otherEnded : cycle wiring other with
      | ok otherAlive follower => simp [ended, otherEnded] at faults
      | error otherFault follower =>
          rw [ended, otherEnded] at later faults
          cases faults
          exact Or.inr ⟨fault, after, follower, rfl, rfl, later⟩

theorem succeeds_eq (abreast : machine.Abreast other)
    (silent : wiring.Silent) :
    machine.succeeds wiring = other.succeeds wiring := by
  rw [Machine.succeeds_eq, Machine.succeeds_eq, (abreast.next silent).2.1]

theorem entry_eq (abreast : machine.Abreast other)
    (silent : wiring.Silent) :
    machine.entry wiring = other.entry wiring := by
  have later := (abreast.next silent).1
  simp only [entry, abreast.registers, abreast.memory, later.registers, later.halted_eq]

/-!
## Whole runs
-/

theorem after (abreast : machine.Abreast other) (silent : wiring.Silent)
    (count : Nat) : (machine.after wiring count).Abreast (other.after wiring count) := by
  induction count with
  | zero => exact abreast
  | succ count inductionHypothesis => exact (inductionHypothesis.next silent).1

theorem drive (abreast : machine.Abreast other) (silent : wiring.Silent)
    (budget : Option Int) (fuel executed : Nat) :
    (machine.drive wiring budget fuel executed).Abreast
      (other.drive wiring budget fuel executed) := by
  induction fuel generalizing executed machine other with
  | zero =>
      unfold Machine.drive
      rw [abreast.goesOn_eq]
      split
      · exact .unfinished executed abreast
      · exact .returned executed (abreast.aside false _ _)
  | succ fuel inductionHypothesis =>
      cases goesOn : machine.goesOn budget executed with
      | false =>
          rw [drive_of_stays goesOn, drive_of_stays ((abreast.goesOn_eq _ _).symm.trans goesOn)]
          exact .returned executed (abreast.aside false _ _)
      | true =>
          have otherGoesOn := (abreast.goesOn_eq budget executed).symm.trans goesOn
          rcases abreast.cycle_cases silent with
            ⟨_, _, after, follower, ended, otherEnded, later⟩ |
              ⟨fault, after, follower, ended, otherEnded, later⟩
          · rw [drive_of_cycle_eq_ok goesOn ended, drive_of_cycle_eq_ok otherGoesOn otherEnded]
            exact inductionHypothesis later (executed + 1)
          · rw [drive_of_cycle_eq_error goesOn ended,
              drive_of_cycle_eq_error otherGoesOn otherEnded]
            exact .faulted fault executed (later.aside false after.journal follower.journal)

theorem run (abreast : machine.started.Abreast other.started)
    (silent : wiring.Silent) (budget : Option Int) (fuel : Nat) :
    (machine.run wiring budget fuel).Abreast (other.run wiring budget fuel) :=
  abreast.drive silent budget fuel 0

end Abreast

namespace Progress.Abreast

variable {first again : Progress}

theorem answer_eq (abreast : first.Abreast again) :
    Answer.ofProgress first = Answer.ofProgress again := by
  cases abreast <;> rfl

theorem begun_eq (abreast : first.Abreast again) : first.begun = again.begun := by
  cases abreast <;> rfl

theorem machine_abreast (abreast : first.Abreast again) :
    first.machine.Abreast again.machine := by
  cases abreast <;> assumption

end Progress.Abreast

/-!
## What a run adds to output and trace
-/

/-- What so many cycles in a row emit. -/
def emittedIn (wiring : Wiring) (machine : Machine) (count : Nat) : List Emission :=
  (List.range count).filterMap fun time => (machine.after wiring time).emission? wiring

/-- What is recorded of so many cycles in a row.  Nothing is of those that fail. -/
def recordedIn (wiring : Wiring) (machine : Machine) (count : Nat) : List TraceEntry :=
  ((List.range count).filter fun time => (machine.after wiring time).succeeds wiring).map
    fun time => (machine.after wiring time).entry wiring

theorem begun_events_run (wiring : Wiring) (budget : Option Int) (fuel : Nat)
    (machine : Machine) :
    begun ((Action.request (.call (.run budget))).events wiring fuel machine) =
      (List.range (machine.run wiring budget fuel).begun).map (machine.started.after wiring) := by
  simp only [begun, Action.events, List.filterMap_map]
  rw [← List.filterMap_eq_map]
  rfl

theorem emissions_run (wiring : Wiring) (budget : Option Int) (fuel : Nat) (machine : Machine) :
    (machine.run wiring budget fuel).machine.emissions.toList = machine.emissions.toList ++
      machine.started.emittedIn wiring (machine.run wiring budget fuel).begun := by
  rw [(leads_of_run budget fuel).emissions, begun_events_run, List.filterMap_map]
  rfl

theorem trace_run (wiring : Wiring) (budget : Option Int) (fuel : Nat) (machine : Machine) :
    (machine.run wiring budget fuel).machine.trace = machine.trace.map fun trace =>
      trace.appendAll
        (machine.started.recordedIn wiring (machine.run wiring budget fuel).begun) := by
  rw [(leads_of_run budget fuel).trace, passed, begun_events_run, List.filter_map, List.map_map]
  rfl

theorem Abreast.emittedIn_eq (abreast : machine.Abreast other)
    (silent : wiring.Silent) (count : Nat) :
    machine.emittedIn wiring count = other.emittedIn wiring count := by
  unfold emittedIn
  congr 1
  funext time
  exact ((abreast.after silent time).next silent).2.2

theorem Abreast.recordedIn_eq (abreast : machine.Abreast other)
    (silent : wiring.Silent) (count : Nat) :
    machine.recordedIn wiring count = other.recordedIn wiring count := by
  have later := fun time => abreast.after silent time
  simp only [recordedIn, fun time => (later time).succeeds_eq silent,
    fun time => (later time).entry_eq silent]

/-!
## The memory of a run that stores nothing new
-/

theorem StoresNothingNew.memory_next (nothingNew : machine.StoresNothingNew wiring) :
    (machine.next wiring).memory = machine.memory := by
  rcases Machine.memory_next wiring machine with ⟨_, memory⟩ | ⟨address, value, stored, stores⟩
  · exact memory
  · exact Memory.eq_of_store stores (nothingNew (address, Byte.ofInt value) stored)

theorem memory_after_of_storesNothingNew {count : Nat}
    (nothingNew : ∀ time < count, (machine.after wiring time).StoresNothingNew wiring) :
    (machine.after wiring count).memory = machine.memory := by
  induction count with
  | zero => rfl
  | succ count inductionHypothesis =>
      have last := (nothingNew count (Nat.lt_succ_self count)).memory_next
      exact last.trans (inductionHypothesis fun time before =>
        nothingNew time (Nat.lt_succ_of_lt before))

theorem memory_run_of_storesNothingNew {budget : Option Int} {fuel : Nat}
    (nothingNew : ∀ time < (machine.run wiring budget fuel).begun,
      (machine.started.after wiring time).StoresNothingNew wiring) :
    (machine.run wiring budget fuel).machine.memory = machine.memory := by
  rcases run_eq_after wiring budget fuel machine with ⟨running, journal, reached⟩
  rw [reached]
  exact memory_after_of_storesNothingNew nothingNew

/-- A machine that is new, or has just been reset, runs.  If it stores no byte that is not
there already, then the same run after a reset gives the same answer, comes to the same
registers, status, cycles and memory, and adds the same to output and trace. -/
theorem reset_replays (silent : wiring.Silent) (budget : Option Int)
    (fuel : Nat) (registers : machine.registers = .powerOn) (status : machine.status = .running)
    (cycles : machine.cycles = 0)
    (nothingNew : ∀ time < (machine.run wiring budget fuel).begun,
      (machine.started.after wiring time).StoresNothingNew wiring) :
    let first := machine.run wiring budget fuel
    let again := first.machine.reset.run wiring budget fuel
    Answer.ofProgress again = Answer.ofProgress first ∧
      again.machine.registers = first.machine.registers ∧
      again.machine.status = first.machine.status ∧
      again.machine.cycles = first.machine.cycles ∧
      again.machine.memory = first.machine.memory ∧
      ∃ emissions entries,
        first.machine.emissions.toList = machine.emissions.toList ++ emissions ∧
        again.machine.emissions.toList = first.machine.emissions.toList ++ emissions ∧
        first.machine.trace = machine.trace.map (fun trace => trace.appendAll entries) ∧
        again.machine.trace = first.machine.trace.map fun trace => trace.appendAll entries := by
  intro first again
  have memory := memory_run_of_storesNothingNew nothingNew
  have start : machine.started.Abreast first.machine.reset.started :=
    ⟨registers, memory.symm, status, rfl, cycles⟩
  have runs : first.Abreast again := start.run silent budget fuel
  have reached := runs.machine_abreast
  refine ⟨runs.answer_eq.symm, reached.registers.symm, reached.status.symm, reached.cycles.symm,
    reached.memory.symm, machine.started.emittedIn wiring first.begun,
    machine.started.recordedIn wiring first.begun, emissions_run wiring budget fuel machine, ?_,
    trace_run wiring budget fuel machine, ?_⟩
  · rw [start.emittedIn_eq silent, runs.begun_eq]
    exact emissions_run wiring budget fuel first.machine.reset
  · rw [start.recordedIn_eq silent, runs.begun_eq]
    exact trace_run wiring budget fuel first.machine.reset

/-- A machine that pushes a zero onto a cell that holds one, prints the stack pointer, and
then prints a register there is none of. -/
def pushesZero : Machine where
  memory := ⟨#[0x04, 7, 12, 0x0A, 0, 0x06, 7, 0x06, 9, 0, 0, 0], by decide⟩
  trace := some (.empty 2 (by decide))

/-- Both runs store the zero and trap in the fourth cycle.  The trace has room for two of the
three entries that each of them adds. -/
theorem reset_replays_pushesZero :
    let first := pushesZero.run {} none 9
    let again := first.machine.reset.run {} none 9
    (pushesZero.started.after {} 1).stores? {} = some (11, 0) ∧
      Answer.ofProgress first = .failed (.register ⟨9⟩) ∧
      Answer.ofProgress again = .failed (.register ⟨9⟩) ∧
      again.machine.memory = first.machine.memory ∧ again.machine.cycles = 4 ∧
      again.machine.values = [11, 11] := by
  intro first again
  have nothingNew : ∀ time < first.begun,
      (pushesZero.started.after {} time).StoresNothingNew {} := by
    decide +kernel
  have failed : Answer.ofProgress first = .failed (.register ⟨9⟩) := by
    decide +kernel
  have worked : first.machine.cycles = 4 := by
    decide +kernel
  rcases @reset_replays {} pushesZero (fun _ => rfl) none 9 rfl rfl rfl nothingNew with
    ⟨answers, _, _, cycles, memory, _⟩
  refine ⟨by decide +kernel, failed, answers.trans failed, memory, cycles.trans worked, ?_⟩
  decide +kernel

end Machine
end EightBit
