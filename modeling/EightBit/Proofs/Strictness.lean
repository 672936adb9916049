import EightBit.Proofs.Ending

namespace EightBit

/-!
# Strict and lenient machines

A strict machine refuses a byte that has no instruction; a lenient one halts on it.
As long as no such byte is fetched the two cannot be told apart: their cycles are
the same computation, down to the journal.  At the first such byte they part, by
different ways out of the cycle, and still come to the same machine but for the
entry that the lenient one records.

Neither of them ever fetches a second one, since both have halted.  So a run is
settled by the first cycle that fetches one, and the two statements on `drive` are
proved by induction on its fuel, with the cycle that is looked for getting nearer.
-/

def Wiring.withStrict (wiring : Wiring) (strict : Bool) : Wiring :=
  { wiring with strict }

namespace Machine

/-- The byte without instruction that the next cycle fetches, if it fetches one. -/
def undefinedByte? (table : InstructionTable) (machine : Machine) : Option UInt8 :=
  if machine.halted then none
  else
    (machine.memory.byteAt? machine.registers.programCounter).filter fun opcode =>
      (table.find? opcode).isNone

/-- What a machine records of a cycle that has halted on a byte without instruction. -/
def illegalEntry (machine : Machine) (address : Int) (opcode : UInt8) : TraceEntry where
  pc := address
  opcode := some opcode
  mnemonic := ""
  registers := machine.registers.general.toList.map Byte.ofInt
  equal := machine.registers.equalFlag
  halted := true
  note := "illegal"

/-- A lenient machine that has halted on a byte without instruction, beside a strict
one that has refused it. -/
structure Parted (address : Int) (opcode : UInt8) (lenient strict : Machine) : Prop where
  registers : lenient.registers = strict.registers
  programCounter : strict.registers.programCounter = address
  instructionRegister : strict.registers.instructionRegister = Byte.toInt opcode
  memory : lenient.memory = strict.memory
  emissions : lenient.emissions = strict.emissions
  lenientStatus : lenient.status = .halted
  strictStatus : strict.status = .halted
  cycles : lenient.cycles = strict.cycles
  trace : lenient.trace =
    strict.trace.map fun trace => trace.append (strict.illegalEntry address opcode)

variable {wiring : Wiring} {machine : Machine} {opcode : UInt8}

theorem undefinedByte?_eq_some_iff (table : InstructionTable) (machine : Machine)
    (opcode : UInt8) :
    machine.undefinedByte? table = some opcode ↔
      machine.halted = false ∧
        machine.memory.byteAt? machine.registers.programCounter = some opcode ∧
        table.find? opcode = none := by
  unfold undefinedByte?
  cases machine.halted <;> simp

/-!
## One cycle
-/

/-- Strictness is asked for only when a byte has no instruction. -/
theorem cycle_strict_eq (defined : machine.undefinedByte? wiring.table = none) :
    cycle (wiring.withStrict true) machine =
      cycle (wiring.withStrict false) machine := by
  cases halted : machine.halted with
  | true => rw [cycle_of_halted _ machine halted, cycle_of_halted _ machine halted]
  | false =>
      have same : attempt (wiring.withStrict true) machine =
          attempt (wiring.withStrict false) machine := by
        simp only [Wiring.withStrict, attempt, bind, EStateM.bind, get_eq, loadByte_eq,
          modifyRegisters_eq]
        cases fetched : machine.memory.load machine.registers.programCounter with
        | error error => rfl
        | ok opcode =>
            have found : machine.memory.byteAt? machine.registers.programCounter = some opcode :=
              (Memory.load_eq_ok_iff machine.memory _ opcode).mp fetched
            cases decoded : wiring.table.find? opcode with
            | some instruction => simp only [decoded]
            | none =>
                have undefined := (undefinedByte?_eq_some_iff wiring.table machine opcode).mpr
                  ⟨halted, found, decoded⟩
                rw [defined] at undefined
                cases undefined
      simp only [cycle, same]

/-- On a byte without instruction the lenient cycle succeeds and the strict one fails,
and what they leave differs in the recorded entry. -/
theorem parted_of_undefined (undefined : machine.undefinedByte? wiring.table = some opcode) :
    ∃ final trapped, cycle (wiring.withStrict false) machine = .ok false final ∧
      cycle (wiring.withStrict true) machine =
        .error (.illegalOpcode opcode machine.registers.programCounter) trapped ∧
      Parted machine.registers.programCounter opcode final trapped := by
  rcases (undefinedByte?_eq_some_iff wiring.table machine opcode).mp undefined with
    ⟨running, fetched, missing⟩
  have lenient := InstructionTable.plan_of_missing false fetched missing
  have strict := InstructionTable.plan_of_missing true fetched missing
  rcases cycle_of_taken (wiring.withStrict false) running lenient rfl with
    ⟨journal, halts⟩
  rcases cycle_of_failure (wiring.withStrict true) running strict with ⟨noted, fails⟩
  refine ⟨_, _, halts, fails, rfl, rfl, rfl, rfl, rfl, rfl, rfl, rfl, ?_⟩
  simp only [settle, record, Trace.record, Option.map_some, Byte.ofInt_toInt]
  rfl

theorem Parted.ended {address : Int} {final trapped : Machine}
    (parted : Parted address opcode final trapped) (executed : Nat) :
    Parted address opcode (final.conclude executed) trapped.stop :=
  ⟨parted.registers, parted.programCounter, parted.instructionRegister, parted.memory,
    parted.emissions, parted.lenientStatus, parted.strictStatus, parted.cycles, parted.trace⟩

/-!
## Runs
-/

variable {budget : Option Int} {executed : Nat}

/-- A run that fetches a byte without instruction is at its end. -/
theorem drive_of_undefined (goesOn : machine.goesOn budget executed = true)
    (undefined : machine.undefinedByte? wiring.table = some opcode) (fuel : Nat) :
    ∃ final trapped,
      machine.drive (wiring.withStrict false) budget (fuel + 1) executed =
        .returned (executed + 1) final ∧
      machine.drive (wiring.withStrict true) budget (fuel + 1) executed =
        .faulted (.illegalOpcode opcode machine.registers.programCounter) executed trapped ∧
      Parted machine.registers.programCounter opcode final trapped := by
  rcases parted_of_undefined undefined with ⟨final, trapped, halts, fails, parted⟩
  have halted : final.halted = true := by simp [Machine.halted, parted.lenientStatus]
  refine ⟨final.conclude (executed + 1), trapped.stop, ?_, ?_, parted.ended (executed + 1)⟩
  · rw [drive_of_cycle_eq_ok goesOn halts, drive_of_halted halted]
  · exact drive_of_cycle_eq_error goesOn fails fuel

theorem drive_strict_eq {fuel : Nat}
    (defined : ∀ time,
      executed + time < (machine.drive (wiring.withStrict false) budget fuel executed).begun →
      (machine.after (wiring.withStrict false) time).undefinedByte? wiring.table = none) :
    machine.drive (wiring.withStrict true) budget fuel executed =
      machine.drive (wiring.withStrict false) budget fuel executed := by
  induction fuel generalizing executed machine with
  | zero => rfl
  | succ fuel inductionHypothesis =>
      cases goesOn : machine.goesOn budget executed with
      | false => rw [drive_of_stays goesOn, drive_of_stays goesOn]
      | true =>
          cases ended : cycle (wiring.withStrict false) machine with
          | error fault after =>
              have lenient := drive_of_cycle_eq_error goesOn ended fuel
              have first : machine.undefinedByte? wiring.table = none :=
                defined 0 (lenient ▸ Nat.lt_succ_self executed)
              rw [lenient]
              exact drive_of_cycle_eq_error goesOn ((cycle_strict_eq first).trans ended) fuel
          | ok alive after =>
              have lenient := drive_of_cycle_eq_ok goesOn ended fuel
              have next_eq : machine.next (wiring.withStrict false) = after := by
                rw [next, ended]
              have first : machine.undefinedByte? wiring.table = none :=
                defined 0 (lenient ▸ executed_le_begun _ budget after fuel (executed + 1))
              rw [lenient, drive_of_cycle_eq_ok goesOn ((cycle_strict_eq first).trans ended)]
              apply inductionHypothesis
              intro time bound
              rw [← next_eq, ← after_next]
              apply defined (time + 1)
              rw [lenient]
              omega

/-- The cycle that fetches a byte without instruction is the last of the run.  An
earlier one has fetched none, as the run would have been at its end there. -/
theorem drive_parted {fuel time : Nat}
    (bound : executed + time <
      (machine.drive (wiring.withStrict false) budget fuel executed).begun)
    (undefined :
      (machine.after (wiring.withStrict false) time).undefinedByte? wiring.table = some opcode) :
    let address := (machine.after (wiring.withStrict false) time).registers.programCounter
    ∃ final trapped,
      machine.drive (wiring.withStrict false) budget fuel executed =
        .returned (executed + time + 1) final ∧
      machine.drive (wiring.withStrict true) budget fuel executed =
        .faulted (.illegalOpcode opcode address) (executed + time) trapped ∧
      Parted address opcode final trapped := by
  induction fuel generalizing executed machine time with
  | zero =>
      unfold drive at bound
      split at bound <;> exact absurd bound (Nat.not_lt.mpr (Nat.le_add_right executed time))
  | succ fuel inductionHypothesis =>
      cases goesOn : machine.goesOn budget executed with
      | false =>
          rw [drive_of_stays goesOn] at bound
          exact absurd bound (Nat.not_lt.mpr (Nat.le_add_right executed time))
      | true =>
          cases time with
          | zero => exact drive_of_undefined goesOn undefined fuel
          | succ time =>
              have first : machine.undefinedByte? wiring.table = none := by
                cases fetched : machine.undefinedByte? wiring.table with
                | none => rfl
                | some other =>
                    rcases drive_of_undefined goesOn fetched fuel with ⟨_, _, returned, _⟩
                    rw [returned] at bound
                    simp only [Progress.begun] at bound
                    omega
              cases ended : cycle (wiring.withStrict false) machine with
              | error fault after =>
                  rw [drive_of_cycle_eq_error goesOn ended] at bound
                  simp only [Progress.begun] at bound
                  omega
              | ok alive after =>
                  have next_eq : machine.next (wiring.withStrict false) = after := by
                    rw [next, ended]
                  have shift : executed + 1 + time = executed + (time + 1) := by omega
                  rw [drive_of_cycle_eq_ok goesOn ended, ← shift] at bound
                  rw [after_next, next_eq] at undefined
                  have parted := inductionHypothesis bound undefined
                  rwa [shift, ← next_eq, ← after_next, next_eq,
                    ← drive_of_cycle_eq_ok goesOn ended,
                    ← drive_of_cycle_eq_ok goesOn ((cycle_strict_eq first).trans ended)] at parted

/-- A lenient run that fetches no byte without instruction is the run of the strict
machine.  If one of its cycles fetches one, both runs end in that cycle. -/
theorem run_strict (wiring : Wiring) (budget : Option Int) (fuel : Nat) (machine : Machine) :
    let lenient := machine.run (wiring.withStrict false) budget fuel
    let strict := machine.run (wiring.withStrict true) budget fuel
    let before := machine.started.after (wiring.withStrict false)
    ((∀ time < lenient.begun, (before time).undefinedByte? wiring.table = none) →
      strict = lenient) ∧
    ∀ time < lenient.begun, ∀ opcode,
      (before time).undefinedByte? wiring.table = some opcode →
        let address := (before time).registers.programCounter
        ∃ final trapped, lenient = .returned (time + 1) final ∧
          strict = .faulted (.illegalOpcode opcode address) time trapped ∧
          Parted address opcode final trapped := by
  intro lenient strict before
  constructor
  · intro defined
    apply drive_strict_eq
    intro time bound
    exact defined time (Nat.zero_add time ▸ bound)
  · intro time bound opcode undefined
    have parted := drive_parted ((Nat.zero_add time).symm ▸ bound) undefined
    rwa [Nat.zero_add] at parted

/-- A machine that increments a register and then finds a byte without instruction. -/
def incrementsOnce : Machine where
  memory := ⟨#[0x17, 0, 0xFF], by decide⟩
  trace := some (.empty 4 (by decide))

/-- With a budget for the increment alone the byte is not fetched. -/
theorem run_strict_incrementsOnce :
    let lenient := Wiring.withStrict {} false
    let strict := Wiring.withStrict {} true
    incrementsOnce.run strict (some 1) 9 = incrementsOnce.run lenient (some 1) 9 ∧
      ∃ final trapped, incrementsOnce.run lenient none 9 = .returned 2 final ∧
        incrementsOnce.run strict none 9 = .faulted (.illegalOpcode 0xFF 2) 1 trapped ∧
        Parted 2 0xFF final trapped := by
  intro lenient strict
  constructor
  · exact (run_strict {} (some 1) 9 incrementsOnce).1 (by decide +kernel)
  · have address : (incrementsOnce.started.after lenient 1).registers.programCounter = 2 := by
      decide +kernel
    have parted := (run_strict {} none 9 incrementsOnce).2 1 (by decide +kernel) 0xFF
      (by decide +kernel)
    exact address ▸ parted

end Machine
end EightBit
