import EightBit.Proofs.Ending
import EightBit.Proofs.Recording
import EightBit.Proofs.Stack

namespace EightBit

/-!
# What conditional jumps go by

The equal flag is set by comparisons and by nothing else, so a conditional jump is decided
by the last comparison before it, however long ago that was and whatever has become of its
registers since.  A comparison that fails sets nothing, and neither does a cycle that is
repeated because the device has failed.

`equalFlag_next` says this of one cycle, and the history of the flag follows by induction on
the number of cycles.  What a jump makes of the flag is told by `goesTo_of_jump`: where the
next cycle goes on, if it goes on, as a function of its operand and of whether the jump is
taken.  The two conditional jumps are compared by putting the opcode of either where the
machine is going to fetch.
-/

open Effect

def Condition.opcode : Condition → Opcode
  | .always => .jmp
  | .ifEqual => .jeq
  | .ifNotEqual => .jne

/-- A jump reads its operand, and names a register only if it is taken. -/
theorem Operation.effect_jump {registers : Registers} {memory : Memory} {operand : UInt8}
    (condition : Condition)
    (read : memory.byteAt? (registers.programCounter + 1) = some operand) :
    (Operation.jump condition).effect registers memory =
      if condition.holds registers.equalFlag then
        match registers.get (Byte.toInt operand) with
        | .ok target => .ok { registers, memory, outcome := { next := target } }
        | .error error => .error ⟨.register error, registers, rfl⟩
      else .ok (goOn registers memory 2) := by
  have accessed := (operandAt_eq_ok_iff registers memory 1 _).mpr ⟨operand, read, rfl⟩
  simp only [Operation.effect, accessed, Bind.bind, Except.bind]
  cases condition.holds registers.equalFlag with
  | false => rfl
  | true =>
      simp only [if_true, readFrom]
      cases registers.get (Byte.toInt operand) <;> rfl

namespace Machine

/-- The next cycle succeeds in comparing two registers. -/
structure Compares (wiring : Wiring) (machine : Machine) (first second : Fin 8) : Prop where
  succeeds : machine.succeeds wiring = true
  executes : machine.executes wiring = some (.alu .cmp)
  first : machine.named? 1 = some first
  second : machine.named? 2 = some second

/-- The last of the next cycles to succeed in a comparison. -/
structure LastCompares (wiring : Wiring) (machine : Machine) (count time : Nat)
    (first second : Fin 8) : Prop where
  within : time < count
  compares : (machine.after wiring time).Compares wiring first second
  last : ∀ later < count, time < later → ∀ other another,
    ¬ (machine.after wiring later).Compares wiring other another

/-- None of the next cycles from a time on succeeds in a comparison. -/
def NoneCompares (wiring : Wiring) (machine : Machine) (start count : Nat) : Prop :=
  ∀ time < count, start ≤ time → ∀ first second,
    ¬ (machine.after wiring time).Compares wiring first second

variable {wiring : Wiring} {machine : Machine}

/-!
## The history of the flag
-/

/-- What a cycle makes of the flag, however it ends. -/
theorem equalFlag_next (wiring : Wiring) (bounded : machine.registers.Bounded) :
    (∃ first second, machine.Compares wiring first second ∧
      ((machine.next wiring).registers.equalFlag = true ↔
        machine.registers.cell first = machine.registers.cell second)) ∨
    ((∀ first second, ¬ machine.Compares wiring first second) ∧
      (machine.next wiring).registers.equalFlag = machine.registers.equalFlag) := by
  cases succeeds : machine.succeeds wiring with
  | false =>
      refine Or.inr ⟨fun _ _ compares => ?_, ?_⟩
      · have success := compares.succeeds
        rw [succeeds] at success
        cases success
      · rcases (fails_iff wiring machine).mp succeeds with ⟨fault, failed⟩
        rw [(left_of_cycle_eq_error failed).1]
        split <;> rfl
  | true =>
      by_cases comparison : machine.executes wiring = some (.alu .cmp)
      · rcases effect_of_succeeds succeeds comparison with ⟨held, effect, effect_eq, registers, _⟩
        rcases Operation.effect_cmp effect_eq with ⟨first, second, named, named', rfl⟩
        refine Or.inl ⟨first, second, ⟨succeeds, comparison, named, named'⟩, ?_⟩
        have left := bounded first
        have right := bounded second
        rw [← Byte.low_eq_self left.1 left.2, ← Byte.low_eq_self right.1 right.2, registers]
        exact decide_eq_true_iff
      · refine Or.inr ⟨fun _ _ compares => comparison compares.executes, ?_⟩
        rcases next_of_succeeds succeeds with
          ⟨_, _, flag, _⟩ | ⟨operation, held, effect, executed, changes, _, flag, _⟩
        · exact flag
        · rw [executed, Option.some.injEq] at comparison
          exact flag.trans (changes.equalFlag_of_ne comparison)

theorem bounded_after (wiring : Wiring) (bounded : machine.registers.Bounded) (count : Nat) :
    (machine.after wiring count).registers.Bounded := by
  induction count with
  | zero => exact bounded
  | succ count inductionHypothesis => exact bounded_next wiring inductionHypothesis

theorem equalFlag_after (wiring : Wiring) (bounded : machine.registers.Bounded) (count : Nat) :
    (∃ time first second, LastCompares wiring machine count time first second ∧
      ((machine.after wiring count).registers.equalFlag = true ↔
        (machine.after wiring time).registers.cell first =
          (machine.after wiring time).registers.cell second)) ∨
    (NoneCompares wiring machine 0 count ∧
      (machine.after wiring count).registers.equalFlag = machine.registers.equalFlag) := by
  have stays : ∀ time,
      (¬ ∃ first second, (machine.after wiring time).Compares wiring first second) →
        (machine.after wiring (time + 1)).registers.equalFlag =
          (machine.after wiring time).registers.equalFlag := by
    intro time nothing
    rcases equalFlag_next wiring (bounded_after wiring bounded time) with
      ⟨first, second, compares, _⟩ | ⟨_, kept⟩
    · exact absurd ⟨first, second, compares⟩ nothing
    · exact kept
  rcases since_last (fun time => (machine.after wiring time).registers.equalFlag) stays count with
    ⟨time, before, ⟨first, second, compares⟩, last, same⟩ | ⟨never, same⟩
  · rcases equalFlag_next wiring (bounded_after wiring bounded time) with
      ⟨one, other, compares', answer⟩ | ⟨nothing, _⟩
    · refine Or.inl ⟨time, one, other, ⟨before, compares', ?_⟩, same ▸ answer⟩
      exact fun later bound after a b again => last later bound after ⟨a, b, again⟩
    · exact absurd compares (nothing first second)
  · refine Or.inr ⟨?_, same⟩
    exact fun time bound _ first second compares => never time bound ⟨first, second, compares⟩

/-- The flag stays as long as no comparison succeeds. -/
theorem equalFlag_of_noneCompares (bounded : machine.registers.Bounded) {start count : Nat}
    (order : start ≤ count) (none : NoneCompares wiring machine start count) :
    (machine.after wiring count).registers.equalFlag =
      (machine.after wiring start).registers.equalFlag := by
  induction count, order using Nat.le_induction with
  | base => rfl
  | succ count order inductionHypothesis =>
      rcases equalFlag_next wiring (bounded_after wiring bounded count) with
        ⟨first, second, compares, _⟩ | ⟨_, kept⟩
      · exact absurd compares (none count (Nat.lt_succ_self count) order first second)
      · exact kept.trans (inductionHypothesis fun time before =>
          none time (Nat.lt_succ_of_lt before))

/-!
## Where jumps go
-/

/-- Where the next cycle goes on, or the fault in which it ends. -/
def goesTo (wiring : Wiring) (machine : Machine) : Except Fault Int :=
  match cycle wiring machine with
  | .ok _ after => .ok after.registers.programCounter
  | .error fault _ => .error fault

/-- Where a jump goes on: at the address in the register that its operand names, if it is
taken, and behind the operand if not. -/
def destination (machine : Machine) (operand : UInt8) (taken : Bool) : Except Fault Int :=
  if taken then (machine.registers.get (Byte.toInt operand)).mapError .register
  else .ok (machine.registers.programCounter + 2)

/-- The next instruction is a jump that is taken. -/
def Jumps (wiring : Wiring) (machine : Machine) : Prop :=
  ∃ condition, machine.executes wiring = some (.jump condition) ∧
    condition.holds machine.registers.equalFlag = true

theorem jumps_iff {condition : Condition}
    (executed : machine.executes wiring = some (.jump condition)) :
    machine.Jumps wiring ↔ condition.holds machine.registers.equalFlag = true := by
  constructor
  · rintro ⟨other, executed', holds⟩
    cases executed.symm.trans executed'
    exact holds
  · intro holds
    exact ⟨condition, executed, holds⟩

theorem goesTo_of_executes {operation : Operation}
    (executed : machine.executes wiring = some operation) :
    ∃ held, machine.goesTo wiring =
      match operation.effect { machine.registers with instructionRegister := held }
        machine.memory with
      | .ok effect =>
        if machine.refuses wiring.device effect.emission then .error .output
        else .ok effect.outcome.next
      | .error failure => .error failure.fault := by
  rcases executes_eq_some_iff.mp executed with ⟨running, opcode, instruction, fetched, found, rfl⟩
  rcases cycle_eq wiring machine running with ⟨journal, cycle_eq⟩
  have loaded := (loadAt_eq_ok_iff machine.registers machine.memory _ opcode).mpr fetched
  refine ⟨Byte.toInt opcode, ?_⟩
  rw [goesTo, cycle_eq]
  simp only [plan, InstructionTable.plan, loaded, found, Bind.bind, Except.bind]
  cases instruction.operation.effect
      { machine.registers with instructionRegister := Byte.toInt opcode } machine.memory with
  | error failure => rfl
  | ok effect =>
      simp only [cycled, pure, Except.pure]
      cases machine.refuses wiring.device effect.emission <;> rfl

theorem goesTo_of_jump {condition : Condition} {operand : UInt8}
    (executed : machine.executes wiring = some (.jump condition))
    (read : machine.memory.byteAt? (machine.registers.programCounter + 1) = some operand) :
    machine.goesTo wiring =
      machine.destination operand (condition.holds machine.registers.equalFlag) := by
  rcases goesTo_of_executes executed with ⟨held, goes⟩
  let fetched := { machine.registers with instructionRegister := held }
  have inside : machine.memory.byteAt? (fetched.programCounter + 1) = some operand := read
  have jumped := Operation.effect_jump condition inside
  have same : fetched.get (Byte.toInt operand) = machine.registers.get (Byte.toInt operand) := rfl
  rw [goes, jumped, destination, same]
  cases condition.holds machine.registers.equalFlag with
  | false => rfl
  | true => cases machine.registers.get (Byte.toInt operand) <;> rfl

/-!
## The two conditional jumps
-/

/-- The machine with the opcode of a jump put where the next cycle fetches, and with the
flag set. -/
def branching (machine : Machine) (condition : Condition) (equal : Bool) : Machine :=
  let opcode := Byte.toInt condition.opcode.byte
  { machine with
    memory := (machine.memory.store machine.registers.programCounter opcode).toOption.getD
      machine.memory
    registers := { machine.registers with equalFlag := equal } }

theorem find?_opcode (condition : Condition) :
    (InstructionTable.standard.find? condition.opcode.byte).map Instruction.operation =
      some (.jump condition) := by
  cases condition <;> decide +kernel

/-- The next instruction is the jump that was put there, and its operand is the one that was
there before. -/
theorem executes_branching (standard : wiring.table = .standard)
    (running : machine.halted = false)
    (inside : machine.memory.Contains machine.registers.programCounter) (condition : Condition)
    (equal : Bool) :
    (machine.branching condition equal).executes wiring = some (.jump condition) ∧
      (machine.branching condition equal).memory.byteAt?
          (machine.registers.programCounter + 1) =
        machine.memory.byteAt? (machine.registers.programCounter + 1) := by
  rcases Memory.store_of_contains inside (Byte.toInt condition.opcode.byte) with ⟨stored, stores⟩
  have memory_eq : (machine.branching condition equal).memory = stored := by
    simp only [branching, stores, Except.toOption, Option.getD_some]
  have cells := Memory.byteAt?_store stores
  rw [memory_eq]
  constructor
  · rcases Option.map_eq_some_iff.mp (find?_opcode condition) with
      ⟨instruction, found, operation_eq⟩
    refine executes_eq_some_iff.mpr ⟨running, _, instruction, ?_, standard ▸ found, operation_eq⟩
    rw [memory_eq]
    exact (cells _).trans ((if_pos rfl).trans (congrArg some (Byte.ofInt_toInt _)))
  · exact (cells _).trans (if_neg (by omega))

/-- Wherever a machine is about to execute a jump, the flag decides between the two
conditional ones: exactly one of them would be taken.  Whichever it is goes on at the
address in the same register, and whichever is not taken goes on behind the operand. -/
structure Branches (wiring : Wiring) (machine : Machine) (condition : Condition)
    (operand : UInt8) : Prop where
  goes : machine.goesTo wiring =
    machine.destination operand (condition.holds machine.registers.equalFlag)
  either : ∀ other equal, (machine.branching other equal).goesTo wiring =
    machine.destination operand (other.holds equal)
  ifEqual : (machine.branching .ifEqual machine.registers.equalFlag).Jumps wiring ↔
    machine.registers.equalFlag = true
  ifNotEqual : (machine.branching .ifNotEqual machine.registers.equalFlag).Jumps wiring ↔
    ¬ (machine.branching .ifEqual machine.registers.equalFlag).Jumps wiring

theorem branches (standard : wiring.table = .standard) {condition : Condition} {operand : UInt8}
    (executed : machine.executes wiring = some (.jump condition))
    (read : machine.memory.byteAt? (machine.registers.programCounter + 1) = some operand) :
    machine.Branches wiring condition operand := by
  rcases executes_eq_some_iff.mp executed with ⟨running, opcode, _, fetched, _, _⟩
  have inside := Memory.contains_of_byteAt? fetched
  have replaced := executes_branching standard running inside
  have jumps : ∀ other,
      (machine.branching other machine.registers.equalFlag).Jumps wiring ↔
        other.holds machine.registers.equalFlag = true :=
    fun other => jumps_iff (replaced other _).1
  constructor
  · exact goesTo_of_jump executed read
  · intro other equal
    exact goesTo_of_jump (replaced other equal).1 ((replaced other equal).2.trans read)
  · exact jumps .ifEqual
  · rw [jumps, jumps]
    cases machine.registers.equalFlag <;> decide

/-!
## Runs
-/

/-- What the flag and the jumps of a machine have to do with the comparisons among the cycles
that were executed from another one on. -/
structure Remembers (wiring : Wiring) (machine : Machine) (count : Nat) (final : Machine) :
    Prop where
  history :
    (∃ time first second, LastCompares wiring machine count time first second ∧
      (final.registers.equalFlag = true ↔
        (machine.after wiring time).registers.cell first =
          (machine.after wiring time).registers.cell second)) ∨
    (NoneCompares wiring machine 0 count ∧
      final.registers.equalFlag = machine.registers.equalFlag)
  undisturbed : ∀ start ≤ count, NoneCompares wiring machine start count →
    ∀ condition : Condition, condition.holds final.registers.equalFlag =
      condition.holds (machine.after wiring start).registers.equalFlag
  branches : ∀ condition operand, final.executes wiring = some (.jump condition) →
    final.memory.byteAt? (final.registers.programCounter + 1) = some operand →
    final.Branches wiring condition operand

theorem after_remembers (standard : wiring.table = .standard)
    (bounded : machine.registers.Bounded) (count : Nat) :
    Remembers wiring machine count (machine.after wiring count) where
  history := equalFlag_after wiring bounded count
  undisturbed := by
    intro start order none condition
    rw [equalFlag_of_noneCompares bounded order none]
  branches := fun _ _ => Machine.branches standard

/-- Whatever cycles are executed, in a row or by a run, and however each of them ends, the
flag remembers the last comparison that has succeeded, and conditional jumps go by it. -/
theorem flag_remembers (standard : wiring.table = .standard)
    (bounded : machine.registers.Bounded) :
    (∀ count, Remembers wiring machine count (machine.after wiring count)) ∧
    ∀ budget fuel, Remembers wiring machine.started (machine.run wiring budget fuel).begun
      (machine.run wiring budget fuel).machine := by
  refine ⟨after_remembers standard bounded, ?_⟩
  intro budget fuel
  have begins : machine.started.registers.Bounded := bounded
  have reached := after_remembers standard begins (machine.run wiring budget fuel).begun
  rcases run_eq_after wiring budget fuel machine with ⟨running, journal, final_eq⟩
  rw [final_eq]
  exact ⟨reached.history, reached.undisturbed, fun _ _ => Machine.branches standard⟩

/-- A machine that compares two registers, overwrites the first of them, prints, and then
jumps if they were equal. -/
def forgetsCompared : Machine where
  memory := ⟨#[0x16, 0, 1, 0x04, 0, 9, 0x06, 2, 0x13, 3], by decide⟩
  registers := { general := #v[5, 5, 0, 0, 0, 0, 0, 0] }

/-- The device fails at the first value, so the print is executed twice.  By then the
registers differ, but the jump is taken all the same, and its opposite would not be. -/
theorem flag_remembers_forgetsCompared :
    let wiring : Wiring := { device := fun index => { fails := index = 0 } }
    let final := forgetsCompared.after wiring 4
    Remembers wiring forgetsCompared 4 final ∧
      final.registers.cell 0 ≠ final.registers.cell 1 ∧
      final.goesTo wiring = .ok 0 ∧
      (final.branching .ifNotEqual true).goesTo wiring = .ok 10 := by
  intro wiring final
  have remembers : Remembers wiring forgetsCompared 4 final :=
    (flag_remembers rfl (by decide)).1 4
  have jump := remembers.branches .ifEqual 3 (by decide +kernel) (by decide +kernel)
  refine ⟨remembers, by decide +kernel, jump.goes.trans ?_, (jump.either _ _).trans ?_⟩
  · decide +kernel
  · decide +kernel

end Machine
end EightBit
