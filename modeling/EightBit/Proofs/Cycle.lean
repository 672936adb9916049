import EightBit.Proofs.Changes
import EightBit.Proofs.Execution

namespace EightBit

/-!
# Cycles told by what they read

What a cycle does is decided by the registers and the memory, by the table and
by whether the machine is strict.  This is its plan.  A plan is either refused,
with a failure, or carried out: the device is given its value, registers and
memory become those of its effect, and the cycle is settled.

The main statement is `Machine.cycle_eq`.  Beside it stand the two ways to read
it backwards, from a cycle that succeeded and from one that failed, and the
machines that follow each other when cycles are executed in a row.
-/

open Effect

/-- What a cycle is going to do: what it commits at its end, and the effect of
its operation. -/
structure Plan where
  commit : Machine.Commit
  effect : Effect
deriving DecidableEq

def Machine.Outcome.commit (outcome : Machine.Outcome) (pc : Int) (opcode : UInt8)
    (mnemonic : String) : Machine.Commit :=
  { pc, opcode, mnemonic, next := outcome.next, halts := outcome.halts }

/-- The plan of a cycle.  The fetched byte is in the instruction register before
anything else happens. -/
def InstructionTable.plan (table : InstructionTable) (strict : Bool) (registers : Registers)
    (memory : Memory) : Except Failure Plan := do
  let pc := registers.programCounter
  let opcode ← loadAt registers memory pc
  let fetched := { registers with instructionRegister := Byte.toInt opcode }
  match table.find? opcode with
  | some instruction =>
    let effect ← instruction.operation.effect fetched memory
    return { commit := effect.outcome.commit pc opcode instruction.mnemonic, effect }
  | none =>
    if strict then .error ⟨.illegalOpcode opcode pc, fetched, rfl⟩
    else
      let commit := { pc, opcode, mnemonic := "", next := pc, halts := true, remark := "illegal" }
      return { commit, effect := ⟨fetched, memory, none, ⟨pc, true⟩⟩ }

namespace InstructionTable

variable {table : InstructionTable} {strict : Bool} {registers : Registers} {memory : Memory}
  {plan : Plan}

/-- The plan of a cycle that fetches a byte without instruction. -/
theorem plan_of_missing {opcode : UInt8} (strict : Bool)
    (fetched : memory.byteAt? registers.programCounter = some opcode)
    (missing : table.find? opcode = none) :
    let address := registers.programCounter
    let held := { registers with instructionRegister := Byte.toInt opcode }
    table.plan strict registers memory =
      if strict then .error ⟨.illegalOpcode opcode address, held, rfl⟩
      else .ok ⟨⟨address, opcode, "", address, true, "illegal"⟩,
        ⟨held, memory, none, ⟨address, true⟩⟩⟩ := by
  have loaded := (loadAt_eq_ok_iff registers memory registers.programCounter opcode).mpr fetched
  simp only [InstructionTable.plan, loaded, Bind.bind, Except.bind, missing]
  rfl

/-- The plan of a cycle whose instruction succeeds. -/
theorem plan_of_effect {opcode : UInt8} {instruction : Instruction} {effect : Effect}
    (strict : Bool) (fetched : memory.byteAt? registers.programCounter = some opcode)
    (found : table.find? opcode = some instruction)
    (executed : instruction.operation.effect
      { registers with instructionRegister := Byte.toInt opcode } memory = .ok effect) :
    table.plan strict registers memory =
      .ok ⟨effect.outcome.commit registers.programCounter opcode instruction.mnemonic, effect⟩ := by
  have loaded := (loadAt_eq_ok_iff registers memory registers.programCounter opcode).mpr fetched
  simp only [InstructionTable.plan, loaded, Bind.bind, Except.bind, found, executed]
  rfl

/-- A plan that is not refused has fetched a byte, and either executes its
instruction or, on a machine that is not strict, halts in place. -/
theorem plan_eq_ok (planned : table.plan strict registers memory = .ok plan) :
    ∃ opcode, memory.byteAt? registers.programCounter = some opcode ∧
      let fetched := { registers with instructionRegister := Byte.toInt opcode }
      (∃ instruction, table.find? opcode = some instruction ∧
        instruction.operation.effect fetched memory = .ok plan.effect ∧
        plan.commit = plan.effect.outcome.commit registers.programCounter opcode
          instruction.mnemonic) ∨
      (table.find? opcode = none ∧ strict = false ∧
        plan.effect = ⟨fetched, memory, none, ⟨registers.programCounter, true⟩⟩ ∧
        plan.commit = ⟨registers.programCounter, opcode, "", registers.programCounter, true,
          "illegal"⟩) := by
  simp only [InstructionTable.plan, bind_eq_ok_iff, loadAt_eq_ok_iff] at planned
  rcases planned with ⟨opcode, fetched, planned⟩
  refine ⟨opcode, fetched, ?_⟩
  cases found : table.find? opcode with
  | some instruction =>
      simp only [found, bind_eq_ok_iff, pure_eq_ok_iff] at planned
      rcases planned with ⟨effect, executed, rfl⟩
      exact Or.inl ⟨instruction, rfl, executed, rfl⟩
  | none =>
      cases strict with
      | true => simp [found] at planned
      | false =>
          simp only [found, Bool.false_eq_true, if_false, pure_eq_ok_iff] at planned
          subst planned
          exact Or.inr ⟨rfl, rfl, rfl, rfl⟩

/-- A plan that is refused has found no byte to fetch, or the instruction of the
byte fails, or the byte has none and the machine is strict. -/
theorem plan_eq_error {failure : Failure}
    (planned : table.plan strict registers memory = .error failure) :
    (memory.byteAt? registers.programCounter = none ∧
      failure.fault = .address ⟨registers.programCounter, memory.length⟩ ∧
      failure.registers = registers) ∨
    ∃ opcode, memory.byteAt? registers.programCounter = some opcode ∧
      let fetched := { registers with instructionRegister := Byte.toInt opcode }
      (∃ instruction, table.find? opcode = some instruction ∧
        instruction.operation.effect fetched memory = .error failure) ∨
      (table.find? opcode = none ∧ strict = true ∧
        failure.fault = .illegalOpcode opcode registers.programCounter ∧
        failure.registers = fetched) := by
  cases fetched : memory.byteAt? registers.programCounter with
  | none =>
      have missing := (Memory.byteAt?_eq_none_iff memory _).mp fetched
      have refused := (Memory.load_eq_error_iff memory _ _).mpr ⟨missing, rfl⟩
      simp only [InstructionTable.plan, loadAt, refused, Bind.bind, Except.bind,
        Except.error.injEq] at planned
      subst planned
      exact Or.inl ⟨rfl, rfl, rfl⟩
  | some opcode =>
      refine Or.inr ⟨opcode, rfl, ?_⟩
      have loaded := (loadAt_eq_ok_iff registers memory _ opcode).mpr fetched
      simp only [InstructionTable.plan, loaded, Bind.bind, Except.bind] at planned
      cases found : table.find? opcode with
      | some instruction =>
          simp only [found] at planned
          cases executed : instruction.operation.effect
              { registers with instructionRegister := Byte.toInt opcode } memory with
          | ok effect =>
              rw [executed] at planned
              cases planned
          | error cause =>
              rw [executed] at planned
              cases planned
              exact Or.inl ⟨instruction, rfl, executed⟩
      | none =>
          simp only [found] at planned
          cases strict with
          | false => cases planned
          | true =>
              cases planned
              exact Or.inr ⟨rfl, rfl, rfl, rfl⟩

/-- A cycle has a plan if there is a byte to fetch and its instruction succeeds, or
if there is no instruction and the machine is not strict. -/
theorem plan_defined {opcode : UInt8}
    (fetched : memory.byteAt? registers.programCounter = some opcode)
    (executes : ∀ instruction, table.find? opcode = some instruction →
      ∃ effect, instruction.operation.effect
        { registers with instructionRegister := Byte.toInt opcode } memory = .ok effect)
    (lenient : table.find? opcode = none → strict = false) :
    ∃ plan, table.plan strict registers memory = .ok plan := by
  have loaded := (loadAt_eq_ok_iff registers memory _ opcode).mpr fetched
  cases found : table.find? opcode with
  | some instruction =>
      rcases executes instruction found with ⟨effect, executed⟩
      simp only [InstructionTable.plan, loaded, Bind.bind, Except.bind, found, executed]
      exact ⟨_, rfl⟩
  | none =>
      simp only [InstructionTable.plan, loaded, Bind.bind, Except.bind, found, lenient found]
      exact ⟨_, rfl⟩

/-- What the instruction register held before does not matter once a byte has
been fetched. -/
theorem plan_eq_ok_of_fetched (held : Int)
    (planned : table.plan strict registers memory = .ok plan) :
    table.plan strict { registers with instructionRegister := held } memory = .ok plan := by
  rcases plan_eq_ok planned with ⟨opcode, fetched, _⟩
  have loaded := (loadAt_eq_ok_iff registers memory _ opcode).mpr fetched
  have loaded' := (loadAt_eq_ok_iff { registers with instructionRegister := held } memory _
    opcode).mpr fetched
  rw [← planned]
  simp only [InstructionTable.plan, loaded, loaded', Bind.bind, Except.bind]

/-- A cycle that has a value for the device does nothing else but fetch. -/
theorem plan_of_emission {value : Int} (planned : table.plan strict registers memory = .ok plan)
    (emitted : plan.effect.emission = some value) :
    plan.effect.registers =
        { registers with instructionRegister := Byte.toInt plan.commit.opcode } ∧
      plan.effect.memory = memory := by
  rcases plan_eq_ok planned with
    ⟨opcode, _, ⟨instruction, _, executed, commit_eq⟩ | ⟨_, _, effect_eq, _⟩⟩
  · rw [commit_eq]
    exact (Operation.effect_of_emission executed emitted).2
  · rw [effect_eq] at emitted
    cases emitted

end InstructionTable

namespace Machine

def plan (wiring : Wiring) (machine : Machine) : Except Failure Plan :=
  wiring.table.plan wiring.strict machine.registers machine.memory

/-- How an attempt ends that has the given plan. -/
def attempted (machine : Machine) (wiring : Wiring) (journal : Journal) :
    Except Failure Plan → EStateM.Result Fault Machine Commit
  | .error failure => .error failure.fault (machine.leftFailed failure journal)
  | .ok plan =>
    if machine.refuses wiring.device plan.effect.emission then
      .error .output (machine.left wiring.device plan.effect journal)
    else .ok plan.commit (machine.left wiring.device plan.effect journal)

/-- How a cycle ends that has the given plan. -/
def cycled (machine : Machine) (wiring : Wiring) (journal : Journal) :
    Except Failure Plan → EStateM.Result Fault Machine Bool
  | .error failure =>
    .error failure.fault ((machine.leftFailed failure journal).trap failure.fault)
  | .ok plan =>
    let left := machine.left wiring.device plan.effect journal
    if machine.refuses wiring.device plan.effect.emission then .error .output (left.trap .output)
    else .ok (!(left.settle plan.commit).halted) (left.settle plan.commit)

theorem attempt_eq (wiring : Wiring) (machine : Machine) :
    ∃ journal, attempt wiring machine = machine.attempted wiring journal (machine.plan wiring) := by
  rcases machine.reads_loadByte machine.registers.programCounter with ⟨journal, load_eq⟩
  simp only [plan, InstructionTable.plan, attempt, Bind.bind, EStateM.bind, Except.bind, get_eq,
    load_eq]
  cases loadAt machine.registers machine.memory machine.registers.programCounter with
  | error failure => exact ⟨journal, rfl⟩
  | ok opcode =>
      cases found : wiring.table.find? opcode with
      | none =>
          simp only [modifyRegisters_eq, found]
          cases wiring.strict <;> exact ⟨_, rfl⟩
      | some instruction =>
          let fetched := { machine.registers with instructionRegister := Byte.toInt opcode }
          rcases execute_eq
            { machine with
              registers := fetched
              journal := journal.add
                (.fetched machine.registers.programCounter opcode instruction.mnemonic) }
            wiring.device instruction.operation with ⟨noted, executed⟩
          rw [machine.answer_eq wiring.device fetched _ rfl] at executed
          refine ⟨noted, ?_⟩
          simp only [modifyRegisters_eq, found, EStateM.bind, note_eq]
          rw [executed]
          cases instruction.operation.effect fetched machine.memory with
          | error failure => rfl
          | ok effect =>
              simp only [answer, attempted, pure, Except.pure]
              cases machine.refuses wiring.device effect.emission <;> rfl

/-- A cycle of a machine that has not halted carries out its plan. -/
theorem cycle_eq (wiring : Wiring) (machine : Machine) (running : machine.halted = false) :
    ∃ journal, cycle wiring machine = machine.cycled wiring journal (machine.plan wiring) := by
  rcases attempt_eq wiring machine with ⟨journal, attempt_eq⟩
  refine ⟨journal, ?_⟩
  simp only [cycle, running, attempt_eq, Bool.false_eq_true, if_false]
  cases machine.plan wiring with
  | error failure => rfl
  | ok plan =>
      simp only [attempted, cycled]
      cases machine.refuses wiring.device plan.effect.emission <;> rfl

/-- A machine that has halted stays as it is. -/
theorem cycle_of_halted (wiring : Wiring) (machine : Machine) (halted : machine.halted = true) :
    cycle wiring machine = .ok false machine := by
  simp only [cycle, halted, if_true]

/-!
## How a cycle ends

The device takes the value of the plan, if there is one, or it refuses it, or
there is no plan.
-/

theorem cycle_of_taken (wiring : Wiring) {machine : Machine} {plan : Plan}
    (running : machine.halted = false) (planned : machine.plan wiring = .ok plan)
    (taken : machine.refuses wiring.device plan.effect.emission = false) :
    ∃ journal, cycle wiring machine =
      let settled := (machine.left wiring.device plan.effect journal).settle plan.commit
      .ok (!settled.halted) settled := by
  rcases cycle_eq wiring machine running with ⟨journal, cycle_eq⟩
  refine ⟨journal, ?_⟩
  rw [cycle_eq, planned]
  simp only [cycled, taken, Bool.false_eq_true, if_false]

theorem cycle_of_refused (wiring : Wiring) {machine : Machine} {plan : Plan}
    (running : machine.halted = false) (planned : machine.plan wiring = .ok plan)
    (refused : machine.refuses wiring.device plan.effect.emission = true) :
    ∃ journal, cycle wiring machine =
      .error .output ((machine.left wiring.device plan.effect journal).trap .output) := by
  rcases cycle_eq wiring machine running with ⟨journal, cycle_eq⟩
  refine ⟨journal, ?_⟩
  rw [cycle_eq, planned]
  simp only [cycled, refused, if_true]

theorem cycle_of_failure (wiring : Wiring) {machine : Machine} {failure : Failure}
    (running : machine.halted = false) (planned : machine.plan wiring = .error failure) :
    ∃ journal, cycle wiring machine =
      .error failure.fault ((machine.leftFailed failure journal).trap failure.fault) := by
  rcases cycle_eq wiring machine running with ⟨journal, cycle_eq⟩
  refine ⟨journal, ?_⟩
  rw [cycle_eq, planned]
  rfl

/-!
## Reading a cycle backwards
-/

theorem cycle_eq_ok {wiring : Wiring} {machine after : Machine} {alive : Bool}
    (running : machine.halted = false) (ok : cycle wiring machine = .ok alive after) :
    ∃ plan journal, machine.plan wiring = .ok plan ∧
      machine.refuses wiring.device plan.effect.emission = false ∧
      after = (machine.left wiring.device plan.effect journal).settle plan.commit ∧
      alive = !after.halted := by
  rcases cycle_eq wiring machine running with ⟨journal, cycle_eq⟩
  rw [cycle_eq] at ok
  cases planned : machine.plan wiring with
  | error failure =>
      rw [planned] at ok
      cases ok
  | ok plan =>
      rw [planned] at ok
      cases refused : machine.refuses wiring.device plan.effect.emission with
      | true =>
          simp only [cycled, refused, if_true] at ok
          cases ok
      | false =>
          simp only [cycled, refused, Bool.false_eq_true, if_false] at ok
          cases ok
          exact ⟨plan, journal, rfl, refused, rfl, rfl⟩

theorem status_of_running {machine : Machine} (running : machine.halted = false) :
    machine.status = .running := by
  cases status : machine.status with
  | running => rfl
  | halted => simp [halted, status] at running

/-- Only a machine that has not halted can fail. -/
theorem running_of_cycle_eq_error {wiring : Wiring} {machine after : Machine} {fault : Fault}
    (failed : cycle wiring machine = .error fault after) : machine.halted = false := by
  cases halted : machine.halted with
  | false => rfl
  | true =>
      rw [cycle_of_halted wiring machine halted] at failed
      cases failed

theorem cycle_eq_error {wiring : Wiring} {machine after : Machine} {fault : Fault}
    (failed : cycle wiring machine = .error fault after) :
    (∃ failure journal, machine.plan wiring = .error failure ∧ fault = failure.fault ∧
      after = (machine.leftFailed failure journal).trap failure.fault) ∨
    (∃ plan journal, machine.plan wiring = .ok plan ∧
      machine.refuses wiring.device plan.effect.emission = true ∧ fault = .output ∧
      after = (machine.left wiring.device plan.effect journal).trap .output) := by
  have running := running_of_cycle_eq_error failed
  rcases cycle_eq wiring machine running with ⟨journal, cycle_eq⟩
  rw [cycle_eq] at failed
  cases planned : machine.plan wiring with
  | error failure =>
      rw [planned] at failed
      cases failed
      exact Or.inl ⟨failure, journal, rfl, rfl, rfl⟩
  | ok plan =>
      rw [planned] at failed
      cases refused : machine.refuses wiring.device plan.effect.emission with
      | false =>
          simp only [cycled, refused, Bool.false_eq_true, if_false] at failed
          cases failed
      | true =>
          simp only [cycled, refused, if_true] at failed
          cases failed
          exact Or.inr ⟨plan, journal, rfl, refused, rfl, rfl⟩

/-- A cycle that succeeds keeps the general registers bounded. -/
theorem bounded_of_cycle_eq_ok {wiring : Wiring} {machine after : Machine} {alive : Bool}
    (bounded : machine.registers.Bounded) (ok : cycle wiring machine = .ok alive after) :
    after.registers.Bounded := by
  cases halted : machine.halted with
  | true =>
      rw [cycle_of_halted wiring machine halted] at ok
      cases ok
      exact bounded
  | false =>
      rcases cycle_eq_ok halted ok with ⟨plan, journal, planned, _, rfl, _⟩
      have kept : plan.effect.registers.Bounded := by
        rcases InstructionTable.plan_eq_ok planned with
          ⟨opcode, _, ⟨instruction, _, executed, _⟩ | ⟨_, _, effect_eq, _⟩⟩
        · exact (Operation.changes_of_effect executed).bounded bounded
        · rw [effect_eq]
          exact bounded
      exact kept

/-!
## What a cycle leaves of each part of the machine
-/

/-- The values that the device was given. -/
def values (machine : Machine) : List Int :=
  machine.emissions.toList.map Emission.value

@[simp] theorem length_values (machine : Machine) :
    machine.values.length = machine.emissions.size := by
  simp [values]

section Parts

variable (machine : Machine) (device : Nat → Reply) (emission : Option Int) (effect : Effect)
  (journal : Journal) (commit : Commit) (fault : Fault)

@[simp] theorem delivered_status :
    (machine.delivered device emission).status = machine.status := by
  cases emission <;> rfl

@[simp] theorem delivered_cycles :
    (machine.delivered device emission).cycles = machine.cycles := by
  cases emission <;> rfl

@[simp] theorem delivered_trace :
    (machine.delivered device emission).trace = machine.trace := by
  cases emission <;> rfl

@[simp] theorem delivered_values :
    (machine.delivered device emission).values = machine.values ++ emission.toList := by
  cases emission with
  | none => simp [delivered]
  | some value => simp [delivered, emitted, values]

@[simp] theorem left_registers :
    (machine.left device effect journal).registers = effect.registers :=
  rfl

@[simp] theorem left_status : (machine.left device effect journal).status = machine.status :=
  machine.delivered_status device effect.emission

@[simp] theorem left_halted : (machine.left device effect journal).halted = machine.halted := by
  simp only [halted, left_status]

@[simp] theorem left_cycles : (machine.left device effect journal).cycles = machine.cycles :=
  machine.delivered_cycles device effect.emission

@[simp] theorem left_trace : (machine.left device effect journal).trace = machine.trace :=
  machine.delivered_trace device effect.emission

@[simp] theorem left_values :
    (machine.left device effect journal).values = machine.values ++ effect.emission.toList :=
  machine.delivered_values device effect.emission

@[simp] theorem settle_registers :
    (machine.settle commit).registers =
      { machine.registers with programCounter := commit.next } :=
  rfl

@[simp] theorem settle_status :
    (machine.settle commit).status = if commit.halts then .halted else machine.status :=
  rfl

@[simp] theorem settle_halted :
    (machine.settle commit).halted = (commit.halts || machine.halted) := by
  cases commit with
  | mk pc opcode mnemonic next halts remark => cases halts <;> rfl

@[simp] theorem settle_cycles : (machine.settle commit).cycles = machine.cycles + 1 :=
  rfl

@[simp] theorem settle_values : (machine.settle commit).values = machine.values :=
  rfl

@[simp] theorem trap_status :
    (machine.trap fault).status = if fault.isTrap then .halted else machine.status :=
  rfl

@[simp] theorem trap_cycles : (machine.trap fault).cycles = machine.cycles + 1 :=
  rfl

@[simp] theorem trap_trace : (machine.trap fault).trace = machine.trace :=
  rfl

@[simp] theorem trap_values : (machine.trap fault).values = machine.values :=
  rfl

end Parts

/-- A cycle of a machine that has not halted is counted, whether it succeeds or
fails. -/
theorem cycles_of_cycle_eq_ok {wiring : Wiring} {machine after : Machine} {alive : Bool}
    (running : machine.halted = false) (ok : cycle wiring machine = .ok alive after) :
    after.cycles = machine.cycles + 1 := by
  rcases cycle_eq_ok running ok with ⟨plan, journal, _, _, after_eq, _⟩
  simp [after_eq]

theorem cycles_of_cycle_eq_error {wiring : Wiring} {machine after : Machine} {fault : Fault}
    (failed : cycle wiring machine = .error fault after) : after.cycles = machine.cycles + 1 := by
  rcases cycle_eq_error failed with ⟨failure, journal, _, _, rfl⟩ | ⟨plan, journal, _, _, _, rfl⟩
  · rfl
  · simp

/-!
## Cycles in a row
-/

/-- The machine after its next cycle, which may have failed. -/
def next (wiring : Wiring) (machine : Machine) : Machine :=
  match cycle wiring machine with
  | .ok _ after => after
  | .error _ after => after

/-- Whether the next cycle succeeds.  A machine that has halted succeeds in doing
nothing. -/
def succeeds (wiring : Wiring) (machine : Machine) : Bool :=
  match cycle wiring machine with
  | .ok .. => true
  | .error .. => false

def fault? (wiring : Wiring) (machine : Machine) : Option Fault :=
  match cycle wiring machine with
  | .ok .. => none
  | .error fault _ => some fault

/-- The machine after so many cycles in a row. -/
def after (wiring : Wiring) (machine : Machine) : Nat → Machine
  | 0 => machine
  | count + 1 => (machine.after wiring count).next wiring

theorem succeeds_iff (wiring : Wiring) (machine : Machine) :
    machine.succeeds wiring = true ↔
      ∃ alive, cycle wiring machine = .ok alive (machine.next wiring) := by
  unfold succeeds next
  cases cycle wiring machine <;> simp

theorem fails_iff (wiring : Wiring) (machine : Machine) :
    machine.succeeds wiring = false ↔
      ∃ fault, cycle wiring machine = .error fault (machine.next wiring) := by
  unfold succeeds next
  cases cycle wiring machine <;> simp

theorem fault?_eq_some_iff (wiring : Wiring) (machine : Machine) (fault : Fault) :
    machine.fault? wiring = some fault ↔
      cycle wiring machine = .error fault (machine.next wiring) := by
  unfold fault? next
  cases cycle wiring machine <;> simp

theorem succeeds_eq (wiring : Wiring) (machine : Machine) :
    machine.succeeds wiring = (machine.fault? wiring).isNone := by
  unfold succeeds fault?
  cases cycle wiring machine <;> rfl

/-- The operation that the next cycle executes, if the machine has not halted and
the fetched byte has an instruction. -/
def executes (wiring : Wiring) (machine : Machine) : Option Operation :=
  if machine.halted then none
  else
    (machine.memory.byteAt? machine.registers.programCounter).bind fun opcode =>
      (wiring.table.find? opcode).map Instruction.operation

theorem executes_eq_some_iff {wiring : Wiring} {machine : Machine} {operation : Operation} :
    machine.executes wiring = some operation ↔
      machine.halted = false ∧ ∃ opcode instruction,
        machine.memory.byteAt? machine.registers.programCounter = some opcode ∧
        wiring.table.find? opcode = some instruction ∧ instruction.operation = operation := by
  unfold executes
  cases machine.halted with
  | true => simp
  | false => simp [Option.bind_eq_some_iff, Option.map_eq_some_iff]

/-- A cycle that executes an operation and succeeds has carried out its effect. -/
theorem effect_of_succeeds {wiring : Wiring} {machine : Machine} {operation : Operation}
    (succeeds : machine.succeeds wiring = true)
    (executed : machine.executes wiring = some operation) :
    ∃ held effect,
      operation.effect { machine.registers with instructionRegister := held } machine.memory =
        .ok effect ∧
      (machine.next wiring).registers =
        { effect.registers with programCounter := effect.outcome.next } ∧
      (machine.next wiring).memory = effect.memory := by
  rcases (succeeds_iff wiring machine).mp succeeds with ⟨alive, ok⟩
  rcases executes_eq_some_iff.mp executed with ⟨running, opcode, instruction, fetched, found, rfl⟩
  rcases cycle_eq_ok running ok with ⟨plan, journal, planned, _, next_eq, _⟩
  rcases InstructionTable.plan_eq_ok planned with
    ⟨other, fetched', ⟨another, found', effect_eq, commit_eq⟩ | ⟨missing, _, _, _⟩⟩
  · cases fetched.symm.trans fetched'
    cases found.symm.trans found'
    refine ⟨_, plan.effect, effect_eq, ?_, ?_⟩
    · rw [next_eq, commit_eq]
      rfl
    · rw [next_eq]
      rfl
  · cases fetched.symm.trans fetched'
    cases found.symm.trans missing

/-- A cycle that succeeds has left general registers, flag and memory alone or
has made the changes of its operation. -/
theorem next_of_succeeds {wiring : Wiring} {machine : Machine}
    (succeeds : machine.succeeds wiring = true) :
    (machine.executes wiring = none ∧
      (machine.next wiring).registers.general = machine.registers.general ∧
      (machine.next wiring).registers.equalFlag = machine.registers.equalFlag ∧
      (machine.next wiring).memory = machine.memory) ∨
    ∃ operation held effect, machine.executes wiring = some operation ∧
      Operation.Changes { machine.registers with instructionRegister := held } machine.memory
        operation effect ∧
      (machine.next wiring).registers.general = effect.registers.general ∧
      (machine.next wiring).registers.equalFlag = effect.registers.equalFlag ∧
      (machine.next wiring).memory = effect.memory := by
  cases executed : machine.executes wiring with
  | some operation =>
      rcases effect_of_succeeds succeeds executed with ⟨held, effect, effect_eq, registers, memory⟩
      refine Or.inr ⟨operation, held, effect, rfl, Operation.changes_of_effect effect_eq, ?_⟩
      rw [registers]
      exact ⟨rfl, rfl, memory⟩
  | none =>
      refine Or.inl ⟨rfl, ?_⟩
      rcases (succeeds_iff wiring machine).mp succeeds with ⟨alive, ok⟩
      cases halted : machine.halted with
      | true =>
          have same : machine.next wiring = machine := by
            rw [next, cycle_of_halted wiring machine halted]
          rw [same]
          exact ⟨rfl, rfl, rfl⟩
      | false =>
          rcases cycle_eq_ok halted ok with ⟨plan, journal, planned, _, next_eq, _⟩
          rcases InstructionTable.plan_eq_ok planned with
            ⟨opcode, fetched, ⟨instruction, found, _⟩ | ⟨_, _, effect_eq, _⟩⟩
          · have executing := executes_eq_some_iff.mpr
              ⟨halted, opcode, instruction, fetched, found, rfl⟩
            rw [executed] at executing
            cases executing
          · rw [next_eq]
            simp [settle, record, left, effect_eq]

/-- Cycles in a row may be told from any of the machines between them. -/
theorem after_add (wiring : Wiring) (machine : Machine) (first second : Nat) :
    machine.after wiring (first + second) = (machine.after wiring first).after wiring second := by
  induction second with
  | zero => rfl
  | succ second inductionHypothesis => exact congrArg (next wiring) inductionHypothesis

theorem after_next (wiring : Wiring) (machine : Machine) (count : Nat) :
    machine.after wiring (count + 1) = (machine.next wiring).after wiring count := by
  rw [Nat.add_comm, after_add]
  rfl

/-- What stays from each time to the next unless something happens is as the last time that it
has happened has left it, or as it was at first. -/
theorem since_last (told : Nat → α) {happens : Nat → Prop}
    (stays : ∀ time, ¬ happens time → told (time + 1) = told time) (count : Nat) :
    (∃ time < count, happens time ∧ (∀ later < count, time < later → ¬ happens later) ∧
      told count = told (time + 1)) ∨
    ((∀ time < count, ¬ happens time) ∧ told count = told 0) := by
  induction count with
  | zero => exact Or.inr ⟨fun _ impossible => absurd impossible (Nat.not_lt_zero _), rfl⟩
  | succ count inductionHypothesis =>
      by_cases now : happens count
      · exact Or.inl ⟨count, Nat.lt_succ_self count, now, fun _ _ _ => by omega, rfl⟩
      · rw [stays count now]
        rcases inductionHypothesis with ⟨time, before, happened, last, same⟩ | ⟨never, same⟩
        · refine Or.inl ⟨time, Nat.lt_succ_of_lt before, happened, ?_, same⟩
          intro later bound after
          rcases Nat.lt_succ_iff_lt_or_eq.mp bound with earlier | rfl
          · exact last later earlier after
          · exact now
        · refine Or.inr ⟨?_, same⟩
          intro time bound
          rcases Nat.lt_succ_iff_lt_or_eq.mp bound with earlier | rfl
          · exact never time earlier
          · exact now

end Machine
end EightBit
