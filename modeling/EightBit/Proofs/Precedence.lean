import EightBit.Proofs.Conformance

namespace EightBit

/-!
# The fault of a cycle

A cycle looks at several things, and more than one of them may be wrong.  Which
fault it ends in is then a matter of order: a push wants its register before its
cell, a pop its cell before its register, a copy its source before its target, and
a jump that is not taken wants nothing.  This order is written down here as a list
of demands for each instruction, and `Machine.firstFault?` is the first of them
that is not met.

The main statement is `Machine.cycle_faults_iff`.  It says that a cycle ends in just
this fault, and in none when everything demanded is there.  Its proof follows an
operation access by access: `Effect.Checks` says of a computation what it demands,
and sequencing puts the demands of two computations one behind the other.
-/

namespace InstructionSet

/-- What an instruction can demand: that an address is within the memory, or that
there is a register with a number.  Neither is ever negative. -/
inductive Demand where
  | cell (address : Int)
  | register (number : Int)
deriving DecidableEq, Repr

/-- The fault of a demand, unless it is met. -/
def Demand.fault? (length : Nat) : Demand → Option Fault
  | cell address => if address < length then none else some (.address ⟨address, length⟩)
  | register number => if number ≤ 7 then none else some (.register ⟨number⟩)

/-- What an instruction demands after its operands were read, in the order in which
it does. -/
def Code.demands (registers : Registers) (first second : Int) : Code → List Demand
  | nop => []
  | hlt => []
  | ldi => [.register first]
  | lds => [.register second, .register first]
  | add => [.register first, .register second]
  | sub => [.register first, .register second]
  | mul => [.register first, .register second]
  | div => [.register first, .register second]
  | cmp => [.register first, .register second]
  | inc => [.register first]
  | dec => [.register first]
  | jmp => [.register first]
  | jeq => if registers.equalFlag then [.register first] else []
  | jne => if !registers.equalFlag then [.register first] else []
  | psh => [.register first, .cell (Byte.low (registers.stackPointer - 1))]
  | pop => [.cell registers.stackPointer, .register first]
  | prn => [.register first]

/-- The cells that hold the operands of an instruction. -/
def Code.operandCells (programCounter : Int) (code : Code) : List Demand :=
  ([1, 2].take code.operation.operandCount).map fun distance => .cell (programCounter + distance)

end InstructionSet

open InstructionSet Effect

/-- The number that an operand byte holds, where there is one. -/
def Registers.operandByte (registers : Registers) (memory : Memory) (distance : Int) : Int :=
  Byte.toInt ((memory.byteAt? (registers.programCounter + distance)).getD 0)

/-- The first demand of the next cycle that is not met.  A byte without instruction
is a fault of its own on a strict machine; an operand can only be missing just
behind the last cell. -/
def Machine.firstFault? (strict : Bool) (machine : Machine) : Option Fault :=
  let registers := machine.registers
  let memory := machine.memory
  let pc := registers.programCounter
  match memory.byteAt? pc with
  | none => some (.address ⟨pc, memory.length⟩)
  | some opcode =>
    match decode opcode with
    | none => if strict then some (.illegalOpcode opcode pc) else none
    | some code =>
      if memory.length ≤ pc + code.operation.operandCount then
        some (.address ⟨memory.length, memory.length⟩)
      else
        (code.demands registers (registers.operandByte memory 1)
          (registers.operandByte memory 2)).findSome? (Demand.fault? memory.length)

namespace Effect

/-- The fault in which a computation ends, if it fails. -/
def fault? : Except Failure α → Option Fault
  | .ok _ => none
  | .error failure => some failure.fault

/-- A computation fails at the first of the demands that is not met, and at nothing
else. -/
def Checks (length : Nat) (result : Except Failure α) (demands : List Demand) : Prop :=
  fault? result = demands.findSome? (Demand.fault? length)

theorem checks_ok (length : Nat) (value : α) : Checks length (.ok value) [] :=
  rfl

theorem Checks.bind {length : Nat} {access : Except Failure α} {rest : α → Except Failure β}
    {demand : Demand} {demands : List Demand} (first : Checks length access [demand])
    (later : ∀ value, access = .ok value → Checks length (rest value) demands) :
    Checks length (access >>= rest) (demand :: demands) := by
  rw [Checks, List.findSome?_singleton] at first
  rw [Checks, List.findSome?_cons, ← first]
  cases answered : access with
  | ok value => exact later value answered
  | error failure => rfl

variable {registers : Registers} {memory : Memory}

theorem checks_loadAt {address : Int} (lower : 0 ≤ address) :
    Checks memory.length (loadAt registers memory address) [.cell address] := by
  simp only [Checks, List.findSome?_singleton, Demand.fault?]
  by_cases upper : address < memory.length
  · have found : memory.byteAt? address ≠ none := by
      intro missing
      exact (Memory.byteAt?_eq_none_iff memory address).mp missing ⟨lower, upper⟩
    rcases Option.ne_none_iff_exists'.mp found with ⟨byte, found⟩
    rw [(loadAt_eq_ok_iff registers memory address byte).mpr found, if_pos upper]
    rfl
  · have outside : ¬ memory.Contains address := fun inside => upper inside.2
    have refused := (Memory.load_eq_error_iff memory address _).mpr ⟨outside, rfl⟩
    rw [loadAt, refused, if_neg upper]
    rfl

theorem checks_operandAt {distance : Int} (lower : 0 ≤ registers.programCounter + distance) :
    Checks memory.length (operandAt registers memory distance)
      [.cell (registers.programCounter + distance)] := by
  refine (checks_loadAt lower).bind ?_
  intro byte _
  exact checks_ok memory.length (Byte.toInt byte)

/-- What an operand access reads is the number of the operand byte. -/
theorem eq_operandByte {distance value : Int}
    (read : operandAt registers memory distance = .ok value) :
    value = registers.operandByte memory distance := by
  rcases (operandAt_eq_ok_iff registers memory distance value).mp read with ⟨byte, found, rfl⟩
  rw [Registers.operandByte, found]
  rfl

theorem checks_storeAt {address : Int} (value : Int) (lower : 0 ≤ address) :
    Checks memory.length (storeAt registers memory address value) [.cell address] := by
  simp only [Checks, List.findSome?_singleton, Demand.fault?, storeAt,
    Memory.store]
  by_cases upper : address < memory.length
  · rw [dif_pos ⟨lower, upper⟩, if_pos upper]
    rfl
  · rw [dif_neg (fun inside => upper inside.2), if_neg upper]
    rfl

theorem slot?_eq_none_of_lt {number : Int} (beyond : ¬ number ≤ 7) :
    Registers.slot? number = none :=
  dif_neg fun named => beyond (by omega)

theorem slot?_of_le {number : Int} (lower : 0 ≤ number) (upper : number ≤ 7) :
    ∃ slot, Registers.slot? number = some slot :=
  ⟨_, dif_pos ⟨lower, by omega⟩⟩

theorem checks_readFrom {index : Int} (length : Nat) (lower : 0 ≤ index) :
    Checks length (readFrom registers index) [.register index] := by
  simp only [Checks, List.findSome?_singleton, Demand.fault?, readFrom,
    Registers.get]
  by_cases upper : index ≤ 7
  · rcases slot?_of_le lower upper with ⟨slot, named⟩
    rw [named, if_pos upper]
    rfl
  · rw [slot?_eq_none_of_lt upper, if_neg upper]
    rfl

theorem checks_writeTo {index : Int} (length : Nat) (value : Int) (lower : 0 ≤ index) :
    Checks length (writeTo registers index value) [.register index] := by
  simp only [Checks, List.findSome?_singleton, Demand.fault?, writeTo,
    Registers.set]
  by_cases upper : index ≤ 7
  · rcases slot?_of_le lower upper with ⟨slot, named⟩
    rw [named, if_pos upper]
    rfl
  · rw [slot?_eq_none_of_lt upper, if_neg upper]
    rfl

end Effect

namespace Operation

variable {registers : Registers} {memory : Memory}

/-- An operation with one operand demands its cell first. -/
theorem checks_one {rest : Int → Except Failure Effect} {demands : List Demand}
    (lower : 0 ≤ registers.programCounter)
    (later : Checks memory.length (rest (registers.operandByte memory 1)) demands) :
    Checks memory.length (operandAt registers memory 1 >>= rest)
      (.cell (registers.programCounter + 1) :: demands) := by
  refine (checks_operandAt (Int.add_nonneg lower Int.one_nonneg)).bind ?_
  intro value read
  rw [eq_operandByte read]
  exact later

/-- One with two operands demands the cells of both before it looks at either. -/
theorem checks_two {rest : Int → Int → Except Failure Effect} {demands : List Demand}
    (lower : 0 ≤ registers.programCounter)
    (later : Checks memory.length
      (rest (registers.operandByte memory 1) (registers.operandByte memory 2)) demands) :
    Checks memory.length
      (do
        let first ← operandAt registers memory 1
        let second ← operandAt registers memory 2
        rest first second)
      (.cell (registers.programCounter + 1) :: .cell (registers.programCounter + 2) ::
        demands) := by
  apply checks_one lower
  refine (checks_operandAt (Int.add_nonneg lower (by decide))).bind ?_
  intro value read
  rw [eq_operandByte read]
  exact later

theorem operandByte_nonneg (registers : Registers) (memory : Memory) (distance : Int) :
    0 ≤ registers.operandByte memory distance :=
  Byte.toInt_nonneg _

theorem checks_binary {op : Alu.Op} (two : op.isUnary = false)
    (lower : 0 ≤ registers.programCounter) :
    Checks memory.length ((Operation.alu op).effect registers memory)
      [.cell (registers.programCounter + 1), .cell (registers.programCounter + 2),
        .register (registers.operandByte memory 1),
        .register (registers.operandByte memory 2)] := by
  simp only [Operation.effect, two, Bool.false_eq_true, if_false]
  apply checks_two lower
  refine (checks_readFrom _ (operandByte_nonneg registers memory 1)).bind ?_
  intro a readFirst
  refine (checks_readFrom _ (operandByte_nonneg registers memory 2)).bind ?_
  intro b _
  rcases (readFrom_eq_ok_iff registers _ a).mp readFirst with ⟨slot, named, _⟩
  rcases writeResultTo_defined registers (Alu.apply op a b) named with ⟨written, written_eq⟩
  rw [written_eq]
  exact checks_ok memory.length _

theorem checks_unary {op : Alu.Op} (one : op.isUnary = true)
    (lower : 0 ≤ registers.programCounter) :
    Checks memory.length ((Operation.alu op).effect registers memory)
      [.cell (registers.programCounter + 1), .register (registers.operandByte memory 1)] := by
  simp only [Operation.effect, one, if_true]
  apply checks_one lower
  refine (checks_readFrom _ (operandByte_nonneg registers memory 1)).bind ?_
  intro value read
  rcases (readFrom_eq_ok_iff registers _ value).mp read with ⟨slot, named, _⟩
  rcases writeResultTo_defined registers (Alu.apply op value 0) named with ⟨written, written_eq⟩
  rw [written_eq]
  exact checks_ok memory.length _

theorem checks_jump (condition : Condition) (lower : 0 ≤ registers.programCounter) :
    Checks memory.length ((Operation.jump condition).effect registers memory)
      (.cell (registers.programCounter + 1) ::
        if condition.holds registers.equalFlag then
          [.register (registers.operandByte memory 1)]
        else []) := by
  apply checks_one lower
  split
  · refine (checks_readFrom _ (operandByte_nonneg registers memory 1)).bind ?_
    intro target _
    exact checks_ok memory.length _
  · exact checks_ok memory.length _

theorem checks_psh (lower : 0 ≤ registers.programCounter) :
    Checks memory.length (Operation.psh.effect registers memory)
      [.cell (registers.programCounter + 1), .register (registers.operandByte memory 1),
        .cell (Byte.low (registers.stackPointer - 1))] := by
  apply checks_one lower
  refine (checks_readFrom _ (operandByte_nonneg registers memory 1)).bind ?_
  intro value _
  rw [← Registers.stackPointer_lowered]
  refine (checks_storeAt value ?_).bind ?_
  · simpa using Byte.low_nonneg _
  · intro stored _
    exact checks_ok memory.length _

theorem checks_pop (lower : 0 ≤ registers.programCounter) (bounded : registers.Bounded) :
    Checks memory.length (Operation.pop.effect registers memory)
      [.cell (registers.programCounter + 1), .cell registers.stackPointer,
        .register (registers.operandByte memory 1)] := by
  apply checks_one lower
  refine (checks_loadAt (bounded Registers.stackSlot).1).bind ?_
  intro value _
  refine (checks_writeTo _ (Byte.toInt value) (operandByte_nonneg registers memory 1)).bind ?_
  intro written _
  exact checks_ok memory.length _

/-- What an instruction checks: the cells of its operands, and then what it demands
of them. -/
theorem checks_effect (code : Code) (lower : 0 ≤ registers.programCounter)
    (bounded : registers.Bounded) :
    Checks memory.length (code.operation.effect registers memory)
      (code.operandCells registers.programCounter ++
        code.demands registers (registers.operandByte memory 1)
          (registers.operandByte memory 2)) := by
  cases code with
  | nop => exact checks_ok memory.length _
  | hlt => exact checks_ok memory.length _
  | ldi =>
      apply checks_two lower
      refine (checks_writeTo _ _ (operandByte_nonneg registers memory 1)).bind ?_
      intro written _
      exact checks_ok memory.length _
  | lds =>
      apply checks_two lower
      refine (checks_readFrom _ (operandByte_nonneg registers memory 2)).bind ?_
      intro value _
      refine (checks_writeTo _ value (operandByte_nonneg registers memory 1)).bind ?_
      intro written _
      exact checks_ok memory.length _
  | add => exact checks_binary rfl lower
  | sub => exact checks_binary rfl lower
  | mul => exact checks_binary rfl lower
  | div => exact checks_binary rfl lower
  | inc => exact checks_unary rfl lower
  | dec => exact checks_unary rfl lower
  | cmp => exact checks_binary rfl lower
  | jmp => exact checks_jump .always lower
  | jeq => exact checks_jump .ifEqual lower
  | jne => exact checks_jump .ifNotEqual lower
  | psh => exact checks_psh lower
  | pop => exact checks_pop lower bounded
  | prn =>
      apply checks_one lower
      refine (checks_readFrom _ (operandByte_nonneg registers memory 1)).bind ?_
      intro value _
      exact checks_ok memory.length _

/-- Operands follow an opcode that is there, so the first that is missing would lie
just behind the last cell. -/
theorem findSome?_cells {programCounter : Int} {length : Nat} (inside : programCounter < length)
    {count : Nat} (few : count ≤ 2) :
    (([1, 2].take count).map fun distance => Demand.cell (programCounter + distance)).findSome?
        (Demand.fault? length) =
      if length ≤ programCounter + count then some (.address ⟨length, length⟩) else none := by
  match count, few with
  | 0, _ =>
      rw [if_neg (by omega)]
      rfl
  | 1, _ =>
      simp only [List.take, List.map, List.findSome?_singleton, Demand.fault?]
      by_cases first : programCounter + 1 < length
      · rw [if_pos first, if_neg (by omega)]
      · have last : programCounter + 1 = length := by omega
        rw [if_neg first, if_pos (by omega), last]
  | 2, _ =>
      simp only [List.take, List.map, List.findSome?_cons, List.findSome?_nil, Demand.fault?]
      by_cases first : programCounter + 1 < length
      · rw [if_pos first]
        by_cases second : programCounter + 2 < length
        · rw [if_pos second, if_neg (by omega)]
        · have last : programCounter + 2 = length := by omega
          rw [if_neg second, if_pos (by omega), last]
      · have last : programCounter + 1 = length := by omega
        have short : (length : Int) ≤ programCounter + (2 : Nat) := by omega
        rw [if_neg first, if_pos short, last]

theorem operandCount_le (code : Code) : code.operation.operandCount ≤ 2 := by
  cases code <;> decide

theorem fault?_effect (code : Code) (inside : memory.Contains registers.programCounter)
    (bounded : registers.Bounded) :
    fault? (code.operation.effect registers memory) =
      if memory.length ≤ registers.programCounter + code.operation.operandCount then
        some (.address ⟨memory.length, memory.length⟩)
      else
        (code.demands registers (registers.operandByte memory 1)
          (registers.operandByte memory 2)).findSome? (Demand.fault? memory.length) := by
  have checks : Checks memory.length _ _ := checks_effect code inside.1 bounded
  rw [checks, List.findSome?_append, Code.operandCells,
    findSome?_cells inside.2 (operandCount_le code)]
  split <;> rfl

end Operation

namespace Machine

variable {wiring : Wiring} {machine : Machine}

theorem firstFault?_of_decode (strict : Bool) (held : Int) {opcode : UInt8} {code : Code}
    (bounded : machine.registers.Bounded)
    (fetched : machine.memory.byteAt? machine.registers.programCounter = some opcode)
    (decoded : decode opcode = some code) :
    machine.firstFault? strict =
      Effect.fault? (code.operation.effect
        { machine.registers with instructionRegister := held } machine.memory) := by
  have inside := Memory.contains_of_byteAt? fetched
  let registers := { machine.registers with instructionRegister := held }
  have told : Effect.fault? (code.operation.effect registers machine.memory) = _ :=
    Operation.fault?_effect code inside bounded
  rw [told]
  simp only [firstFault?, fetched, decoded]
  rfl

theorem firstFault?_of_undecoded (strict : Bool) {opcode : UInt8}
    (fetched : machine.memory.byteAt? machine.registers.programCounter = some opcode)
    (undefined : decode opcode = none) :
    machine.firstFault? strict =
      if strict then some (.illegalOpcode opcode machine.registers.programCounter) else none := by
  simp only [firstFault?, fetched, undefined]

/-- The fault of the plan of a cycle, under the standard table. -/
theorem fault?_plan (standard : wiring.table = .standard) (bounded : machine.registers.Bounded) :
    Effect.fault? (machine.plan wiring) = machine.firstFault? wiring.strict := by
  rw [plan, standard]
  cases planned : InstructionTable.standard.plan wiring.strict machine.registers machine.memory with
  | ok plan =>
      rcases InstructionTable.plan_eq_ok planned with
        ⟨opcode, fetched, ⟨instruction, found, executed, _⟩ | ⟨missing, lenient, _, _⟩⟩
      · rcases decode_of_find? found with ⟨code, decoded, operation_eq⟩
        rw [firstFault?_of_decode _ _ bounded fetched decoded, operation_eq, executed]
        rfl
      · rw [firstFault?_of_undecoded _ fetched (decode_of_missing missing), lenient]
        rfl
  | error failure =>
      rcases InstructionTable.plan_eq_error planned with
        ⟨missing, fault_eq, _⟩ |
        ⟨opcode, fetched, ⟨instruction, found, failed⟩ | ⟨unbound, strict, fault_eq, _⟩⟩
      · simp only [Effect.fault?, firstFault?, missing, fault_eq]
      · rcases decode_of_find? found with ⟨code, decoded, operation_eq⟩
        rw [firstFault?_of_decode _ _ bounded fetched decoded, operation_eq, failed]
        rfl
      · rw [firstFault?_of_undecoded _ fetched (decode_of_missing unbound), strict, if_pos rfl,
          ← fault_eq]
        rfl

/-- Under the standard table and with a device that takes its value, a cycle ends in
a fault exactly if something it demands is not there, and the fault is that of the
first such thing. -/
theorem cycle_faults_iff (standard : wiring.table = .standard) (running : machine.halted = false)
    (bounded : machine.registers.Bounded)
    (returns : (wiring.device machine.emissions.size).fails = false) (fault : Fault) :
    (∃ after, cycle wiring machine = .error fault after) ↔
      machine.firstFault? wiring.strict = some fault := by
  rw [← fault?_plan standard bounded]
  constructor
  · rintro ⟨after, failed⟩
    rcases cycle_eq_error failed with
      ⟨failure, journal, planned, rfl, _⟩ | ⟨plan, journal, _, refused, _, _⟩
    · rw [planned]
      rfl
    · simp [refuses, returns] at refused
  · intro expected
    cases planned : machine.plan wiring with
    | ok plan =>
        rw [planned] at expected
        cases expected
    | error failure =>
        rw [planned] at expected
        cases expected
        rcases cycle_of_failure wiring running planned with ⟨journal, ended⟩
        exact ⟨_, ended⟩

/-- A machine that pops into a register there is none of, from a cell there is none
of. -/
def popsNowhere : Machine where
  memory := ⟨#[0x0B, 9], by decide⟩

/-- The pop looks at the cell first. -/
theorem cycle_faults_iff_popsNowhere :
    ∃ after, cycle {} popsNowhere = .error (.address ⟨0xF8, 2⟩) after := by
  have bounded : popsNowhere.registers.Bounded := by decide +kernel
  have first : popsNowhere.firstFault? false = some (.address ⟨0xF8, 2⟩) := by decide +kernel
  exact (@cycle_faults_iff {} popsNowhere rfl rfl bounded rfl _).mpr first

end Machine
end EightBit
