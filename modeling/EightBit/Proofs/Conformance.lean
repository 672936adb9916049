import EightBit.Proofs.Arithmetic
import EightBit.Proofs.Cycle
import EightBit.Proofs.InstructionSet
import EightBit.Proofs.InstructionTable

namespace EightBit

/-!
# Cycles conform to the instruction set

Under the standard table a cycle that succeeds takes the step that the
instruction set defines, and where the instruction set defines a step the cycle
fails only if its device does, or if the machine is strict and the byte stands
for no instruction.  The instruction set sees bytes where the machine keeps
numbers, so the registers of the machine have to be bounded; they stay so.

Each instruction has two lemmas.  One turns the effect of the operation into the
step of the instruction, the other finds the effect if there is a step.
-/

theorem Memory.byteAt?_of_store {memory stored : Memory} {address value : Int}
    (stores : memory.store address value = .ok stored) :
    ∃ byte, memory.byteAt? address = some byte :=
  byteAt?_of_contains (contains_of_store stores)

namespace InstructionSet

open Effect

def Code.operation : Code → Operation
  | nop => .nop
  | hlt => .hlt
  | ldi => .ldi
  | lds => .lds
  | add => .alu .add
  | sub => .alu .sub
  | mul => .alu .mul
  | div => .alu .div
  | inc => .alu .inc
  | dec => .alu .dec
  | cmp => .alu .cmp
  | jmp => .jump .always
  | jeq => .jump .ifEqual
  | jne => .jump .ifNotEqual
  | psh => .psh
  | pop => .pop
  | prn => .prn

/-- The standard table binds every byte as the instruction set decodes it. -/
theorem operation_of_find? (opcode : UInt8) :
    (InstructionTable.standard.find? opcode).map Instruction.operation =
      (decode opcode).map Code.operation := by
  have every : ∀ byte : Fin 256,
      (InstructionTable.standardInstructions.find? fun entry =>
        entry.opcode == UInt8.ofFin byte).map Instruction.operation =
          (decode (UInt8.ofFin byte)).map Code.operation := by
    decide +kernel
  rw [InstructionTable.find?_of_build InstructionTable.build_standardInstructions]
  exact every opcode.toFin

theorem decode_of_find? {opcode : UInt8} {instruction : Instruction}
    (found : InstructionTable.standard.find? opcode = some instruction) :
    ∃ code, decode opcode = some code ∧ code.operation = instruction.operation := by
  have decoded := operation_of_find? opcode
  rw [found] at decoded
  exact Option.map_eq_some_iff.mp decoded.symm

theorem decode_of_missing {opcode : UInt8}
    (missing : InstructionTable.standard.find? opcode = none) : decode opcode = none := by
  have decoded := operation_of_find? opcode
  rw [missing] at decoded
  exact Option.map_eq_none_iff.mp decoded.symm

/-- What the instruction set sees of registers and memory. -/
def seen (registers : Registers) (memory : Memory) (halted : Bool) (cycles : Nat)
    (output : List Int) : State where
  general slot := Byte.ofInt (registers.cell slot)
  programCounter := registers.programCounter
  instructionRegister := registers.instructionRegister
  equal := registers.equalFlag
  memory := memory.byteAt?
  halted
  cycles
  output

section Seen

variable {registers after : Registers} {memory stored : Memory} {halted : Bool} {cycles : Nat}
  {output : List Int} {slot : Fin 8} {state : State}

@[simp] theorem memory_seen :
    (seen registers memory halted cycles output).memory = memory.byteAt? :=
  rfl

@[simp] theorem general_seen (slot : Fin 8) :
    (seen registers memory halted cycles output).general slot = Byte.ofInt (registers.cell slot) :=
  rfl

@[simp] theorem operand_seen (distance : Int) :
    (seen registers memory halted cycles output).operand distance =
      memory.byteAt? (registers.programCounter + distance) :=
  rfl

@[simp] theorem named_seen (distance : Int) :
    (seen registers memory halted cycles output).named distance =
      registers.named? memory distance := by
  have slot_eq : ∀ byte : UInt8, Registers.slot? (Byte.toInt byte) =
      if inside : byte.toNat < 8 then some ⟨byte.toNat, inside⟩ else none := by
    intro byte
    split
    · exact (Registers.slot?_eq_some_iff _ _).mpr rfl
    · rename_i outside
      rw [Registers.slot?, dif_neg]
      simp only [Byte.toInt]
      omega
  simp only [State.named, State.operand, Registers.named?, slot_eq]
  rfl

theorem seen_setCell (value : Int) :
    seen (registers.setCell slot value) memory halted cycles output =
      (seen registers memory halted cycles output).write slot (Byte.ofInt value) := by
  have general : (fun other => Byte.ofInt ((registers.setCell slot value).cell other)) =
      Function.update (fun other => Byte.ofInt (registers.cell other)) slot
        (Byte.ofInt value) := by
    funext other
    rw [Registers.cell_setCell, Function.update_apply]
    split <;> rfl
  simp only [seen, State.write, general]
  rfl

theorem seen_lowered :
    seen registers.lowered memory halted cycles output =
      (seen registers memory halted cycles output).write State.stackPointer
        ((seen registers memory halted cycles output).general State.stackPointer - 1) := by
  simp [Registers.lowered, Registers.setStackPointer, Registers.stackPointer,
    Registers.stackSlot, State.stackPointer, seen_setCell]

theorem seen_raised :
    seen registers.raised memory halted cycles output =
      (seen registers memory halted cycles output).write State.stackPointer
        ((seen registers memory halted cycles output).general State.stackPointer + 1) := by
  simp [Registers.raised, Registers.setStackPointer, Registers.stackPointer,
    Registers.stackSlot, State.stackPointer, seen_setCell]

theorem store_seen {address value : Int} (stores : memory.store address value = .ok stored) :
    (seen registers memory halted cycles output).store address (Byte.ofInt value) =
      some (seen registers stored halted cycles output) := by
  rcases Memory.byteAt?_of_store stores with ⟨old, found⟩
  have cells : Function.update memory.byteAt? address (some (Byte.ofInt value)) =
      stored.byteAt? := by
    funext other
    rw [Memory.byteAt?_store stores, Function.update_apply]
  simp only [State.store, seen, found, Option.map_some, cells]

theorem store_defined {address : Int} {byte : UInt8} (value : Int)
    (defined : (seen registers memory halted cycles output).store address byte = some state) :
    ∃ stored, memory.store address value = .ok stored := by
  rcases Option.map_eq_some_iff.mp defined with ⟨old, found, _⟩
  have there : memory.byteAt? address = some old := found
  exact ⟨_, dif_pos (Memory.contains_of_byteAt? there)⟩

theorem toInt_general_seen (bounded : registers.Bounded) (slot : Fin 8) :
    Byte.toInt ((seen registers memory halted cycles output).general slot) =
      registers.cell slot := by
  simpa using Byte.low_eq_self (bounded slot).1 (bounded slot).2

theorem toInt_stackPointer_seen (bounded : registers.Bounded) :
    Byte.toInt ((seen registers memory halted cycles output).general State.stackPointer) =
      registers.stackPointer :=
  toInt_general_seen bounded Registers.stackSlot

@[simp] theorem State.write_general (state : State) (slot : Fin 8) :
    state.write slot (state.general slot) = state := by
  rw [State.write, Function.update_eq_self]

/-- Writing the result of an operation that is no comparison.  Where nothing is written, this is
as good as writing what was there. -/
theorem seen_writeResultTo {op : Alu.Op} (notCmp : op ≠ .cmp) {index second : Int}
    (named : Registers.slot? index = some slot)
    (written : writeResultTo registers index (Alu.apply op (registers.cell slot) second) =
      .ok after) :
    seen after memory halted cycles output =
      (seen registers memory halted cycles output).write slot
        (Alu.onBytes op (Byte.ofInt (registers.cell slot)) (Byte.ofInt second)) := by
  rw [← Alu.ofInt_apply]
  rcases Alu.apply_cases op (registers.cell slot) second with
    ⟨cmp, _⟩ | ⟨_, applied⟩ | ⟨_, value, applied⟩
  · exact absurd cmp notCmp
  · rw [applied] at written ⊢
    cases written
    exact (State.write_general _ slot).symm
  · simp only [applied, writeResultTo, bind_eq_ok_iff, pure_eq_ok_iff, writeTo_eq_ok_iff] at written
    rcases written with ⟨_, ⟨other, named', rfl⟩, rfl⟩
    have same : other = slot := Option.some.inj (named'.symm.trans named)
    subst same
    simp [applied, seen_setCell]

theorem writeResultTo_defined (registers : Registers) {index : Int} (result : Alu.Result)
    (named : Registers.slot? index = some slot) :
    ∃ after, writeResultTo registers index result = .ok after := by
  unfold writeResultTo
  cases result.value with
  | none => exact ⟨_, rfl⟩
  | some value =>
      have written := (writeTo_eq_ok_iff registers _ index value).mpr ⟨slot, named, rfl⟩
      dsimp only
      rw [written]
      exact ⟨_, rfl⟩

end Seen

/-!
## One instruction after the other
-/

/-- What the instruction set sees after an effect on a machine that has not
halted. -/
def seenAfter (effect : Effect) (cycles : Nat) (output : List Int) : State :=
  seen { effect.registers with programCounter := effect.outcome.next } effect.memory
    effect.outcome.halts cycles (output ++ effect.emission.toList)

variable {registers : Registers} {memory : Memory} {effect : Effect} {cycles : Nat}
  {output : List Int} {state : State}

@[simp] theorem seenAfter_goOn (width : Int) :
    seenAfter (goOn registers memory width) cycles output =
      (seen registers memory false cycles output).goOn width := by
  simp only [seenAfter, goOn, Option.toList_none, List.append_nil]
  rfl

theorem binary_seen (op : Alu.Op) (notCmp : op ≠ .cmp) (two : op.isUnary = false)
    (succeeded : (Operation.alu op).effect registers memory = .ok effect) :
    (seen registers memory false cycles output).binary (Alu.onBytes op) =
      some (seenAfter effect cycles output) := by
  refine Operation.ensured succeeded ?_
  simp only [Operation.script, two, Bool.false_eq_true, if_false, Script.Ensures]
  intro first found second found' target named source named' after written
  have target_named : registers.named? memory 1 = some target :=
    Registers.named?_of_operand found named
  have source_named : registers.named? memory 2 = some source :=
    Registers.named?_of_operand found' named'
  simp [State.binary, target_named, source_named, seen_writeResultTo notCmp named written]

theorem binary_defined (op : Alu.Op) (two : op.isUnary = false)
    (defined : (seen registers memory false cycles output).binary (Alu.onBytes op) = some state) :
    ∃ effect, (Operation.alu op).effect registers memory = .ok effect := by
  simp only [State.binary, named_seen, Option.bind_eq_bind, Option.bind_eq_some_iff,
    Registers.named?_eq_some_iff] at defined
  rcases defined with ⟨target, ⟨first, found, named⟩, source, ⟨second, found', named'⟩, _⟩
  rcases writeResultTo_defined registers
      (Alu.apply op (registers.cell target) (registers.cell source)) named with
    ⟨after, written⟩
  simp [Operation.effect, two, found, found', named, named', written]

theorem unary_seen (op : Alu.Op) (one : op.isUnary = true)
    (succeeded : (Operation.alu op).effect registers memory = .ok effect) :
    (seen registers memory false cycles output).unary (fun target => Alu.onBytes op target 0) =
      some (seenAfter effect cycles output) := by
  have notCmp : op ≠ .cmp := by
    rintro rfl
    cases one
  refine Operation.ensured succeeded ?_
  simp only [Operation.script, one, if_true, Script.Ensures]
  intro byte found target named after written
  have target_named : registers.named? memory 1 = some target :=
    Registers.named?_of_operand found named
  simp [State.unary, target_named, seen_writeResultTo notCmp named written]

theorem unary_defined (op : Alu.Op) (one : op.isUnary = true)
    (defined : (seen registers memory false cycles output).unary
      (fun target => Alu.onBytes op target 0) = some state) :
    ∃ effect, (Operation.alu op).effect registers memory = .ok effect := by
  simp only [State.unary, named_seen, Option.bind_eq_bind, Option.bind_eq_some_iff,
    Registers.named?_eq_some_iff] at defined
  rcases defined with ⟨target, ⟨byte, found, named⟩, _⟩
  rcases writeResultTo_defined registers (Alu.apply op (registers.cell target) 0) named with
    ⟨after, written⟩
  simp [Operation.effect, one, found, named, written]

theorem jump_seen (condition : Condition) (bounded : registers.Bounded)
    (succeeded : (Operation.jump condition).effect registers memory = .ok effect) :
    (seen registers memory false cycles output).jump (condition.holds registers.equalFlag) =
      some (seenAfter effect cycles output) := by
  refine Operation.ensured succeeded ?_
  simp only [Operation.script, Script.Ensures]
  intro byte found
  have operand : (seen registers memory false cycles output).operand 1 = some byte := found
  constructor
  · intro taken target named
    have target_named : registers.named? memory 1 = some target :=
      Registers.named?_of_operand found named
    simp only [State.jump, operand, named_seen, target_named, taken, if_true, Option.bind_eq_bind,
      Option.bind_some, Option.pure_def, toInt_general_seen bounded, seenAfter, Option.toList_none,
      List.append_nil]
    rfl
  · intro passed
    rw [seenAfter_goOn]
    simp only [State.jump, operand, passed, Option.bind_eq_bind, Option.bind_some,
      Option.pure_def]
    rfl

theorem jump_defined (condition : Condition)
    (defined : (seen registers memory false cycles output).jump
      (condition.holds registers.equalFlag) = some state) :
    ∃ effect, (Operation.jump condition).effect registers memory = .ok effect := by
  simp only [State.jump, Option.bind_eq_bind, Option.bind_eq_some_iff] at defined
  rcases defined with ⟨byte, found, defined⟩
  have operand := (operandAt_eq_ok_iff registers memory 1 _).mpr ⟨byte, found, rfl⟩
  simp only [Operation.effect, operand, Bind.bind, Except.bind]
  split at defined
  · rename_i taken
    rw [named_seen] at defined
    simp only [Option.bind_eq_some_iff, Registers.named?_eq_some_iff] at defined
    rcases defined with ⟨target, ⟨other, found', named⟩, _⟩
    have same : other = byte := Option.some.inj (found'.symm.trans found)
    subst same
    have value := (readFrom_eq_ok_iff registers _ _).mpr ⟨target, named, rfl⟩
    rw [if_pos taken, value]
    exact ⟨_, rfl⟩
  · rename_i passed
    rw [if_neg passed]
    exact ⟨_, rfl⟩

theorem ldi_seen (succeeded : Operation.ldi.effect registers memory = .ok effect) :
    (seen registers memory false cycles output).execute .ldi =
      some (seenAfter effect cycles output) := by
  refine Operation.ensured succeeded ?_
  simp only [Operation.script, Script.Ensures]
  intro byte found value found' target named
  have target_named : registers.named? memory 1 = some target :=
    Registers.named?_of_operand found named
  simp [State.execute, target_named, found', seen_setCell]

theorem ldi_defined
    (defined : (seen registers memory false cycles output).execute .ldi = some state) :
    ∃ effect, Operation.ldi.effect registers memory = .ok effect := by
  simp only [State.execute, named_seen, operand_seen, Option.bind_eq_bind,
    Option.bind_eq_some_iff, Registers.named?_eq_some_iff] at defined
  rcases defined with ⟨target, ⟨byte, found, named⟩, value, found', _⟩
  simp [Operation.effect, found, found', named]

theorem lds_seen (succeeded : Operation.lds.effect registers memory = .ok effect) :
    (seen registers memory false cycles output).execute .lds =
      some (seenAfter effect cycles output) := by
  refine Operation.ensured succeeded ?_
  simp only [Operation.script, Script.Ensures]
  intro first found second found' source named' target named
  have target_named : registers.named? memory 1 = some target :=
    Registers.named?_of_operand found named
  have source_named : registers.named? memory 2 = some source :=
    Registers.named?_of_operand found' named'
  simp [State.execute, State.binary, target_named, source_named, seen_setCell]

theorem lds_defined
    (defined : (seen registers memory false cycles output).execute .lds = some state) :
    ∃ effect, Operation.lds.effect registers memory = .ok effect := by
  simp only [State.execute, State.binary, named_seen, Option.bind_eq_bind,
    Option.bind_eq_some_iff, Registers.named?_eq_some_iff] at defined
  rcases defined with ⟨target, ⟨first, found, named⟩, source, ⟨second, found', named'⟩, _⟩
  simp [Operation.effect, found, found', named, named']

theorem cmp_seen (succeeded : (Operation.alu .cmp).effect registers memory = .ok effect) :
    (seen registers memory false cycles output).execute .cmp =
      some (seenAfter effect cycles output) := by
  rcases Operation.effect_cmp succeeded with ⟨target, source, target_named, source_named, rfl⟩
  have equal : (Byte.ofInt (registers.cell target) == Byte.ofInt (registers.cell source)) =
      decide (Byte.low (registers.cell target) = Byte.low (registers.cell source)) := by
    rw [beq_eq_decide]
    exact decide_eq_decide.mpr (Byte.ofInt_eq_iff _ _)
  simp only [State.execute, named_seen, target_named, source_named, Option.bind_eq_bind,
    Option.bind_some, Option.pure_def]
  rw [seenAfter_goOn]
  exact congrArg (fun flag => some
    { (seen registers memory false cycles output).goOn 3 with equal := flag }) equal

theorem cmp_defined
    (defined : (seen registers memory false cycles output).execute .cmp = some state) :
    ∃ effect, (Operation.alu .cmp).effect registers memory = .ok effect := by
  simp only [State.execute, named_seen, Option.bind_eq_bind, Option.bind_eq_some_iff,
    Registers.named?_eq_some_iff] at defined
  rcases defined with ⟨target, ⟨first, found, named⟩, source, ⟨second, found', named'⟩, _⟩
  simp [Operation.effect, Alu.Op.isUnary, Alu.apply, writeResultTo, found, found', named, named']

theorem psh_seen (bounded : registers.Bounded)
    (succeeded : Operation.psh.effect registers memory = .ok effect) :
    (seen registers memory false cycles output).execute .psh =
      some (seenAfter effect cycles output) := by
  refine Operation.ensured succeeded ?_
  simp only [Operation.script, Script.Ensures]
  intro byte found source named stored stores
  have source_named : registers.named? memory 1 = some source :=
    Registers.named?_of_operand found named
  have value : (seen registers.lowered memory false cycles output).general source =
      Byte.ofInt (registers.lowered.cell source) := rfl
  simp only [State.execute, named_seen, source_named, ← seen_lowered,
    toInt_stackPointer_seen bounded.lowered, value, store_seen stores, Option.bind_eq_bind,
    Option.bind_some, Option.pure_def, seenAfter_goOn]

theorem psh_defined (bounded : registers.Bounded)
    (defined : (seen registers memory false cycles output).execute .psh = some state) :
    ∃ effect, Operation.psh.effect registers memory = .ok effect := by
  simp only [State.execute, named_seen, ← seen_lowered, toInt_stackPointer_seen bounded.lowered,
    Option.bind_eq_bind, Option.bind_eq_some_iff, Registers.named?_eq_some_iff] at defined
  rcases defined with ⟨source, ⟨byte, found, named⟩, _, storable, _⟩
  rcases store_defined (registers.lowered.cell source) storable with ⟨stored, stores⟩
  simp only [Registers.cell_lowered, Registers.stackPointer_lowered] at stores
  simp [Operation.effect, found, named, stores]

theorem pop_seen (bounded : registers.Bounded)
    (succeeded : Operation.pop.effect registers memory = .ok effect) :
    (seen registers memory false cycles output).execute .pop =
      some (seenAfter effect cycles output) := by
  refine Operation.ensured succeeded ?_
  simp only [Operation.script, Script.Ensures]
  intro byte found value loads target named
  have target_named : registers.named? memory 1 = some target :=
    Registers.named?_of_operand found named
  have written : (seen registers memory false cycles output).write target value =
      seen (registers.setCell target (Byte.low (Byte.toInt value))) memory false cycles
        output := by
    simp [seen_setCell]
  simp only [State.execute, named_seen, target_named, toInt_stackPointer_seen bounded,
    memory_seen, loads, written, ← seen_raised, Option.bind_eq_bind, Option.bind_some,
    Option.pure_def, seenAfter_goOn]

theorem pop_defined (bounded : registers.Bounded)
    (defined : (seen registers memory false cycles output).execute .pop = some state) :
    ∃ effect, Operation.pop.effect registers memory = .ok effect := by
  simp only [State.execute, named_seen, memory_seen, toInt_stackPointer_seen bounded,
    Option.bind_eq_bind, Option.bind_eq_some_iff, Registers.named?_eq_some_iff] at defined
  rcases defined with ⟨target, ⟨byte, found, named⟩, value, loads, _⟩
  simp [Operation.effect, found, loads, named]

theorem prn_seen (bounded : registers.Bounded)
    (succeeded : Operation.prn.effect registers memory = .ok effect) :
    (seen registers memory false cycles output).execute .prn =
      some (seenAfter effect cycles output) := by
  refine Operation.ensured succeeded ?_
  simp only [Operation.script, Script.Ensures]
  intro byte found source named
  have source_named : registers.named? memory 1 = some source :=
    Registers.named?_of_operand found named
  simp only [State.execute, named_seen, source_named, toInt_general_seen bounded,
    Option.bind_eq_bind, Option.bind_some, Option.pure_def]
  rfl

theorem prn_defined
    (defined : (seen registers memory false cycles output).execute .prn = some state) :
    ∃ effect, Operation.prn.effect registers memory = .ok effect := by
  simp only [State.execute, named_seen, Option.bind_eq_bind, Option.bind_eq_some_iff,
    Registers.named?_eq_some_iff] at defined
  rcases defined with ⟨source, ⟨byte, found, named⟩, _⟩
  simp [Operation.effect, found, named]

/-- The operation of an instruction has the effect that the instruction set
tells. -/
theorem execute_seen (code : Code) (bounded : registers.Bounded)
    (succeeded : code.operation.effect registers memory = .ok effect) :
    (seen registers memory false cycles output).execute code =
      some (seenAfter effect cycles output) := by
  cases code with
  | nop =>
      cases succeeded
      rw [seenAfter_goOn]
      rfl
  | hlt =>
      cases succeeded
      simp only [seenAfter, Option.toList_none, List.append_nil]
      rfl
  | ldi => exact ldi_seen succeeded
  | lds => exact lds_seen succeeded
  | add => exact binary_seen .add (by decide) rfl succeeded
  | sub => exact binary_seen .sub (by decide) rfl succeeded
  | mul => exact binary_seen .mul (by decide) rfl succeeded
  | div => exact binary_seen .div (by decide) rfl succeeded
  | inc => exact unary_seen .inc rfl succeeded
  | dec => exact unary_seen .dec rfl succeeded
  | cmp => exact cmp_seen succeeded
  | jmp => exact jump_seen .always bounded succeeded
  | jeq => exact jump_seen .ifEqual bounded succeeded
  | jne => exact jump_seen .ifNotEqual bounded succeeded
  | psh => exact psh_seen bounded succeeded
  | pop => exact pop_seen bounded succeeded
  | prn => exact prn_seen bounded succeeded

/-- Where the instruction set defines an effect, the operation of the instruction
has one. -/
theorem execute_defined (code : Code) (bounded : registers.Bounded)
    (defined : (seen registers memory false cycles output).execute code = some state) :
    ∃ effect, code.operation.effect registers memory = .ok effect := by
  cases code with
  | nop => exact ⟨_, rfl⟩
  | hlt => exact ⟨_, rfl⟩
  | ldi => exact ldi_defined defined
  | lds => exact lds_defined defined
  | add => exact binary_defined .add rfl defined
  | sub => exact binary_defined .sub rfl defined
  | mul => exact binary_defined .mul rfl defined
  | div => exact binary_defined .div rfl defined
  | inc => exact unary_defined .inc rfl defined
  | dec => exact unary_defined .dec rfl defined
  | cmp => exact cmp_defined defined
  | jmp => exact jump_defined .always defined
  | jeq => exact jump_defined .ifEqual defined
  | jne => exact jump_defined .ifNotEqual defined
  | psh => exact psh_defined bounded defined
  | pop => exact pop_defined bounded defined
  | prn => exact prn_defined defined
end InstructionSet

namespace Machine

open InstructionSet

variable {wiring : Wiring} {machine after : Machine} {alive : Bool}

/-- What the instruction set sees of a machine. -/
def architecture (machine : Machine) : State :=
  seen machine.registers machine.memory machine.halted machine.cycles machine.values

theorem architecture_settle (running : machine.halted = false) (device : Nat → Reply)
    (journal : Journal) {effect : Effect} {commit : Commit}
    (next : commit.next = effect.outcome.next) (halts : commit.halts = effect.outcome.halts) :
    ((machine.left device effect journal).settle commit).architecture =
      seenAfter effect (machine.cycles + 1) machine.values := by
  have settled : ((machine.left device effect journal).settle commit).halted =
      effect.outcome.halts := by
    simp [halts, running]
  simp only [architecture, settled, settle_registers, settle_cycles, settle_values, left_registers,
    left_cycles, left_values, seenAfter, next]
  rfl

/-- After the fetch the instruction set sees the fetched byte and one more
cycle. -/
theorem architecture_fetched (running : machine.halted = false) (opcode : UInt8) :
    { machine.architecture with
        instructionRegister := Byte.toInt opcode
        cycles := machine.architecture.cycles + 1 } =
      seen { machine.registers with instructionRegister := Byte.toInt opcode } machine.memory
        false (machine.cycles + 1) machine.values := by
  rw [architecture, running]
  rfl

theorem step_eq (running : machine.halted = false) {opcode : UInt8}
    (fetched : machine.memory.byteAt? machine.registers.programCounter = some opcode) :
    machine.architecture.step =
      match decode opcode with
      | some code =>
        (seen { machine.registers with instructionRegister := Byte.toInt opcode } machine.memory
          false (machine.cycles + 1) machine.values).execute code
      | none =>
        some (seen { machine.registers with instructionRegister := Byte.toInt opcode }
          machine.memory true (machine.cycles + 1) machine.values) := by
  have opened : machine.architecture.memory machine.architecture.programCounter = some opcode :=
    fetched
  simp only [State.step, opened, Option.bind_eq_bind, Option.bind_some,
    machine.architecture_fetched running]
  rfl

theorem step_of_cycle (standard : wiring.table = .standard) (running : machine.halted = false)
    (bounded : machine.registers.Bounded) (ok : cycle wiring machine = .ok alive after) :
    machine.architecture.step = some after.architecture := by
  rcases cycle_eq_ok running ok with ⟨plan, journal, planned, _, after_eq, _⟩
  rw [Machine.plan, standard] at planned
  rcases InstructionTable.plan_eq_ok planned with ⟨opcode, fetched, planned⟩
  rw [after_eq, step_eq running fetched]
  rcases planned with
    ⟨instruction, found, executed, commit_eq⟩ | ⟨missing, _, effect_eq, commit_eq⟩
  · rcases decode_of_find? found with ⟨code, code_eq, operation_eq⟩
    rw [← operation_eq] at executed
    rw [architecture_settle running wiring.device journal (by rw [commit_eq]; rfl)
      (by rw [commit_eq]; rfl), code_eq]
    exact execute_seen code bounded executed
  · rw [architecture_settle running wiring.device journal
      (by rw [commit_eq, effect_eq]) (by rw [commit_eq, effect_eq]), decode_of_missing missing]
    simp only [effect_eq, seenAfter, Option.toList_none, List.append_nil]

theorem cycle_of_step (standard : wiring.table = .standard) (running : machine.halted = false)
    (bounded : machine.registers.Bounded) {state : State}
    (defined : machine.architecture.step = some state)
    (known : wiring.strict = true → machine.executes wiring ≠ none)
    (returns : (wiring.device machine.emissions.size).fails = false) :
    ∃ alive after, cycle wiring machine = .ok alive after := by
  cases fetched : machine.memory.byteAt? machine.registers.programCounter with
  | none =>
      have closed : machine.architecture.memory machine.architecture.programCounter = none :=
        fetched
      simp only [State.step, closed] at defined
      cases defined
  | some opcode =>
      rw [step_eq running fetched] at defined
      have planned : ∃ plan, machine.plan wiring = .ok plan := by
        refine InstructionTable.plan_defined fetched ?_ ?_
        · intro instruction found
          rw [standard] at found
          rcases decode_of_find? found with ⟨code, code_eq, operation_eq⟩
          rw [code_eq] at defined
          rw [← operation_eq]
          exact execute_defined code bounded defined
        · intro missing
          cases strict : wiring.strict with
          | false => rfl
          | true =>
              have nothing : machine.executes wiring = none := by
                simp [executes, fetched, missing]
              exact absurd nothing (known strict)
      rcases planned with ⟨plan, planned⟩
      have taken : machine.refuses wiring.device plan.effect.emission = false := by
        simp [refuses, returns]
      rcases cycle_of_taken wiring running planned taken with ⟨journal, ended⟩
      exact ⟨_, _, ended⟩

/-- The instruction set is what a machine with the standard table does.  A cycle
that succeeds has taken the step that the instruction set defines, and a cycle
for which there is a step succeeds if the device does. -/
theorem cycle_conforms (standard : wiring.table = .standard) (running : machine.halted = false)
    (bounded : machine.registers.Bounded) :
    (∀ alive after, cycle wiring machine = .ok alive after →
      machine.architecture.step = some after.architecture ∧ after.registers.Bounded ∧
        alive = !after.halted) ∧
    (∀ state, machine.architecture.step = some state →
      (wiring.strict = true → machine.executes wiring ≠ none) →
      (wiring.device machine.emissions.size).fails = false →
      ∃ alive after, cycle wiring machine = .ok alive after) := by
  constructor
  · intro alive after ok
    rcases cycle_eq_ok running ok with ⟨_, _, _, _, _, alive_eq⟩
    exact ⟨step_of_cycle standard running bounded ok, bounded_of_cycle_eq_ok bounded ok, alive_eq⟩
  · intro state defined known returns
    exact cycle_of_step standard running bounded defined known returns

def popsStackPointer : Machine where
  memory := ⟨#[0x0B, 7, 41], by decide⟩
  registers := Registers.powerOn.setCell Registers.stackSlot 2

/-- The stack pointer ends with the byte that it pointed to, raised by one. -/
theorem cycle_conforms_popsStackPointer :
    ∃ alive after, cycle {} popsStackPointer = .ok alive after ∧
      popsStackPointer.architecture.step = some after.architecture ∧
      after.registers.stackPointer = 42 := by
  have bounded : popsStackPointer.registers.Bounded := by decide +kernel
  have defined : popsStackPointer.architecture.step.isSome = true := by decide +kernel
  rcases Option.isSome_iff_exists.mp defined with ⟨state, step⟩
  have raised : (popsStackPointer.next {}).registers.stackPointer = 42 := by decide +kernel
  rcases @cycle_conforms {} popsStackPointer rfl rfl bounded with ⟨conforms, succeeds⟩
  rcases succeeds state step (by decide) rfl with ⟨alive, after, ok⟩
  have next_eq : popsStackPointer.next {} = after := by rw [next, ok]
  exact ⟨alive, after, ok, (conforms alive after ok).1, next_eq ▸ raised⟩

end Machine
end EightBit
