import EightBit.Proofs.StraightLine

namespace EightBit

/-!
# A push and the pop behind it

A pop right behind a push of the same register gives back all registers.  The pop writes
what the register holds already: the byte that was stored is that of the register with the
stack pointer lowered, and nothing has changed since.  So all that is left is to raise the
stack pointer again, and this is the same argument for the stack pointer itself, which is
pushed after it was lowered and popped before it is raised.

What the push stores must not land on the pop, which is fetched afterwards.  The push may
overwrite itself.
-/

namespace Registers

theorem general_ext {registers other : Registers}
    (same : ∀ slot, registers.cell slot = other.cell slot) : registers.general = other.general := by
  apply Vector.ext
  intro index inside
  exact same ⟨index, inside⟩

/-- A cell that is given what it holds stays as it is. -/
@[simp] theorem setCell_cell (registers : Registers) (slot : Fin 8) :
    registers.setCell slot (registers.cell slot) = registers := by
  have general : (registers.setCell slot (registers.cell slot)).general = registers.general := by
    apply general_ext
    intro other
    by_cases same : other = slot <;> simp [same]
  exact congrArg (fun cells => { registers with general := cells }) general

/-- Raising the stack pointer undoes lowering it, also where it goes around. -/
@[simp] theorem general_raised_lowered {registers : Registers} (bounded : registers.Bounded) :
    registers.lowered.raised.general = registers.general := by
  apply general_ext
  intro slot
  have bounds := bounded stackSlot
  have around : Byte.low (Byte.low (registers.stackPointer - 1) + 1) =
      registers.cell stackSlot := by
    simp only [Byte.low, stackPointer]
    omega
  by_cases same : slot = stackSlot
  · simp [same, around]
  · simp [same]

end Registers

namespace Operation

variable {registers : Registers} {memory : Memory} {slot : Fin 8}

theorem effect_psh {stored : Memory} (named : registers.named? memory 1 = some slot)
    (stores : memory.store registers.lowered.stackPointer (registers.lowered.cell slot) =
      .ok stored) :
    effect registers memory .psh = .ok (.goOn registers.lowered stored 2) := by
  rcases (Registers.named?_eq_some_iff registers memory 1 slot).mp named with ⟨byte, found, index⟩
  simp only [Registers.cell_lowered, Registers.stackPointer_lowered] at stores
  simp [effect, found, index, stores]

theorem effect_pop {byte : UInt8} (named : registers.named? memory 1 = some slot)
    (loads : memory.byteAt? registers.stackPointer = some byte) :
    effect registers memory .pop =
      .ok (.goOn (registers.setCell slot (Byte.low (Byte.toInt byte))).raised memory 2) := by
  rcases (Registers.named?_eq_some_iff registers memory 1 slot).mp named with ⟨name, found, index⟩
  simp [effect, found, index, loads]

end Operation

namespace Machine

open StraightLine

variable {wiring : Wiring} {machine : Machine} {slot : Fin 8}

/-- The next cycle succeeds, and the machine can go on with these registers and this
memory. -/
structure StepsTo (wiring : Wiring) (machine : Machine) (registers : Registers)
    (memory : Memory) (after : Machine) : Prop where
  cycle : Machine.cycle wiring machine = .ok true after
  running : after.halted = false
  registers : after.registers = registers
  memory : after.memory = memory

/-- A machine that stands at a statement steps as the effect of its operation says.  An effect
without a value for the device is not the device's concern. -/
theorem stepsTo_of_effect (statement : Statement) {effect : Effect}
    (standard : wiring.table = .standard) (running : machine.halted = false)
    (fetched : machine.memory.byteAt? machine.registers.programCounter =
      some statement.opcode.byte)
    (executed : statement.code.operation.effect
      { machine.registers with instructionRegister := Byte.toInt statement.opcode.byte }
      machine.memory = .ok effect)
    (silent : effect.emission = none) (goesOn : effect.outcome.halts = false) :
    ∃ after, machine.StepsTo wiring
      { effect.registers with programCounter := effect.outcome.next } effect.memory after := by
  rcases statement.find?_byte with ⟨instruction, found, operation_eq⟩
  rw [← operation_eq] at executed
  rw [← standard] at found
  let commit := effect.outcome.commit machine.registers.programCounter statement.opcode.byte
    instruction.mnemonic
  have planned : machine.plan wiring = .ok ⟨commit, effect⟩ :=
    InstructionTable.plan_of_effect wiring.strict fetched found executed
  have taken : machine.refuses wiring.device effect.emission = false := by
    rw [silent, refuses, Option.isSome_none, Bool.false_and]
  rcases cycle_of_taken wiring running planned taken with ⟨journal, ended⟩
  have settled : ((machine.left wiring.device effect journal).settle commit).halted = false := by
    simp [running, commit, Outcome.commit, goesOn]
  refine ⟨_, ?_, settled, rfl, rfl⟩
  exact ended.trans (congrArg (EStateM.Result.ok · _) (congrArg not settled))

/-- The operand byte that names a register. -/
theorem named?_of_registerByte {registers : Registers} {memory : Memory}
    (found : memory.byteAt? (registers.programCounter + 1) = some (registerByte slot)) :
    registers.named? memory 1 = some slot := by
  apply Registers.named?_of_operand found
  rw [Registers.slot?_eq_some_iff]
  exact congrArg Int.ofNat (toNat_registerByte slot)

/-- A push lowers the stack pointer and stores the register as it is then. -/
theorem stepsTo_push (standard : wiring.table = .standard) (running : machine.halted = false)
    (placed : Placed machine.memory.byteAt? machine.registers.programCounter
      [0x0A, registerByte slot])
    {stored : Memory}
    (stores : machine.memory.store machine.registers.lowered.stackPointer
      (machine.registers.lowered.cell slot) = .ok stored) :
    ∃ after, machine.StepsTo wiring
      { machine.registers.lowered with
        programCounter := machine.registers.programCounter + 2
        instructionRegister := 0x0A } stored after := by
  let held := { machine.registers with instructionRegister := 0x0A }
  have named : held.named? machine.memory 1 = some slot := named?_of_registerByte (placed 1 _ rfl)
  have executed := Operation.effect_psh named stores
  exact stepsTo_of_effect (.psh slot) standard running placed.head executed rfl rfl

/-- A pop writes the byte at the stack pointer and raises the stack pointer. -/
theorem stepsTo_pop (standard : wiring.table = .standard) (running : machine.halted = false)
    (placed : Placed machine.memory.byteAt? machine.registers.programCounter
      [0x0B, registerByte slot])
    {byte : UInt8}
    (loads : machine.memory.byteAt? machine.registers.stackPointer = some byte) :
    ∃ after, machine.StepsTo wiring
      { (machine.registers.setCell slot (Byte.low (Byte.toInt byte))).raised with
        programCounter := machine.registers.programCounter + 2
        instructionRegister := 0x0B } machine.memory after := by
  let held := { machine.registers with instructionRegister := 0x0B }
  have named : held.named? machine.memory 1 = some slot := named?_of_registerByte (placed 1 _ rfl)
  have executed := Operation.effect_pop named loads
  exact stepsTo_of_effect (.pop slot) standard running placed.head executed rfl rfl

/-- A push and a pop of the same register give back all registers, whichever register it is and
wherever the stack pointer stands.  The pop is fetched from what the push has left, and writes
to the register what is there already.  Only the cell that was pushed to can have changed.  It
holds the register, or its own address if that is the stack pointer. -/
theorem popped_after_pushed (standard : wiring.table = .standard)
    (running : machine.halted = false) (bounded : machine.registers.Bounded)
    (placed : Placed machine.memory.byteAt? machine.registers.programCounter
      [0x0A, registerByte slot, 0x0B, registerByte slot])
    (inside : (machine.registers.stackPointer - 1) % 256 < machine.memory.length)
    (apart : (machine.registers.stackPointer - 1) % 256 ≠ machine.registers.programCounter + 2 ∧
      (machine.registers.stackPointer - 1) % 256 ≠ machine.registers.programCounter + 3) :
    let top := (machine.registers.stackPointer - 1) % 256
    ∃ pushed popped,
      cycle wiring machine = .ok true pushed ∧ cycle wiring pushed = .ok true popped ∧
      popped.registers.general = machine.registers.general ∧
      popped.registers.equalFlag = machine.registers.equalFlag ∧
      popped.registers.programCounter = machine.registers.programCounter + 4 ∧
      popped.memory.length = machine.memory.length ∧
      (∀ address, address ≠ top →
        popped.memory.byteAt? address = machine.memory.byteAt? address) ∧
      (popped.memory.byteAt? top).map Byte.toInt =
        some (if slot = Registers.stackSlot then top else machine.registers.cell slot) := by
  intro top
  have pointer : machine.registers.lowered.stackPointer = top :=
    Registers.stackPointer_lowered machine.registers
  have contained : machine.memory.Contains machine.registers.lowered.stackPointer :=
    pointer ▸ ⟨Int.emod_nonneg _ (by decide), inside⟩
  rcases Memory.store_of_contains contained (machine.registers.lowered.cell slot) with
    ⟨stored, stores⟩
  have cells := Memory.byteAt?_store stores
  rw [pointer] at cells
  have parts : Placed machine.memory.byteAt? machine.registers.programCounter
      ([0x0A, registerByte slot] ++ [0x0B, registerByte slot]) := placed
  rcases stepsTo_push standard running parts.left stores with ⟨pushed, push⟩
  have behind : Placed pushed.memory.byteAt? pushed.registers.programCounter
      [0x0B, registerByte slot] := by
    rw [push.memory, push.registers]
    apply parts.right.of_same
    intro address lower upper
    rw [cells, if_neg]
    rintro rfl
    simp only [List.length_cons, List.length_nil] at lower upper
    omega
  have lowered := bounded.lowered slot
  have value : Byte.toInt (Byte.ofInt (machine.registers.lowered.cell slot)) =
      machine.registers.lowered.cell slot := by
    rw [Byte.toInt_ofInt, Byte.low_eq_self lowered.1 lowered.2]
  have loads : pushed.memory.byteAt? pushed.registers.stackPointer =
      some (Byte.ofInt (machine.registers.lowered.cell slot)) := by
    rw [push.memory, push.registers]
    exact (cells _).trans (if_pos pointer)
  rcases stepsTo_pop standard push.running behind loads with ⟨popped, pop⟩
  refine ⟨pushed, popped, push.cycle, pop.cycle, ?_⟩
  rw [pop.memory, pop.registers, push.memory, push.registers]
  refine ⟨?_, rfl, ?_, Memory.length_store stores, ?_, ?_⟩
  · rw [value, Byte.low_eq_self lowered.1 lowered.2]
    change (machine.registers.lowered.setCell slot
      (machine.registers.lowered.cell slot)).raised.general = machine.registers.general
    rw [Registers.setCell_cell]
    exact Registers.general_raised_lowered bounded
  · exact Int.add_assoc _ 2 2
  · intro address other
    rw [cells, if_neg other]
  · rw [cells, if_pos rfl, Option.map_some, value]
    exact congrArg some (Registers.cell_lowered machine.registers slot)

/-- A machine with its stack pointer at zero that pushes and pops the stack pointer. -/
def pushesPointerAroundZero : Machine where
  memory := ⟨⟨0x0A :: 7 :: 0x0B :: 7 :: List.replicate 252 0⟩, by decide +kernel⟩
  registers := Registers.powerOn.setCell Registers.stackSlot 0

/-- The stack pointer goes around and comes back.  The last cell has its own address. -/
theorem popped_after_pushed_aroundZero :
    ∃ pushed popped, cycle {} pushesPointerAroundZero = .ok true pushed ∧
      cycle {} pushed = .ok true popped ∧ popped.registers.stackPointer = 0 ∧
      (popped.memory.byteAt? 255).map Byte.toInt = some 255 := by
  have placed : Placed pushesPointerAroundZero.memory.byteAt?
      pushesPointerAroundZero.registers.programCounter
      [0x0A, registerByte Registers.stackSlot, 0x0B, registerByte Registers.stackSlot] := by
    decide +kernel
  rcases @popped_after_pushed {} pushesPointerAroundZero Registers.stackSlot rfl rfl
    (by decide +kernel) placed (by decide +kernel) (by decide +kernel) with
    ⟨pushed, popped, push, pop, general, _, _, _, _, stored⟩
  exact ⟨pushed, popped, push, pop, Registers.cell_of_general general _, stored⟩

end Machine
end EightBit
