import EightBit.Proofs.Accesses

namespace EightBit

open Effect

/-!
# What an operation can change

An operation that succeeds does one of six things, whichever of the seventeen it
is.  These are the cases of `Operation.Changes`, and most properties of operations
look at these and not at the operations themselves.  It goes on behind the
operands that it has read, unless it is a jump that is taken.
-/

/-- The general register that the operand byte at a distance names. -/
def Registers.named? (registers : Registers) (memory : Memory) (distance : Int) : Option (Fin 8) :=
  (memory.byteAt? (registers.programCounter + distance)).bind fun byte =>
    Registers.slot? (Byte.toInt byte)

theorem Registers.named?_eq_some_iff (registers : Registers) (memory : Memory) (distance : Int)
    (slot : Fin 8) :
    registers.named? memory distance = some slot ↔
      ∃ byte, memory.byteAt? (registers.programCounter + distance) = some byte ∧
        Registers.slot? (Byte.toInt byte) = some slot :=
  Option.bind_eq_some_iff

theorem Registers.named?_of_operand {registers : Registers} {memory : Memory} {distance : Int}
    {byte : UInt8} {slot : Fin 8}
    (found : memory.byteAt? (registers.programCounter + distance) = some byte)
    (named : Registers.slot? (Byte.toInt byte) = some slot) :
    registers.named? memory distance = some slot :=
  (named?_eq_some_iff registers memory distance slot).mpr ⟨byte, found, named⟩

/-- Whether the first operand of an operation is a register that it writes.  A
division writes none if the divisor is zero. -/
def Operation.hasDestination : Operation → Bool
  | .ldi => true
  | .lds => true
  | .alu op => op ≠ .cmp
  | .pop => true
  | _ => false

/-- What an operation that succeeds can change. -/
inductive Operation.Changes (registers : Registers) (memory : Memory) :
    Operation → Effect → Prop where
  | nothing {operation : Operation} (outcome : Machine.Outcome) (notPsh : operation ≠ .psh)
      (notPop : operation ≠ .pop) :
      Changes registers memory operation ⟨registers, memory, none, outcome⟩
  | flag (equal : Bool) (outcome : Machine.Outcome) :
      Changes registers memory (.alu .cmp)
        ⟨{ registers with equalFlag := equal }, memory, none, outcome⟩
  | cell {operation : Operation} {slot : Fin 8} (value : Int) (outcome : Machine.Outcome)
      (destination : operation.hasDestination = true)
      (named : registers.named? memory 1 = some slot)
      (notPop : operation ≠ .pop) :
      Changes registers memory operation
        ⟨registers.setCell slot (Byte.low value), memory, none, outcome⟩
  | emission (value : Int) (outcome : Machine.Outcome) :
      Changes registers memory .prn ⟨registers, memory, some value, outcome⟩
  | pushed {slot : Fin 8} {stored : Memory} (outcome : Machine.Outcome)
      (named : registers.named? memory 1 = some slot)
      (stores : memory.store registers.lowered.stackPointer (registers.lowered.cell slot) =
        .ok stored) :
      Changes registers memory .psh ⟨registers.lowered, stored, none, outcome⟩
  | popped {slot : Fin 8} {byte : UInt8} (outcome : Machine.Outcome)
      (named : registers.named? memory 1 = some slot)
      (loads : memory.byteAt? registers.stackPointer = some byte) :
      Changes registers memory .pop
        ⟨(registers.setCell slot (Byte.low (Byte.toInt byte))).raised, memory, none, outcome⟩

theorem Alu.apply_cases (op : Alu.Op) (first second : Int) :
    (op = .cmp ∧ ∃ equal, Alu.apply op first second = { equal := some equal }) ∨
    (op ≠ .cmp ∧ Alu.apply op first second = {}) ∨
    (op ≠ .cmp ∧ ∃ value, Alu.apply op first second = { value := some value }) := by
  cases op with
  | cmp => exact Or.inl ⟨rfl, _, rfl⟩
  | div =>
      by_cases zero : Byte.low second = 0
      · exact Or.inr (Or.inl ⟨by decide, by simp [Alu.apply, zero]⟩)
      · exact Or.inr (Or.inr ⟨by decide, _, by simp only [Alu.apply, if_neg zero]; rfl⟩)
  | add => exact Or.inr (Or.inr ⟨by decide, _, rfl⟩)
  | sub => exact Or.inr (Or.inr ⟨by decide, _, rfl⟩)
  | mul => exact Or.inr (Or.inr ⟨by decide, _, rfl⟩)
  | inc => exact Or.inr (Or.inr ⟨by decide, _, rfl⟩)
  | dec => exact Or.inr (Or.inr ⟨by decide, _, rfl⟩)

/-- Writing what an arithmetic operation gives changes a flag, a cell or
nothing. -/
theorem Operation.changes_of_writeResultTo {registers after : Registers} {memory : Memory}
    {op : Alu.Op} {first second : Int} {byte : UInt8} (outcome : Machine.Outcome)
    (found : memory.byteAt? (registers.programCounter + 1) = some byte)
    (written : writeResultTo registers (Byte.toInt byte) (Alu.apply op first second) = .ok after) :
    Changes registers memory (.alu op) ⟨after, memory, none, outcome⟩ := by
  rcases Alu.apply_cases op first second with
    ⟨rfl, equal, applied⟩ | ⟨_, applied⟩ | ⟨notCmp, value, applied⟩
  · rw [applied] at written
    cases written
    exact .flag equal outcome
  · rw [applied] at written
    cases written
    exact .nothing outcome (by simp) (by simp)
  · simp only [applied, writeResultTo, bind_eq_ok_iff, pure_eq_ok_iff, writeTo_eq_ok_iff] at written
    rcases written with ⟨_, ⟨slot, named, rfl⟩, rfl⟩
    exact .cell value outcome (by simp [hasDestination, notCmp])
      (Registers.named?_of_operand found named) (by simp)

/-- An operation that succeeds has changed what it can change. -/
theorem Operation.changes_of_effect {registers : Registers} {memory : Memory}
    {operation : Operation} {effect : Effect}
    (succeeded : operation.effect registers memory = .ok effect) :
    Changes registers memory operation effect := by
  refine ensured succeeded ?_
  cases operation with
  | nop => exact .nothing _ (by decide) (by decide)
  | hlt => exact .nothing _ (by decide) (by decide)
  | ldi =>
      intro index found value _ slot named
      exact .cell _ _ rfl (Registers.named?_of_operand found named) (by decide)
  | lds =>
      intro target found source _ origin _ slot named
      exact .cell _ _ rfl (Registers.named?_of_operand found named) (by decide)
  | alu op =>
      rw [script]
      split
      · intro index found slot _ written writes
        exact changes_of_writeResultTo _ found writes
      · intro first found second _ target _ source _ written writes
        exact changes_of_writeResultTo _ found writes
  | jump condition =>
      intro index _
      refine ⟨fun _ slot _ => ?_, fun _ => ?_⟩
      · exact .nothing _ (by simp) (by simp)
      · exact .nothing _ (by simp) (by simp)
  | psh =>
      intro index found slot named stored stores
      exact .pushed _ (Registers.named?_of_operand found named) stores
  | pop =>
      intro index found byte loads slot named
      exact .popped _ (Registers.named?_of_operand found named) loads
  | prn =>
      intro index _ slot _
      exact .emission _ _

/-- A comparison reads both registers before it sets the flag. -/
theorem Operation.effect_cmp {registers : Registers} {memory : Memory} {effect : Effect}
    (succeeded : (Operation.alu .cmp).effect registers memory = .ok effect) :
    ∃ first second, registers.named? memory 1 = some first ∧
      registers.named? memory 2 = some second ∧
      effect = goOn { registers with
        equalFlag := decide (Byte.low (registers.cell first) = Byte.low (registers.cell second)) }
        memory 3 := by
  refine ensured succeeded ?_
  intro first found second found' target named source named' written writes
  cases writes
  exact ⟨target, source, Registers.named?_of_operand found named,
    Registers.named?_of_operand found' named', rfl⟩

/-!
## Where an operation goes on
-/

theorem Effect.programCounter_of_writeResultTo {registers after : Registers} {index : Int}
    {result : Alu.Result} (written : writeResultTo registers index result = .ok after) :
    after.programCounter = registers.programCounter := by
  cases result with
  | mk value equal =>
      cases value with
      | none => cases equal <;> cases written <;> rfl
      | some value =>
          simp only [writeResultTo, bind_eq_ok_iff, pure_eq_ok_iff, writeTo_eq_ok_iff] at written
          rcases written with ⟨_, ⟨slot, _, rfl⟩, rfl⟩
          cases equal <;> rfl

/-- An operation that succeeds goes on behind the operands that it has read, unless
it is a jump that is taken. -/
theorem Operation.next_of_effect {registers : Registers} {memory : Memory}
    {operation : Operation} {effect : Effect}
    (inside : memory.Contains registers.programCounter)
    (succeeded : operation.effect registers memory = .ok effect) :
    (∃ condition slot, operation = .jump condition ∧
      condition.holds registers.equalFlag = true ∧ registers.named? memory 1 = some slot ∧
      effect.outcome.next = registers.cell slot) ∨
    (effect.outcome.next = registers.programCounter + (operation.operandCount + 1 : Nat) ∧
      memory.Contains (registers.programCounter + operation.operandCount)) := by
  refine ensured succeeded ?_
  cases operation with
  | nop => exact Or.inr ⟨rfl, by simpa [operandCount] using inside⟩
  | hlt => exact Or.inr ⟨rfl, by simpa [operandCount] using inside⟩
  | ldi =>
      intro index _ value found slot _
      exact Or.inr ⟨rfl, Memory.contains_of_byteAt? found⟩
  | lds =>
      intro target _ source found origin _ slot _
      exact Or.inr ⟨rfl, Memory.contains_of_byteAt? found⟩
  | alu op =>
      rw [script, operandCount]
      split
      · intro index found slot _ written writes
        exact Or.inr ⟨congrArg (· + 2) (programCounter_of_writeResultTo writes),
          Memory.contains_of_byteAt? found⟩
      · intro first _ second found target _ source _ written writes
        exact Or.inr ⟨congrArg (· + 3) (programCounter_of_writeResultTo writes),
          Memory.contains_of_byteAt? found⟩
  | jump condition =>
      intro index found
      refine ⟨fun taken slot named => Or.inl ?_, fun _ => Or.inr ?_⟩
      · exact ⟨condition, slot, rfl, taken, Registers.named?_of_operand found named, rfl⟩
      · exact ⟨rfl, Memory.contains_of_byteAt? found⟩
  | psh =>
      intro index found slot _ stored _
      exact Or.inr ⟨rfl, Memory.contains_of_byteAt? found⟩
  | pop =>
      intro index found byte _ slot _
      exact Or.inr ⟨rfl, Memory.contains_of_byteAt? found⟩
  | prn =>
      intro index found slot _
      exact Or.inr ⟨rfl, Memory.contains_of_byteAt? found⟩

/-- No operation but one halts the machine. -/
theorem Operation.goesOn_of_effect {registers : Registers} {memory : Memory}
    {operation : Operation} {effect : Effect} (notHlt : operation ≠ .hlt)
    (succeeded : operation.effect registers memory = .ok effect) :
    effect.outcome.halts = false := by
  refine ensured succeeded ?_
  cases operation with
  | hlt => exact absurd rfl notHlt
  | alu op => cases unary : op.isUnary <;> simp [script, unary, Script.Ensures, goOn]
  | _ => simp [script, Script.Ensures, goOn]

/-- An operation that has a value for the device is an emission, and does nothing
else. -/
theorem Operation.effect_of_emission {registers : Registers} {memory : Memory}
    {operation : Operation} {effect : Effect} {value : Int}
    (succeeded : operation.effect registers memory = .ok effect)
    (emitted : effect.emission = some value) :
    operation = .prn ∧ effect.registers = registers ∧ effect.memory = memory := by
  cases changes_of_effect succeeded with
  | emission => exact ⟨rfl, rfl, rfl⟩
  | nothing => cases emitted
  | flag => cases emitted
  | cell => cases emitted
  | pushed => cases emitted
  | popped => cases emitted

namespace Registers

@[simp] theorem stackPointer_setCell (registers : Registers) (slot : Fin 8) (value : Int) :
    (registers.setCell slot value).stackPointer =
      if stackSlot = slot then value else registers.stackPointer :=
  cell_setCell registers slot stackSlot value

@[simp] theorem cell_lowered (registers : Registers) (slot : Fin 8) :
    registers.lowered.cell slot =
      if slot = stackSlot then Byte.low (registers.stackPointer - 1) else registers.cell slot :=
  cell_setCell registers stackSlot slot _

@[simp] theorem cell_raised (registers : Registers) (slot : Fin 8) :
    registers.raised.cell slot =
      if slot = stackSlot then Byte.low (registers.stackPointer + 1) else registers.cell slot :=
  cell_setCell registers stackSlot slot _

@[simp] theorem stackPointer_lowered (registers : Registers) :
    registers.lowered.stackPointer = Byte.low (registers.stackPointer - 1) := by
  simp [stackPointer]

@[simp] theorem stackPointer_raised (registers : Registers) :
    registers.raised.stackPointer = Byte.low (registers.stackPointer + 1) := by
  simp [stackPointer]

/-- Every general register holds a byte.  Registers that were set from outside
need not be bounded. -/
def Bounded (registers : Registers) : Prop :=
  ∀ slot, 0 ≤ registers.cell slot ∧ registers.cell slot < 256

instance (registers : Registers) : Decidable registers.Bounded :=
  inferInstanceAs (Decidable (∀ _, _ ∧ _))

theorem cell_of_general {registers other : Registers} (same : registers.general = other.general)
    (slot : Fin 8) : registers.cell slot = other.cell slot := by
  rw [cell, cell, same]

theorem Bounded.of_general {registers other : Registers}
    (same : registers.general = other.general) (bounded : other.Bounded) :
    registers.Bounded := by
  intro slot
  rw [cell_of_general same]
  exact bounded slot

theorem Bounded.setCell {registers : Registers} (bounded : registers.Bounded) (slot : Fin 8)
    (value : Int) : (registers.setCell slot (Byte.low value)).Bounded := by
  intro other
  rw [cell_setCell]
  split
  · exact ⟨Byte.low_nonneg value, Byte.low_lt value⟩
  · exact bounded other

theorem Bounded.lowered {registers : Registers} (bounded : registers.Bounded) :
    registers.lowered.Bounded :=
  bounded.setCell stackSlot _

theorem Bounded.raised {registers : Registers} (bounded : registers.Bounded) :
    registers.raised.Bounded :=
  bounded.setCell stackSlot _

end Registers

/-- No operation touches the instruction register. -/
theorem Operation.Changes.instructionRegister {registers : Registers} {memory : Memory}
    {operation : Operation} {effect : Effect}
    (changes : Changes registers memory operation effect) :
    effect.registers.instructionRegister = registers.instructionRegister := by
  cases changes <;> rfl

/-- Only a push writes memory. -/
theorem Operation.Changes.memory_of_ne {registers : Registers} {memory : Memory}
    {operation : Operation} {effect : Effect}
    (changes : Changes registers memory operation effect) (notPsh : operation ≠ .psh) :
    effect.memory = memory := by
  cases changes with
  | pushed => exact absurd rfl notPsh
  | nothing => rfl
  | flag => rfl
  | cell => rfl
  | emission => rfl
  | popped => rfl

/-- Only a comparison sets the flag. -/
theorem Operation.Changes.equalFlag_of_ne {registers : Registers} {memory : Memory}
    {operation : Operation} {effect : Effect}
    (changes : Changes registers memory operation effect) (notCmp : operation ≠ .alu .cmp) :
    effect.registers.equalFlag = registers.equalFlag := by
  cases changes with
  | flag => exact absurd rfl notCmp
  | nothing => rfl
  | cell => rfl
  | emission => rfl
  | pushed => rfl
  | popped => rfl

/-- Memories neither grow nor shrink. -/
theorem Operation.Changes.length {registers : Registers} {memory : Memory}
    {operation : Operation} {effect : Effect}
    (changes : Changes registers memory operation effect) :
    effect.memory.length = memory.length := by
  cases changes with
  | pushed _ _ stores => exact Memory.length_store stores
  | nothing => rfl
  | flag => rfl
  | cell => rfl
  | emission => rfl
  | popped => rfl

/-- Operations cut to bytes what they write. -/
theorem Operation.Changes.bounded {registers : Registers} {memory : Memory}
    {operation : Operation} {effect : Effect} (changes : Changes registers memory operation effect)
    (bounded : registers.Bounded) : effect.registers.Bounded := by
  cases changes with
  | nothing => exact bounded
  | flag => exact bounded
  | cell value => exact bounded.setCell _ value
  | emission => exact bounded
  | pushed => exact bounded.lowered
  | popped => exact (bounded.setCell _ _).raised

end EightBit
