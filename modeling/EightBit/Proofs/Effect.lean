import EightBit.Machine.Cycle

namespace EightBit

/-!
# Effects of operations

What an operation does depends on the registers and the memory alone.  The
counters of the machine, its trace and its journal have no say in it, and the
device is only given a value at the end.  An effect is an operation told on
registers and memory, without a machine around it.
-/

namespace Memory

theorem contains_of_byteAt? {memory : Memory} {address : Int} {byte : UInt8}
    (found : memory.byteAt? address = some byte) : memory.Contains address := by
  apply Decidable.byContradiction
  intro outside
  rw [(byteAt?_eq_none_iff memory address).mpr outside] at found
  cases found

theorem byteAt?_of_contains {memory : Memory} {address : Int} (inside : memory.Contains address) :
    ∃ byte, memory.byteAt? address = some byte := by
  cases found : memory.byteAt? address with
  | some byte => exact ⟨byte, rfl⟩
  | none => exact absurd inside ((byteAt?_eq_none_iff memory address).mp found)

theorem Contains.of_length {memory other : Memory} {address : Int}
    (inside : memory.Contains address) (length : other.length = memory.length) :
    other.Contains address :=
  ⟨inside.1, length ▸ inside.2⟩

theorem store_of_contains {memory : Memory} {address : Int} (inside : memory.Contains address)
    (value : Int) : ∃ stored, memory.store address value = .ok stored :=
  ⟨_, dif_pos inside⟩

theorem contains_of_store {memory stored : Memory} {address value : Int}
    (stores : memory.store address value = .ok stored) : memory.Contains address := by
  unfold store at stores
  split at stores
  · assumption
  · cases stores

end Memory

/-- What an operation that fails leaves behind: why it failed, which is always
a trap, and the registers.  The memory is as it was. -/
structure Failure where
  fault : Fault
  registers : Registers
  isTrap : fault.isTrap = true
deriving DecidableEq

/-- What an operation that succeeds leaves behind: the registers, the memory,
the value for the device, if there is one, and where to go on. -/
structure Effect where
  registers : Registers
  memory : Memory
  emission : Option Int := none
  outcome : Machine.Outcome
deriving DecidableEq

def Registers.lowered (registers : Registers) : Registers :=
  registers.setStackPointer (registers.stackPointer - 1)

def Registers.raised (registers : Registers) : Registers :=
  registers.setStackPointer (registers.stackPointer + 1)

namespace Effect

/-- Nothing but going on behind an opcode and its operands. -/
def goOn (registers : Registers) (memory : Memory) (width : Int) : Effect where
  registers
  memory
  outcome := { next := registers.programCounter + width }

def loadAt (registers : Registers) (memory : Memory) (address : Int) : Except Failure UInt8 :=
  match memory.load address with
  | .ok byte => .ok byte
  | .error error => .error ⟨.address error, registers, rfl⟩

def operandAt (registers : Registers) (memory : Memory) (distance : Int) :
    Except Failure Int := do
  return Byte.toInt (← loadAt registers memory (registers.programCounter + distance))

def storeAt (registers : Registers) (memory : Memory) (address value : Int) :
    Except Failure Memory :=
  match memory.store address value with
  | .ok after => .ok after
  | .error error => .error ⟨.address error, registers, rfl⟩

def readFrom (registers : Registers) (index : Int) : Except Failure Int :=
  match registers.get index with
  | .ok value => .ok value
  | .error error => .error ⟨.register error, registers, rfl⟩

def writeTo (registers : Registers) (index value : Int) : Except Failure Registers :=
  match registers.set index value with
  | .ok after => .ok after
  | .error error => .error ⟨.register error, registers, rfl⟩

def writeResultTo (registers : Registers) (index : Int) (result : Alu.Result) :
    Except Failure Registers := do
  let written ←
    match result.value with
    | some value => writeTo registers index value
    | none => .ok registers
  return match result.equal with
    | some equal => { written with equalFlag := equal }
    | none => written

/-!
## When a step of an effect succeeds
-/

@[simp] theorem bind_eq_ok_iff {first : Except Failure α} {rest : α → Except Failure β}
    {result : β} :
    (first >>= rest) = .ok result ↔ ∃ value, first = .ok value ∧ rest value = .ok result := by
  cases first <;> simp [Bind.bind, Except.bind]

@[simp] theorem pure_eq_ok_iff {value result : α} :
    (pure value : Except Failure α) = .ok result ↔ value = result := by
  simp [pure, Except.pure]

@[simp] theorem map_eq_ok_iff {found : Except Failure α} {change : α → β} {result : β} :
    change <$> found = .ok result ↔ ∃ value, found = .ok value ∧ change value = result := by
  cases found <;> simp [Functor.map, Except.map]

@[simp] theorem loadAt_eq_ok_iff (registers : Registers) (memory : Memory) (address : Int)
    (byte : UInt8) :
    loadAt registers memory address = .ok byte ↔ memory.byteAt? address = some byte := by
  rw [← Memory.load_eq_ok_iff, loadAt]
  cases memory.load address <;> simp

@[simp] theorem operandAt_eq_ok_iff (registers : Registers) (memory : Memory)
    (distance value : Int) :
    operandAt registers memory distance = .ok value ↔
      ∃ byte, memory.byteAt? (registers.programCounter + distance) = some byte ∧
        Byte.toInt byte = value := by
  simp [operandAt]

@[simp] theorem storeAt_eq_ok_iff (registers : Registers) (memory after : Memory)
    (address value : Int) :
    storeAt registers memory address value = .ok after ↔
      memory.store address value = .ok after := by
  rw [storeAt]
  cases memory.store address value <;> simp

@[simp] theorem readFrom_eq_ok_iff (registers : Registers) (index value : Int) :
    readFrom registers index = .ok value ↔
      ∃ slot, Registers.slot? index = some slot ∧ registers.cell slot = value := by
  rw [readFrom, Registers.get]
  cases Registers.slot? index <;> simp

@[simp] theorem writeTo_eq_ok_iff (registers after : Registers) (index value : Int) :
    writeTo registers index value = .ok after ↔
      ∃ slot, Registers.slot? index = some slot ∧
        registers.setCell slot (Byte.low value) = after := by
  rw [writeTo, Registers.set]
  cases Registers.slot? index <;> simp

end Effect

open Effect

/-- The effect of an operation on registers and memory.  The stack pointer is
lowered before the pushed register is read, so that a failing push leaves it
lowered. -/
def Operation.effect (registers : Registers) (memory : Memory) :
    Operation → Except Failure Effect
  | .nop => .ok (goOn registers memory 1)
  | .hlt => .ok {
      registers, memory, outcome := { next := registers.programCounter + 1, halts := true } }
  | .ldi => do
    let index ← operandAt registers memory 1
    let value ← operandAt registers memory 2
    return goOn (← writeTo registers index value) memory 3
  | .lds => do
    let target ← operandAt registers memory 1
    let source ← operandAt registers memory 2
    let value ← readFrom registers source
    return goOn (← writeTo registers target value) memory 3
  | .alu op =>
    if op.isUnary then do
      let index ← operandAt registers memory 1
      let value ← readFrom registers index
      return goOn (← writeResultTo registers index (Alu.apply op value 0)) memory 2
    else do
      let first ← operandAt registers memory 1
      let second ← operandAt registers memory 2
      let a ← readFrom registers first
      let b ← readFrom registers second
      return goOn (← writeResultTo registers first (Alu.apply op a b)) memory 3
  | .jump condition => do
    let index ← operandAt registers memory 1
    if condition.holds registers.equalFlag then
      return { registers, memory, outcome := { next := ← readFrom registers index } }
    else return goOn registers memory 2
  | .psh => do
    let index ← operandAt registers memory 1
    let lowered := registers.lowered
    let value ← readFrom lowered index
    return goOn lowered (← storeAt lowered memory lowered.stackPointer value) 2
  | .pop => do
    let index ← operandAt registers memory 1
    let value ← loadAt registers memory registers.stackPointer
    let written ← writeTo registers index (Byte.toInt value)
    return goOn written.raised memory 2
  | .prn => do
    let index ← operandAt registers memory 1
    let value ← readFrom registers index
    return { goOn registers memory 2 with emission := some value }

end EightBit
