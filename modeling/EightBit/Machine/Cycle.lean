import EightBit.Machine

namespace EightBit
namespace Machine

/-!
# Cycles

A cycle fetches the byte at the program counter, finds its instruction and
executes the operation.  The program counter moves only when all of that has
succeeded.  A fault leaves what was done before it, which is at most a fetched
opcode and a decremented stack pointer.
-/

/-- Where an operation goes on, and whether it halts the machine. -/
structure Outcome where
  next : Int
  halts : Bool := false
deriving DecidableEq, Repr

/-- The operand byte at a distance from the opcode, as a number. -/
def operand (distance : Int) : Exec Int := do
  return Byte.toInt (← loadByte ((← get).registers.programCounter + distance))

/-- Goes on behind an opcode and its operands. -/
def advance (width : Int) : Exec Outcome := do
  return { next := (← get).registers.programCounter + width }

def modifyRegisters (change : Registers → Registers) : Exec Unit :=
  modify fun machine => { machine with registers := change machine.registers }

/-- The machine after a value was given to the output device, which may have
asked for a pause. -/
def emitted (machine : Machine) (device : Nat → Reply) (value : Int) : Machine :=
  let emission : Emission := {
    value
    running := machine.running
    programCounter := machine.registers.programCounter
    cycles := machine.cycles }
  { machine with
    emissions := machine.emissions.push emission
    running := machine.running && !(device machine.emissions.size).stops }

/-- Gives a value to the output device.  The value counts as emitted even when
the device fails. -/
def emit (device : Nat → Reply) (value : Int) : Exec Unit := do
  let reply := device (← get).emissions.size
  modify fun machine => machine.emitted device value
  if reply.fails then throw .output

theorem operand_eq (distance : Int) (machine : Machine) :
    operand distance machine =
      match loadByte (machine.registers.programCounter + distance) machine with
      | .ok byte after => .ok (Byte.toInt byte) after
      | .error fault after => .error fault after := by
  have unfolded : operand distance machine =
      EStateM.bind (loadByte (machine.registers.programCounter + distance))
        (fun byte => pure (Byte.toInt byte)) machine := rfl
  rw [unfolded, EStateM.bind]
  cases loadByte (machine.registers.programCounter + distance) machine <;> rfl

@[simp] theorem modifyRegisters_eq (change : Registers → Registers) (machine : Machine) :
    modifyRegisters change machine =
      .ok () { machine with registers := change machine.registers } :=
  rfl

theorem emit_eq (device : Nat → Reply) (value : Int) (machine : Machine) :
    emit device value machine =
      if (device machine.emissions.size).fails then .error .output (machine.emitted device value)
      else .ok () (machine.emitted device value) := by
  have unfolded : emit device value machine =
      (if (device machine.emissions.size).fails then throw .output else pure () : Exec Unit)
        (machine.emitted device value) := rfl
  rw [unfolded]
  split <;> rfl

/-- Writes what an arithmetic operation gives: its value to a register and the
answer of a comparison to the flag. -/
def writeResult (register : Int) (result : Alu.Result) : Exec Unit := do
  match result.value with
  | some value => writeRegister register value
  | none => pure ()
  match result.equal with
  | some equal => modifyRegisters fun registers => { registers with equalFlag := equal }
  | none => pure ()

/-- Executes an operation.  Operands are fetched first, each from its own
address. -/
def execute (device : Nat → Reply) : Operation → Exec Outcome
  | .nop => advance 1
  | .hlt => do
    return { next := (← advance 1).next, halts := true }
  | .ldi => do
    let register ← operand 1
    let value ← operand 2
    writeRegister register value
    advance 3
  | .lds => do
    let target ← operand 1
    let source ← operand 2
    writeRegister target (← readRegister source)
    advance 3
  | .alu op =>
    if op.isUnary then do
      let register ← operand 1
      writeResult register (Alu.apply op (← readRegister register) 0)
      advance 2
    else do
      let first ← operand 1
      let second ← operand 2
      writeResult first (Alu.apply op (← readRegister first) (← readRegister second))
      advance 3
  | .jump condition => do
    let register ← operand 1
    if condition.holds (← get).registers.equalFlag then
      return { next := ← readRegister register }
    else advance 2
  | .psh => do
    let register ← operand 1
    modifyRegisters fun registers => registers.setStackPointer (registers.stackPointer - 1)
    let value ← readRegister register
    storeByte (← get).registers.stackPointer value
    advance 2
  | .pop => do
    let register ← operand 1
    let value ← loadByte (← get).registers.stackPointer
    writeRegister register (Byte.toInt value)
    modifyRegisters fun registers => registers.setStackPointer (registers.stackPointer + 1)
    advance 2
  | .prn => do
    let register ← operand 1
    emit device (← readRegister register)
    advance 2

/-- What a cycle commits when it has succeeded: where it began, what it
fetched, where to go on, and whether the machine halts.  The remark is for the
trace. -/
structure Commit where
  pc : Int
  opcode : UInt8
  mnemonic : String
  next : Int
  halts : Bool
  remark : String := ""
deriving DecidableEq, Repr

/-- Fetches an opcode and executes its instruction.  A byte without instruction
is a fault for a strict machine; any other machine halts in place. -/
def attempt (wiring : Wiring) : Exec Commit := do
  let pc := (← get).registers.programCounter
  let opcode ← loadByte pc
  modifyRegisters fun registers => { registers with instructionRegister := Byte.toInt opcode }
  match wiring.table.find? opcode with
  | some instruction =>
    note (.fetched pc opcode instruction.mnemonic)
    let outcome ← execute wiring.device instruction.operation
    return { pc, opcode, mnemonic := instruction.mnemonic, next := outcome.next,
             halts := outcome.halts }
  | none =>
    if wiring.strict then throw (.illegalOpcode opcode pc)
    note (.undefined pc opcode)
    return { pc, opcode, mnemonic := "", next := pc, halts := true, remark := "illegal" }

/-- Records the machine as it is after a commit. -/
def record (machine : Machine) (commit : Commit) : Machine :=
  { machine with
    trace := machine.trace.map fun trace =>
      trace.record machine.registers.general.toList machine.registers.equalFlag commit.pc
        (some (Byte.toInt commit.opcode)) machine.halted commit.mnemonic commit.remark }

def settle (machine : Machine) (commit : Commit) : Machine :=
  let settled := { machine with
    registers := { machine.registers with programCounter := commit.next }
    status := if commit.halts then .halted else machine.status
    cycles := machine.cycles + 1 }
  settled.record commit

/-- Ends a cycle that has failed.  A trap halts the machine; a failure of the
device does not. -/
def trap (machine : Machine) (fault : Fault) : Machine :=
  { machine with
    status := if fault.isTrap then .halted else machine.status
    cycles := machine.cycles + 1 }

/-- Executes one cycle and tells whether the machine can go on.  A machine that
has halted does nothing. -/
def cycle (wiring : Wiring) : Exec Bool := fun machine =>
  if machine.halted then .ok false machine
  else
    match attempt wiring machine with
    | .ok commit after => .ok (!(after.settle commit).halted) (after.settle commit)
    | .error fault after => .error fault (after.trap fault)

end Machine
end EightBit
