import Mathlib.Logic.Function.Basic
import EightBit.Byte

namespace EightBit
namespace InstructionSet

/-!
# The LS-8 instruction set

This is what the instructions mean, told without the machine that carries them
out.  Registers and memory cells hold bytes, and arithmetic is that of bytes, so
nothing has to be cut.  A state is a plain value, and an instruction that needs a
cell or a register that does not exist has no next state.

The definitions share nothing with those of the machine but the number of a
byte.  They follow the table of the instruction set: an opcode byte, up to two
operand bytes behind it, and the effect.
-/

/-- What the instructions read and change. -/
structure State where
  general : Fin 8 → UInt8
  programCounter : Int
  instructionRegister : Int
  equal : Bool
  memory : Int → Option UInt8
  halted : Bool
  cycles : Nat
  output : List Int

inductive Code where
  | nop
  | hlt
  | ldi
  | lds
  | add
  | sub
  | mul
  | div
  | inc
  | dec
  | cmp
  | jmp
  | jeq
  | jne
  | psh
  | pop
  | prn
deriving DecidableEq, Repr

/-- The instruction that a byte stands for. -/
def decode : UInt8 → Option Code
  | 0x00 => some .nop
  | 0x04 => some .ldi
  | 0x05 => some .mul
  | 0x06 => some .prn
  | 0x0A => some .psh
  | 0x0B => some .pop
  | 0x0C => some .add
  | 0x0D => some .sub
  | 0x0E => some .div
  | 0x11 => some .jmp
  | 0x12 => some .lds
  | 0x13 => some .jeq
  | 0x14 => some .jne
  | 0x16 => some .cmp
  | 0x17 => some .inc
  | 0x18 => some .dec
  | 0x1B => some .hlt
  | _ => none

namespace State

/-- The operand byte at a distance from the opcode. -/
def operand (state : State) (distance : Int) : Option UInt8 :=
  state.memory (state.programCounter + distance)

/-- The register that an operand byte names.  There are eight. -/
def named (state : State) (distance : Int) : Option (Fin 8) :=
  (state.operand distance).bind fun byte =>
    if inside : byte.toNat < 8 then some ⟨byte.toNat, inside⟩ else none

def write (state : State) (slot : Fin 8) (byte : UInt8) : State :=
  { state with general := Function.update state.general slot byte }

def store (state : State) (address : Int) (byte : UInt8) : Option State :=
  (state.memory address).map fun _ =>
    { state with memory := Function.update state.memory address (some byte) }

/-- Goes on behind an opcode and its operands. -/
def goOn (state : State) (width : Int) : State :=
  { state with programCounter := state.programCounter + width }

/-- Replaces the named register by a function of it. -/
def unary (state : State) (compute : UInt8 → UInt8) : Option State := do
  let target ← state.named 1
  return (state.write target (compute (state.general target))).goOn 2

/-- Replaces the first of two named registers by a function of both. -/
def binary (state : State) (compute : UInt8 → UInt8 → UInt8) : Option State := do
  let target ← state.named 1
  let source ← state.named 2
  return (state.write target (compute (state.general target) (state.general source))).goOn 3

/-- Goes on at the address in the named register if a jump is taken, and behind
the operand if not. -/
def jump (state : State) (taken : Bool) : Option State := do
  let _ ← state.operand 1
  if taken then
    let target ← state.named 1
    return { state with programCounter := Byte.toInt (state.general target) }
  else return state.goOn 2

/-- The last register is the stack pointer. -/
def stackPointer : Fin 8 :=
  Fin.last 7

def execute (state : State) : Code → Option State
  | .nop => some (state.goOn 1)
  | .hlt => some { state.goOn 1 with halted := true }
  | .ldi => do
    let target ← state.named 1
    let value ← state.operand 2
    return (state.write target value).goOn 3
  | .lds => state.binary fun _ source => source
  | .add => state.binary fun target source => target + source
  | .sub => state.binary fun target source => target - source
  | .mul => state.binary fun target source => target * source
  | .div => state.binary fun target source => if source = 0 then target else target / source
  | .inc => state.unary fun target => target + 1
  | .dec => state.unary fun target => target - 1
  | .cmp => do
    let first ← state.named 1
    let second ← state.named 2
    return { state.goOn 3 with equal := state.general first == state.general second }
  | .jmp => state.jump true
  | .jeq => state.jump state.equal
  | .jne => state.jump (!state.equal)
  | .psh => do
    let source ← state.named 1
    let lowered := state.write stackPointer (state.general stackPointer - 1)
    let stored ← lowered.store (Byte.toInt (lowered.general stackPointer)) (lowered.general source)
    return stored.goOn 2
  | .pop => do
    let target ← state.named 1
    let value ← state.memory (Byte.toInt (state.general stackPointer))
    let written := state.write target value
    return (written.write stackPointer (written.general stackPointer + 1)).goOn 2
  | .prn => do
    let source ← state.named 1
    return { state.goOn 2 with output := state.output ++ [Byte.toInt (state.general source)] }

/-- One cycle of a state that has not halted.  A byte that stands for no
instruction halts in place. -/
def step (state : State) : Option State := do
  let opcode ← state.memory state.programCounter
  let fetched := { state with
    instructionRegister := Byte.toInt opcode
    cycles := state.cycles + 1 }
  match decode opcode with
  | some code => fetched.execute code
  | none => return { fetched with halted := true }

end State
end InstructionSet
end EightBit
