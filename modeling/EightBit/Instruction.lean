import EightBit.Alu
import EightBit.Opcode
import EightBit.Numeral

namespace EightBit

/-!
# Instructions

An instruction binds an opcode byte to a handler and declares how many operand
bytes follow.  The handlers of the machine are its operations.  An operation
reads the operands it needs itself; the declared count describes the instruction
and does not steer it.
-/

/-- When a jump is taken. -/
inductive Condition where
  | always
  | ifEqual
  | ifNotEqual
deriving DecidableEq, Repr

namespace Condition

def holds : Condition → Bool → Bool
  | always, _ => true
  | ifEqual, equal => equal
  | ifNotEqual, equal => !equal

end Condition

/-- What an instruction does when it is executed. -/
inductive Operation where
  /-- Do nothing. -/
  | nop
  /-- Halt the machine. -/
  | hlt
  /-- Set a register to an immediate byte. -/
  | ldi
  /-- Copy the second register into the first. -/
  | lds
  /-- Arithmetic or comparison on registers. -/
  | alu (op : Alu.Op)
  /-- Jump to the address in a register. -/
  | jump (condition : Condition)
  /-- Push a register. -/
  | psh
  /-- Pop into a register. -/
  | pop
  /-- Emit the value of a register. -/
  | prn
deriving DecidableEq, Repr

namespace Operation

def all : List Operation :=
  [nop, hlt, ldi, lds] ++ Alu.Op.all.map alu ++
    [jump .always, jump .ifEqual, jump .ifNotEqual, psh, pop, prn]

def name : Operation → String
  | nop => "nop"
  | hlt => "hlt"
  | ldi => "ldi"
  | lds => "lds"
  | alu .add => "add"
  | alu .sub => "sub"
  | alu .mul => "mul"
  | alu .div => "div"
  | alu .inc => "inc"
  | alu .dec => "dec"
  | alu .cmp => "cmp"
  | jump .always => "jmp"
  | jump .ifEqual => "jeq"
  | jump .ifNotEqual => "jne"
  | psh => "psh"
  | pop => "pop"
  | prn => "prn"

def ofName? (name : String) : Option Operation :=
  all.find? fun operation => operation.name == name

/-- How many operand bytes an operation reads. -/
def operandCount : Operation → Nat
  | nop => 0
  | hlt => 0
  | ldi => 2
  | lds => 2
  | alu op => if op.isUnary then 1 else 2
  | jump _ => 1
  | psh => 1
  | pop => 1
  | prn => 1

end Operation

/-- An opcode byte with a mnemonic, a declared number of operand bytes and a
handler, which is an operation unless told otherwise. -/
structure Instruction (Handler : Type := Operation) where
  opcode : UInt8
  mnemonic : String
  operands : Fin 3
  operation : Handler
deriving DecidableEq, Repr

namespace Instruction

variable {Handler : Type}

/-- Why numbers describe no instruction. -/
inductive Invalid where
  | opcode (number : Int)
  | operands (mnemonic : String)
deriving DecidableEq, Repr

def Invalid.message : Invalid → String
  | opcode number => "opcode out of range: " ++ Numeral.decimal number
  | operands mnemonic => mnemonic ++ ": operand count must be 0-2"

/-- An instruction from numbers.  The opcode is checked before the operand
count. -/
def make (opcode : Int) (mnemonic : String) (operands : Int) (operation : Handler) :
    Except Invalid (Instruction Handler) :=
  if 0 ≤ opcode ∧ opcode ≤ 0xFF then
    if counted : 0 ≤ operands ∧ operands ≤ 2 then
      .ok ⟨Byte.ofInt opcode, mnemonic, ⟨operands.toNat, by omega⟩, operation⟩
    else .error (.operands mnemonic)
  else .error (.opcode opcode)

/-- How many bytes an instruction takes, opcode and declared operands. -/
def width (instruction : Instruction Handler) : Nat :=
  1 + instruction.operands

end Instruction
end EightBit
