import EightBit.Byte
import EightBit.Numeral

namespace EightBit

/-!
# Opcodes

The instruction set names twenty-three opcode bytes.  Six of them are reserved:
they have a name and no meaning, and no instruction may take them.
-/

inductive Opcode where
  | nop
  | ldi
  | mul
  | prn
  | pra
  | str
  | psh
  | pop
  | add
  | sub
  | div
  | cal
  | ret
  | jmp
  | lds
  | jeq
  | jne
  | cmp
  | inc
  | dec
  | int
  | irt
  | hlt
deriving DecidableEq, Repr

namespace Opcode

/-- All opcodes, ascending by their bytes. -/
def all : List Opcode :=
  [nop, ldi, mul, prn, pra, str, psh, pop, add, sub, div, cal, ret, jmp, lds, jeq, jne, cmp, inc,
    dec, int, irt, hlt]

def byte : Opcode → UInt8
  | nop => 0x00
  | ldi => 0x04
  | mul => 0x05
  | prn => 0x06
  | pra => 0x07
  | str => 0x09
  | psh => 0x0A
  | pop => 0x0B
  | add => 0x0C
  | sub => 0x0D
  | div => 0x0E
  | cal => 0x0F
  | ret => 0x10
  | jmp => 0x11
  | lds => 0x12
  | jeq => 0x13
  | jne => 0x14
  | cmp => 0x16
  | inc => 0x17
  | dec => 0x18
  | int => 0x19
  | irt => 0x1A
  | hlt => 0x1B

def name : Opcode → String
  | nop => "NOP"
  | ldi => "LDI"
  | mul => "MUL"
  | prn => "PRN"
  | pra => "PRA"
  | str => "STR"
  | psh => "PSH"
  | pop => "POP"
  | add => "ADD"
  | sub => "SUB"
  | div => "DIV"
  | cal => "CAL"
  | ret => "RET"
  | jmp => "JMP"
  | lds => "LDS"
  | jeq => "JEQ"
  | jne => "JNE"
  | cmp => "CMP"
  | inc => "INC"
  | dec => "DEC"
  | int => "INT"
  | irt => "IRT"
  | hlt => "HLT"

def isReserved : Opcode → Bool
  | pra => true
  | str => true
  | cal => true
  | ret => true
  | int => true
  | irt => true
  | _ => false

def ofByte? (byte : UInt8) : Option Opcode :=
  all.find? fun opcode => opcode.byte == byte

def ofInt? (number : Int) : Option Opcode :=
  all.find? fun opcode => Byte.toInt opcode.byte == number

/-- The message for a number that is no opcode's. -/
def unknownMessage (number : Int) : String :=
  Numeral.decimal number ++ " is not a valid Opcode"

def ofName? (name : String) : Option Opcode :=
  all.find? fun opcode => opcode.name == name

def reservedOfByte? (byte : UInt8) : Option Opcode :=
  (ofByte? byte).filter isReserved

/-- The operand count that the two high bits of an opcode would tell.  This is
a convention of documentation only; the instruction table decides. -/
def encodedOperandCount (number : Int) : Int :=
  number / 64 % 4

@[simp] theorem ofByte?_byte (opcode : Opcode) : ofByte? opcode.byte = some opcode := by
  cases opcode <;> rfl

end Opcode
end EightBit
