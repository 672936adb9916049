import EightBit.Memory
import EightBit.Opcode
import EightBit.Registers

namespace EightBit

/-!
# Faults

A cycle can fail in four ways.  Three of them are traps of the machine itself
and halt it; the fourth is the failure of the output device, after which the
machine can go on.
-/

/-- Why a cycle failed. -/
inductive Fault where
  /-- An address outside the memory was used. -/
  | address (error : Memory.AddressError)
  /-- An instruction named a register that is none. -/
  | register (error : Registers.IndexError)
  /-- A byte without an instruction was fetched by a strict machine. -/
  | illegalOpcode (opcode : UInt8) (pc : Int)
  /-- The output device refused a value. -/
  | output
deriving DecidableEq, Repr

namespace Fault

def isTrap : Fault → Bool
  | output => false
  | _ => true

/-- The message of a fault.  A reserved opcode is named, any other one is shown
in binary. -/
def message : Fault → String
  | address error => error.message
  | register error => error.message
  | illegalOpcode opcode pc =>
    let detail := match Opcode.reservedOfByte? opcode with
      | some reserved => "reserved opcode " ++ reserved.name
      | none => "illegal opcode " ++ Numeral.Layout.opcode.write (Byte.toInt opcode)
    detail ++ " at " ++ Numeral.Layout.address.write pc
  | output => "sink failed"

end Fault
end EightBit
