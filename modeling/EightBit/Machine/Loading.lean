import EightBit.Machine
import EightBit.Program
import EightBit.Text.Encoding

namespace EightBit
namespace Machine

/-!
# Loading programs

A program is parsed completely before the memory is touched, and it is put
into memory as a whole or not at all.
-/

/-- Why a program was not loaded. -/
inductive LoadError where
  | undecodable (error : Text.Undecodable)
  | format (error : Program.FormatError)
  | address (error : Memory.AddressError)
deriving DecidableEq, Repr

def LoadError.message : LoadError → String
  | undecodable error => error.message
  | format error => error.message
  | address error => error.message

/-- A computation on a machine that may refuse a program. -/
abbrev Loading := EStateM LoadError Machine

/-- Puts a program into memory from address zero on. -/
def place (program : Program) : Loading Program := do
  match (← get).memory.loadImage program.bytes 0 with
  | .ok memory =>
    modify fun machine => { machine with
      memory
      journal := machine.journal.add (.placed program.name program.bytes.size) }
    return program
  | .error error => throw (.address error)

def loadText (name text : String) : Loading Program := do
  match Program.parse name text with
  | .ok program => place program
  | .error error => throw (.format error)

/-- Loads a program from the bytes of a text file, whose line ends may be of
any kind. -/
def loadFile (name : String) (encoding : Text.Encoding) (bytes : ByteArray) : Loading Program := do
  match encoding.decode bytes with
  | .ok text => loadText name (String.ofList (Text.unixLineEnds text.toList))
  | .error error => throw (.undecodable error)

theorem place_eq (program : Program) (machine : Machine) :
    place program machine =
      match machine.memory.loadImage program.bytes 0 with
      | .ok memory => .ok program { machine with
          memory
          journal := machine.journal.add (.placed program.name program.bytes.size) }
      | .error error => .error (.address error) machine := by
  have unfolded : place program machine =
      (match machine.memory.loadImage program.bytes 0 with
        | .ok memory => do
          modify fun machine => { machine with
            memory
            journal := machine.journal.add (.placed program.name program.bytes.size) }
          return program
        | .error error => throw (.address error) : Loading Program) machine := rfl
  rw [unfolded]
  cases machine.memory.loadImage program.bytes 0 <;> rfl

theorem loadText_eq (name text : String) (machine : Machine) :
    loadText name text machine =
      match Program.parse name text with
      | .ok program => place program machine
      | .error error => .error (.format error) machine := by
  unfold loadText
  cases Program.parse name text <;> rfl

end Machine
end EightBit
