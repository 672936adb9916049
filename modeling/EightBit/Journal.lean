import EightBit.Byte
import EightBit.Diagnostics

namespace EightBit

/-!
# Journals

While it works the machine notes what it does.  A journal keeps the notes of
the wanted categories, and only its reader turns them into lines.  Writing a
note therefore never disturbs the machine.
-/

/-- Whether the machine executes or has halted. -/
inductive Status where
  | running
  | halted
deriving DecidableEq, Repr

def Status.name : Status → String
  | running => "RUNNING"
  | halted => "HALTED"

/-- Something that the machine did. -/
inductive Note where
  /-- An instruction was fetched. -/
  | fetched (pc : Int) (opcode : UInt8) (mnemonic : String)
  /-- A byte without an instruction was fetched. -/
  | undefined (pc : Int) (opcode : UInt8)
  /-- A byte was read. -/
  | loaded (address : Int) (value : UInt8)
  /-- A byte was written. -/
  | stored (address : Int) (value : UInt8)
  /-- A run came to its end. -/
  | ran (executed : Nat) (status : Status)
  /-- A program was put into memory. -/
  | placed (name : String) (size : Nat)
  /-- A console session came to its end. -/
  | finished (cycles : Nat) (halted : Bool)
deriving DecidableEq, Repr

namespace Note

def category : Note → Diagnostics.Category
  | fetched .. => .cpu
  | undefined .. => .cpu
  | loaded .. => .mem
  | stored .. => .mem
  | ran .. => .cpu
  | placed .. => .loader
  | finished .. => .app

def template : Note → String
  | fetched .. => "pc=%02x opcode=%08b %s"
  | undefined .. => "pc=%02x opcode=%08b undefined, halting"
  | loaded .. => "load8 addr=%02x val=%02x"
  | stored .. => "store8 addr=%02x val=%02x"
  | ran .. => "run executed=%d status=%s"
  | placed .. => "loaded %s: %d bytes"
  | finished .. => "cycles=%d halted=%s"

/-- The arguments of a note.  A program without a name is a stream. -/
def args : Note → List Text.Value
  | fetched pc opcode mnemonic => [.integer pc, .integer (Byte.toInt opcode), .text mnemonic]
  | undefined pc opcode => [.integer pc, .integer (Byte.toInt opcode)]
  | loaded address value => [.integer address, .integer (Byte.toInt value)]
  | stored address value => [.integer address, .integer (Byte.toInt value)]
  | ran executed status => [.integer executed, .text status.name]
  | placed name size => [.text (if name.isEmpty then "<stream>" else name), .integer size]
  | finished cycles halted => [.integer cycles, .flag halted]

/-- The line of a note.  Its columns are so few that there is always room for
them. -/
def line (note : Note) : Except Text.Template.Overflow String :=
  (Diagnostics.body note.template note.args .indices).map (Diagnostics.line note.category.name)

end Note

/-- The notes of the wanted categories, in the order they were made. -/
structure Journal where
  selection : Diagnostics.Selection
  notes : Array Note := #[]
deriving DecidableEq, Repr

namespace Journal

/-- Makes a note, if its category is wanted. -/
def add (journal : Journal) (note : Note) : Journal :=
  if journal.selection.includes note.category then
    { journal with notes := journal.notes.push note }
  else journal

def lines (journal : Journal) : Except Text.Template.Overflow (List String) :=
  journal.notes.toList.mapM Note.line

/-- The journal with its notes torn out. -/
def cleared (journal : Journal) : Journal :=
  { journal with notes := #[] }

end Journal
end EightBit
