import EightBit.Instruction

namespace EightBit

/-!
# Instruction tables

A table has a slot for each opcode byte.  Instructions are registered one
after the other; a reserved opcode is refused, and so is one whose slot is
filled, so the first instruction for an opcode stays.  What their handlers do
has no say in any of this.
-/

/-- The instruction for each opcode byte, where there is one. -/
structure InstructionTable (Handler : Type := Operation) where
  slots : Vector (Option (Instruction Handler)) 256
deriving DecidableEq, Repr

namespace InstructionTable

variable {Handler : Type}

def empty : InstructionTable Handler where
  slots := Vector.replicate 256 none

def find? (table : InstructionTable Handler) (opcode : UInt8) : Option (Instruction Handler) :=
  table.slots[opcode.toFin]

/-- Why an instruction is not registered.  The opcode that is reserved has a
name, which the message shows.  Where it was given as a bare number there is no
name to show, and the refusal itself fails for that. -/
inductive Refusal (Handler : Type := Operation) where
  | reserved (opcode : Opcode)
  | taken (opcode : UInt8) (holder : Instruction Handler)
deriving DecidableEq, Repr

def Refusal.message : Refusal Handler → String
  | reserved opcode => "opcode " ++ opcode.name ++ " is reserved"
  | taken opcode holder =>
    "opcode " ++ Numeral.Layout.address.write (Byte.toInt opcode) ++ " already registered as " ++
      holder.mnemonic

/-- Puts an instruction into the slot of its opcode. -/
def register (table : InstructionTable Handler) (instruction : Instruction Handler) :
    Except (Refusal Handler) (InstructionTable Handler) :=
  match Opcode.reservedOfByte? instruction.opcode with
  | some opcode => .error (.reserved opcode)
  | none =>
    match table.find? instruction.opcode with
    | some holder => .error (.taken instruction.opcode holder)
    | none => .ok ⟨table.slots.set instruction.opcode.toFin (some instruction)⟩

/-- The table with the given instructions, or the refusal of the first that
cannot be registered. -/
def build (instructions : List (Instruction Handler)) :
    Except (Refusal Handler) (InstructionTable Handler) :=
  instructions.foldlM register empty

/-- The filled slots, ascending by opcode. -/
def entries (table : InstructionTable Handler) : List (Instruction Handler) :=
  table.slots.toList.filterMap id

/-- An instruction named after its opcode. -/
def named (opcode : Opcode) (operands : Fin 3) (operation : Operation) : Instruction :=
  ⟨opcode.byte, opcode.name, operands, operation⟩

/-- The seventeen instructions of the LS-8. -/
def standardInstructions : List Instruction := [
  named .nop 0 .nop,
  named .hlt 0 .hlt,
  named .ldi 2 .ldi,
  named .lds 2 .lds,
  named .add 2 (.alu .add),
  named .sub 2 (.alu .sub),
  named .mul 2 (.alu .mul),
  named .div 2 (.alu .div),
  named .inc 1 (.alu .inc),
  named .dec 1 (.alu .dec),
  named .cmp 2 (.alu .cmp),
  named .jmp 1 (.jump .always),
  named .jeq 1 (.jump .ifEqual),
  named .jne 1 (.jump .ifNotEqual),
  named .psh 1 .psh,
  named .pop 1 .pop,
  named .prn 1 .prn]

/-- The table that a machine has unless it is given another. -/
def standard : InstructionTable :=
  match build standardInstructions with
  | .ok table => table
  | .error _ => empty

end InstructionTable
end EightBit
