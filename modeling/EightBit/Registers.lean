import EightBit.Byte
import EightBit.Numeral

namespace EightBit

/-!
# Registers

There are eight general registers, the last of which is the stack pointer, and
beside them the program counter, the instruction register and the equal flag.
Writing a general register keeps the low eight bits; reading gives the cell as
it is, and a cell that was set from outside may hold any number.
-/

structure Registers where
  general : Vector Int 8
  programCounter : Int := 0
  instructionRegister : Int := 0
  equalFlag : Bool := false
deriving DecidableEq, Repr

namespace Registers

/-- An index that names none of the general registers. -/
structure IndexError where
  index : Int
deriving DecidableEq, Repr

/-- The message names the index. -/
def IndexError.message (error : IndexError) : String :=
  "register index out of range: " ++ Numeral.decimal error.index

/-- The registers when power comes on: all zero, but the stack pointer at
`0xF8`. -/
def powerOn : Registers where
  general := #v[0, 0, 0, 0, 0, 0, 0, 0xF8]

/-- The general register that a number names. -/
def slot? (index : Int) : Option (Fin 8) :=
  if named : 0 ≤ index ∧ index < 8 then some ⟨index.toNat, by omega⟩ else none

def cell (registers : Registers) (slot : Fin 8) : Int :=
  registers.general[slot]

/-- Writes the cell of a general register without cutting the value. -/
def setCell (registers : Registers) (slot : Fin 8) (value : Int) : Registers :=
  { registers with general := registers.general.set slot value }

/-- The index of a slot is its number, and no other number has a slot. -/
theorem slot?_eq_some_iff (index : Int) (slot : Fin 8) :
    slot? index = some slot ↔ index = slot.val := by
  unfold slot?
  split
  · simp only [Option.some.injEq, Fin.ext_iff]
    omega
  · simp only [reduceCtorEq, false_iff]
    omega

/-- A written cell has its value and every other cell what it had before. -/
@[simp] theorem cell_setCell (registers : Registers) (slot other : Fin 8) (value : Int) :
    (registers.setCell slot value).cell other =
      if other = slot then value else registers.cell other := by
  simp only [cell, setCell, Fin.getElem_fin, Vector.getElem_set, Fin.ext_iff, eq_comm]

def get (registers : Registers) (index : Int) : Except IndexError Int :=
  match slot? index with
  | some slot => .ok (registers.cell slot)
  | none => .error ⟨index⟩

/-- Writes the low eight bits of a value to the general register with the given
index. -/
def set (registers : Registers) (index value : Int) : Except IndexError Registers :=
  match slot? index with
  | some slot => .ok (registers.setCell slot (Byte.low value))
  | none => .error ⟨index⟩

/-- The stack pointer is the last general register. -/
def stackSlot : Fin 8 := 7

def stackPointer (registers : Registers) : Int :=
  registers.cell stackSlot

def setStackPointer (registers : Registers) (value : Int) : Registers :=
  registers.setCell stackSlot (Byte.low value)

end Registers
end EightBit
