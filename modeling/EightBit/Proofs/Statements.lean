import Mathlib.Data.List.Basic
import EightBit.Proofs.Conformance

namespace EightBit

/-!
# Statements

A program without jumps is a list of statements.  Its meaning needs no bytes: a statement
changes registers, flag, cells and output, and the next one is the next in the list.  What
is in memory is the statements one behind the other, each as an opcode byte and as many
operand bytes as the instruction table declares.
-/

namespace StraightLine

open InstructionSet

/-- The instructions that neither halt nor jump, with what they are about. -/
inductive Statement where
  | nop
  | ldi (target : Fin 8) (value : UInt8)
  | lds (target source : Fin 8)
  | add (target source : Fin 8)
  | sub (target source : Fin 8)
  | mul (target source : Fin 8)
  | div (target source : Fin 8)
  | inc (target : Fin 8)
  | dec (target : Fin 8)
  | cmp (first second : Fin 8)
  | psh (source : Fin 8)
  | pop (target : Fin 8)
  | prn (source : Fin 8)
deriving DecidableEq, Repr

/-!
## Meaning
-/

structure Store where
  general : Fin 8 → UInt8
  equal : Bool
  memory : Int → Option UInt8
  output : List Int

namespace Store

def write (store : Store) (slot : Fin 8) (byte : UInt8) : Store :=
  { store with general := Function.update store.general slot byte }

def put (store : Store) (address : Int) (byte : UInt8) : Store :=
  { store with memory := Function.update store.memory address (some byte) }

/-- The cell that a push writes. -/
def pushed? (store : Store) : Statement → Option Int
  | .psh _ => some (Byte.toInt (store.general State.stackPointer - 1))
  | _ => none

/-- The cell that a pop reads. -/
def popped? (store : Store) : Statement → Option Int
  | .pop _ => some (Byte.toInt (store.general State.stackPointer))
  | _ => none

def interpret (store : Store) : Statement → Store
  | .nop => store
  | .ldi target value => store.write target value
  | .lds target source => store.write target (store.general source)
  | .add target source => store.write target (store.general target + store.general source)
  | .sub target source => store.write target (store.general target - store.general source)
  | .mul target source => store.write target (store.general target * store.general source)
  | .div target source =>
    if store.general source = 0 then store
    else store.write target (store.general target / store.general source)
  | .inc target => store.write target (store.general target + 1)
  | .dec target => store.write target (store.general target - 1)
  | .cmp first second => { store with equal := store.general first == store.general second }
  | .psh source =>
    let lowered := store.write State.stackPointer (store.general State.stackPointer - 1)
    lowered.put (Byte.toInt (lowered.general State.stackPointer)) (lowered.general source)
  | .pop target =>
    let loaded := (store.memory (Byte.toInt (store.general State.stackPointer))).getD 0
    let written := store.write target loaded
    written.write State.stackPointer (written.general State.stackPointer + 1)
  | .prn source => { store with output := store.output ++ [Byte.toInt (store.general source)] }

def interpretAll (store : Store) (program : List Statement) : Store :=
  program.foldl interpret store

/-- Only a push writes a cell. -/
theorem memory_interpret {store : Store} {statement : Statement} {address : Int}
    (elsewhere : store.pushed? statement ≠ some address) :
    (store.interpret statement).memory address = store.memory address := by
  cases statement with
  | psh source =>
      apply Function.update_of_ne
      rintro rfl
      apply elsewhere
      simp only [pushed?, write, Function.update_self]
  | div target source =>
      rw [interpret]
      split <;> rfl
  | _ => rfl

/-- Dividing by zero is as good as writing what was there. -/
theorem interpret_div (store : Store) (target source : Fin 8) :
    store.interpret (.div target source) =
      store.write target (if store.general source = 0 then store.general target
        else store.general target / store.general source) := by
  rw [interpret]
  split
  · rw [write, Function.update_eq_self]
  · rfl

end Store

/-!
## Bytes
-/

def registerByte (slot : Fin 8) : UInt8 :=
  UInt8.ofNat slot

namespace Statement

def opcode : Statement → Opcode
  | nop => .nop
  | ldi .. => .ldi
  | lds .. => .lds
  | add .. => .add
  | sub .. => .sub
  | mul .. => .mul
  | div .. => .div
  | inc _ => .inc
  | dec _ => .dec
  | cmp .. => .cmp
  | psh _ => .psh
  | pop _ => .pop
  | prn _ => .prn

/-- The bytes behind the opcode. -/
def operands : Statement → List UInt8
  | nop => []
  | ldi target value => [registerByte target, value]
  | lds target source => [registerByte target, registerByte source]
  | add target source => [registerByte target, registerByte source]
  | sub target source => [registerByte target, registerByte source]
  | mul target source => [registerByte target, registerByte source]
  | div target source => [registerByte target, registerByte source]
  | inc target => [registerByte target]
  | dec target => [registerByte target]
  | cmp first second => [registerByte first, registerByte second]
  | psh source => [registerByte source]
  | pop target => [registerByte target]
  | prn source => [registerByte source]

def encode (statement : Statement) : List UInt8 :=
  statement.opcode.byte :: statement.operands

def code : Statement → Code
  | nop => .nop
  | ldi .. => .ldi
  | lds .. => .lds
  | add .. => .add
  | sub .. => .sub
  | mul .. => .mul
  | div .. => .div
  | inc _ => .inc
  | dec _ => .dec
  | cmp .. => .cmp
  | psh _ => .psh
  | pop _ => .pop
  | prn _ => .prn

/-- The width that the standard table declares for the opcode of a statement. -/
def width (statement : Statement) : Nat :=
  ((InstructionTable.standard.find? statement.opcode.byte).map Instruction.width).getD 0

@[simp] theorem length_encode (statement : Statement) :
    statement.encode.length = statement.width := by
  rw [width, InstructionTable.find?_of_build InstructionTable.build_standardInstructions]
  cases statement <;> rfl

@[simp] theorem decode_byte (statement : Statement) :
    decode statement.opcode.byte = some statement.code := by
  cases statement <;> rfl

def encodeAll (program : List Statement) : List UInt8 :=
  program.flatMap encode

def size : List Statement → Nat
  | [] => 0
  | statement :: program => statement.width + size program

@[simp] theorem size_singleton (statement : Statement) : size [statement] = statement.width :=
  Nat.add_zero _

@[simp] theorem size_append (first second : List Statement) :
    size (first ++ second) = size first + size second := by
  induction first with
  | nil => rw [List.nil_append, size, Nat.zero_add]
  | cons statement first inductionHypothesis =>
      rw [List.cons_append, size, size, inductionHypothesis, Nat.add_assoc]

@[simp] theorem length_encodeAll (program : List Statement) :
    (encodeAll program).length = size program := by
  induction program with
  | nil => rfl
  | cons statement program inductionHypothesis =>
      rw [encodeAll, List.flatMap_cons, List.length_append, length_encode, size]
      exact congrArg (statement.width + ·) inductionHypothesis

/-- A longer beginning of a program does not take fewer bytes. -/
theorem size_le_of_prefix {first second : List Statement} (longer : first <+: second) :
    size first ≤ size second := by
  rcases longer with ⟨rest, rfl⟩
  rw [size_append]
  exact Nat.le_add_right _ _

end Statement

/-!
## What can be written

Statements are exactly what can be written with the standard table without halting and
jumping, if operands name registers wherever they have to.
-/

/-- Whether an operation goes on with the next instruction. -/
def isStraight : Operation → Bool
  | .hlt => false
  | .jump _ => false
  | _ => true

/-- Operand bytes as an instruction needs them: as many as it declares, and each names a
register, but for the value of an `ldi`. -/
structure Fits (instruction : Instruction) (operands : List UInt8) : Prop where
  length : operands.length = instruction.operands
  named : ∀ index byte, operands[index]? = some byte →
    (instruction.operation = .ldi ∧ index = 1) ∨ byte.toNat < 8

@[simp] theorem toNat_registerByte (slot : Fin 8) : (registerByte slot).toNat = slot := by
  revert slot
  decide

theorem registerByte_lt (slot : Fin 8) : (registerByte slot).toNat < 8 := by
  rw [toNat_registerByte]
  exact slot.isLt

theorem exists_registerByte {byte : UInt8} (inside : byte.toNat < 8) :
    ∃ slot, registerByte slot = byte :=
  ⟨⟨byte.toNat, inside⟩, UInt8.ofNat_toNat⟩

namespace Fits

variable {instruction : Instruction} {operands : List UInt8}

theorem eq_nil (fits : Fits instruction operands) (count : instruction.operands = 0) :
    operands = [] := by
  apply List.length_eq_zero_iff.mp
  rw [fits.length, count]
  rfl

theorem exists_one (fits : Fits instruction operands) (count : instruction.operands = 1)
    (notLdi : instruction.operation ≠ .ldi) : ∃ target, operands = [registerByte target] := by
  have length : operands.length = 1 := by
    rw [fits.length, count]
    rfl
  rcases List.length_eq_one_iff.mp length with ⟨byte, rfl⟩
  have inside := (fits.named 0 byte rfl).resolve_left fun immediate => notLdi immediate.1
  rcases exists_registerByte inside with ⟨target, rfl⟩
  exact ⟨target, rfl⟩

theorem exists_first (fits : Fits instruction operands) (count : instruction.operands = 2) :
    ∃ target byte, operands = [registerByte target, byte] := by
  have length : operands.length = 2 := by
    rw [fits.length, count]
    rfl
  rcases List.length_eq_two.mp length with ⟨byte, other, rfl⟩
  have inside := (fits.named 0 byte rfl).resolve_left fun immediate => by cases immediate.2
  rcases exists_registerByte inside with ⟨target, rfl⟩
  exact ⟨target, other, rfl⟩

theorem exists_two (fits : Fits instruction operands) (count : instruction.operands = 2)
    (notLdi : instruction.operation ≠ .ldi) :
    ∃ target source, operands = [registerByte target, registerByte source] := by
  rcases fits.exists_first count with ⟨target, byte, rfl⟩
  have inside := (fits.named 1 byte rfl).resolve_left fun immediate => notLdi immediate.1
  rcases exists_registerByte inside with ⟨source, rfl⟩
  exact ⟨target, source, rfl⟩

end Fits

theorem Statement.find?_byte (statement : Statement) :
    ∃ instruction, InstructionTable.standard.find? statement.opcode.byte = some instruction ∧
      instruction.operation = statement.code.operation := by
  have bound := operation_of_find? statement.opcode.byte
  rw [statement.decode_byte] at bound
  exact Option.map_eq_some_iff.mp bound

theorem Statement.fits {instruction : Instruction} (statement : Statement)
    (found : InstructionTable.standard.find? statement.opcode.byte = some instruction)
    (operation_eq : instruction.operation = statement.code.operation) :
    Fits instruction statement.operands := by
  constructor
  · have length := statement.length_encode
    rw [width, found, Option.map_some, Option.getD_some, Instruction.width, encode,
      List.length_cons, Nat.add_comm] at length
    exact Nat.add_left_cancel length
  · intro index byte member
    rw [operation_eq]
    cases statement with
    | nop => cases member
    | ldi target value =>
        rcases index with _ | _ | index
        · cases member
          exact Or.inr (registerByte_lt target)
        · exact Or.inl ⟨rfl, rfl⟩
        · cases member
    | _ =>
        have named := List.mem_of_getElem? member
        simp only [operands, List.mem_cons, List.not_mem_nil, or_false] at named
        rcases named with rfl | rfl <;> exact Or.inr (registerByte_lt _)

theorem exists_encode {opcode : UInt8} {instruction : Instruction} {operands : List UInt8}
    (found : InstructionTable.standard.find? opcode = some instruction)
    (straight : isStraight instruction.operation = true) (fits : Fits instruction operands) :
    ∃ statement : Statement, statement.encode = opcode :: operands := by
  rw [InstructionTable.find?_of_build InstructionTable.build_standardInstructions] at found
  have member := List.mem_of_find?_eq_some found
  have same := List.find?_some found
  rw [beq_iff_eq] at same
  subst same
  simp only [InstructionTable.standardInstructions, List.mem_cons, List.not_mem_nil,
    or_false] at member
  rcases member with rfl | rfl | rfl | rfl | rfl | rfl | rfl | rfl | rfl | rfl | rfl | rfl |
    rfl | rfl | rfl | rfl | rfl
  · rw [fits.eq_nil rfl]
    exact ⟨.nop, rfl⟩
  · cases straight
  · rcases fits.exists_first rfl with ⟨target, value, rfl⟩
    exact ⟨.ldi target value, rfl⟩
  · rcases fits.exists_two rfl (by decide) with ⟨target, source, rfl⟩
    exact ⟨.lds target source, rfl⟩
  · rcases fits.exists_two rfl (by decide) with ⟨target, source, rfl⟩
    exact ⟨.add target source, rfl⟩
  · rcases fits.exists_two rfl (by decide) with ⟨target, source, rfl⟩
    exact ⟨.sub target source, rfl⟩
  · rcases fits.exists_two rfl (by decide) with ⟨target, source, rfl⟩
    exact ⟨.mul target source, rfl⟩
  · rcases fits.exists_two rfl (by decide) with ⟨target, source, rfl⟩
    exact ⟨.div target source, rfl⟩
  · rcases fits.exists_one rfl (by decide) with ⟨target, rfl⟩
    exact ⟨.inc target, rfl⟩
  · rcases fits.exists_one rfl (by decide) with ⟨target, rfl⟩
    exact ⟨.dec target, rfl⟩
  · rcases fits.exists_two rfl (by decide) with ⟨first, second, rfl⟩
    exact ⟨.cmp first second, rfl⟩
  · cases straight
  · cases straight
  · cases straight
  · rcases fits.exists_one rfl (by decide) with ⟨source, rfl⟩
    exact ⟨.psh source, rfl⟩
  · rcases fits.exists_one rfl (by decide) with ⟨target, rfl⟩
    exact ⟨.pop target, rfl⟩
  · rcases fits.exists_one rfl (by decide) with ⟨source, rfl⟩
    exact ⟨.prn source, rfl⟩

/-- What can be written are the statements. -/
theorem exists_encode_iff (opcode : UInt8) (operands : List UInt8) :
    (∃ statement : Statement, statement.encode = opcode :: operands) ↔
      ∃ instruction, InstructionTable.standard.find? opcode = some instruction ∧
        isStraight instruction.operation = true ∧ Fits instruction operands := by
  constructor
  · rintro ⟨statement, encoded⟩
    rw [Statement.encode, List.cons.injEq] at encoded
    rcases encoded with ⟨rfl, rfl⟩
    rcases statement.find?_byte with ⟨instruction, found, operation_eq⟩
    refine ⟨instruction, found, ?_, statement.fits found operation_eq⟩
    rw [operation_eq]
    cases statement <;> rfl
  · rintro ⟨instruction, found, straight, fits⟩
    exact exists_encode found straight fits

end StraightLine
end EightBit
