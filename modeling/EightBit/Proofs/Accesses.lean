import EightBit.Proofs.Effect

namespace EightBit

open Effect

/-!
# Operations access by access

An operation looks before it acts.  It reads operand bytes, registers and the top of
the stack, one after the other, and what it finds decides how it goes on.  What it
changes it changes in its last access.  The push alone is different: it lowers the
stack pointer before it looks at its register.

A `Script` writes this down, and `Operation.script` is the script of each operation.
Scripts can be read in two ways, as effects on registers and memory and as executions
on a machine.  Both are what the operation is defined to be, so that a property of
all operations can be proved by induction on scripts.  `Script.Ensures` does this
once for what is to be known about operations that succeed.
-/

/-- The last access of an operation. -/
inductive Deed where
  | goOn
  | halt
  | goTo (target : Int)
  | write (index value : Int)
  | writeResult (index : Int) (result : Alu.Result)
  /-- Write a byte of the stack to a register and raise the stack pointer. -/
  | unstack (index : Int) (byte : UInt8)
  | store (value : Int)
  | emit (value : Int)

/-- The accesses of an operation.  The width is that of the opcode and the operands. -/
inductive Script where
  | act (width : Int) (deed : Deed)
  | operand (distance : Int) (rest : Int → Script)
  | read (index : Int) (rest : Int → Script)
  /-- Load the byte at the stack pointer. -/
  | top (rest : UInt8 → Script)
  | test (condition : Condition) (taken passed : Script)
  /-- Lower the stack pointer. -/
  | lower (rest : Script)

def Operation.script : Operation → Script
  | .nop => .act 1 .goOn
  | .hlt => .act 1 .halt
  | .ldi => .operand 1 fun index => .operand 2 fun value => .act 3 (.write index value)
  | .lds =>
    .operand 1 fun target => .operand 2 fun source =>
      .read source fun value => .act 3 (.write target value)
  | .alu op =>
    if op.isUnary then
      .operand 1 fun index => .read index fun value =>
        .act 2 (.writeResult index (Alu.apply op value 0))
    else
      .operand 1 fun first => .operand 2 fun second =>
        .read first fun a => .read second fun b => .act 3 (.writeResult first (Alu.apply op a b))
  | .jump condition =>
    .operand 1 fun index =>
      .test condition (.read index fun target => .act 2 (.goTo target)) (.act 2 .goOn)
  | .psh => .operand 1 fun index => .lower (.read index fun value => .act 2 (.store value))
  | .pop => .operand 1 fun index => .top fun byte => .act 2 (.unstack index byte)
  | .prn => .operand 1 fun index => .read index fun value => .act 2 (.emit value)

/-!
## Two readings
-/

section Effects

variable (registers : Registers) (memory : Memory)

def Deed.effect (width : Int) : Deed → Except Failure Effect
  | goOn => .ok (Effect.goOn registers memory width)
  | halt => .ok {
      registers, memory, outcome := { next := registers.programCounter + width, halts := true } }
  | goTo target => .ok { registers, memory, outcome := { next := target } }
  | write index value => do return Effect.goOn (← writeTo registers index value) memory width
  | writeResult index result => do
    return Effect.goOn (← writeResultTo registers index result) memory width
  | unstack index byte => do
    return Effect.goOn (← writeTo registers index (Byte.toInt byte)).raised memory width
  | store value => do
    return Effect.goOn registers (← storeAt registers memory registers.stackPointer value) width
  | emit value => .ok { Effect.goOn registers memory width with emission := some value }

end Effects

def Script.effect (memory : Memory) : Script → Registers → Except Failure Effect
  | act width deed, registers => deed.effect registers memory width
  | operand distance rest, registers => do
    (rest (← operandAt registers memory distance)).effect memory registers
  | read index rest, registers => do
    (rest (← readFrom registers index)).effect memory registers
  | top rest, registers => do
    (rest (← loadAt registers memory registers.stackPointer)).effect memory registers
  | test condition taken passed, registers =>
    if condition.holds registers.equalFlag then taken.effect memory registers
    else passed.effect memory registers
  | lower rest, registers => rest.effect memory registers.lowered

/-- The effect of an operation is that of its script. -/
theorem Operation.effect_eq_script (registers : Registers) (memory : Memory)
    (operation : Operation) :
    operation.effect registers memory = operation.script.effect memory registers := by
  cases operation with
  | alu op =>
      simp only [effect, script]
      split <;> rfl
  | _ => rfl

section Executions

open Machine

variable (device : Nat → Reply)

def Deed.execute (width : Int) : Deed → Exec Outcome
  | goOn => advance width
  | halt => do
    return { next := (← advance width).next, halts := true }
  | goTo target => return { next := target }
  | write index value => do
    writeRegister index value
    advance width
  | writeResult index result => do
    Machine.writeResult index result
    advance width
  | unstack index byte => do
    writeRegister index (Byte.toInt byte)
    modifyRegisters Registers.raised
    advance width
  | store value => do
    storeByte (← get).registers.stackPointer value
    advance width
  | emit value => do
    Machine.emit device value
    advance width

def Script.execute : Script → Exec Outcome
  | act width deed => deed.execute device width
  | operand distance rest => do (rest (← Machine.operand distance)).execute
  | read index rest => do (rest (← readRegister index)).execute
  | top rest => do (rest (← loadByte (← get).registers.stackPointer)).execute
  | test condition taken passed => do
    if condition.holds (← get).registers.equalFlag then taken.execute else passed.execute
  | lower rest => do
    modifyRegisters Registers.lowered
    rest.execute

/-- Executing an operation is executing its script. -/
theorem Machine.execute_eq_script (operation : Operation) :
    execute device operation = operation.script.execute device := by
  cases operation with
  | alu op =>
      simp only [execute, Operation.script]
      split <;> rfl
  | _ => rfl

end Executions

/-!
## Scripts that succeed
-/

namespace Script

/-- Whatever the accesses of a script find, what a success leaves behind is as told. -/
def Ensures (memory : Memory) (told : Effect → Prop) : Script → Registers → Prop
  | act width .goOn, registers => told (goOn registers memory width)
  | act width .halt, registers =>
    told ⟨registers, memory, none, ⟨registers.programCounter + width, true⟩⟩
  | act _ (.goTo target), registers => told ⟨registers, memory, none, ⟨target, false⟩⟩
  | act width (.write index value), registers =>
    ∀ slot, Registers.slot? index = some slot →
      told (goOn (registers.setCell slot (Byte.low value)) memory width)
  | act width (.writeResult index result), registers =>
    ∀ written, writeResultTo registers index result = .ok written →
      told (goOn written memory width)
  | act width (.unstack index byte), registers =>
    ∀ slot, Registers.slot? index = some slot →
      told (goOn (registers.setCell slot (Byte.low (Byte.toInt byte))).raised memory width)
  | act width (.store value), registers =>
    ∀ stored, memory.store registers.stackPointer value = .ok stored →
      told (goOn registers stored width)
  | act width (.emit value), registers =>
    told { goOn registers memory width with emission := some value }
  | operand distance rest, registers =>
    ∀ byte, memory.byteAt? (registers.programCounter + distance) = some byte →
      (rest (Byte.toInt byte)).Ensures memory told registers
  | read index rest, registers =>
    ∀ slot, Registers.slot? index = some slot →
      (rest (registers.cell slot)).Ensures memory told registers
  | top rest, registers =>
    ∀ byte, memory.byteAt? registers.stackPointer = some byte →
      (rest byte).Ensures memory told registers
  | test condition taken passed, registers =>
    (condition.holds registers.equalFlag = true → taken.Ensures memory told registers) ∧
      (condition.holds registers.equalFlag = false → passed.Ensures memory told registers)
  | lower rest, registers => rest.Ensures memory told registers.lowered

/-- A script that succeeds leaves behind what it ensures. -/
theorem Ensures.holds {memory : Memory} {told : Effect → Prop} {script : Script}
    {registers : Registers} {effect : Effect} (ensures : script.Ensures memory told registers)
    (succeeded : script.effect memory registers = .ok effect) : told effect := by
  induction script generalizing registers with
  | act width deed =>
      cases deed <;> simp only [Script.effect, Deed.effect, bind_eq_ok_iff, pure_eq_ok_iff,
        writeTo_eq_ok_iff, storeAt_eq_ok_iff, Except.ok.injEq] at succeeded
      case goOn => exact succeeded ▸ ensures
      case halt => exact succeeded ▸ ensures
      case goTo target => exact succeeded ▸ ensures
      case emit value => exact succeeded ▸ ensures
      case write index value =>
        rcases succeeded with ⟨_, ⟨slot, named, rfl⟩, rfl⟩
        exact ensures slot named
      case writeResult index result =>
        rcases succeeded with ⟨written, writes, rfl⟩
        exact ensures written writes
      case unstack index byte =>
        rcases succeeded with ⟨_, ⟨slot, named, rfl⟩, rfl⟩
        exact ensures slot named
      case store value =>
        rcases succeeded with ⟨stored, stores, rfl⟩
        exact ensures stored stores
  | operand distance rest inductionHypothesis =>
      simp only [Script.effect, bind_eq_ok_iff, operandAt_eq_ok_iff] at succeeded
      rcases succeeded with ⟨_, ⟨byte, found, rfl⟩, succeeded⟩
      exact inductionHypothesis _ (ensures byte found) succeeded
  | read index rest inductionHypothesis =>
      simp only [Script.effect, bind_eq_ok_iff, readFrom_eq_ok_iff] at succeeded
      rcases succeeded with ⟨_, ⟨slot, named, rfl⟩, succeeded⟩
      exact inductionHypothesis _ (ensures slot named) succeeded
  | top rest inductionHypothesis =>
      simp only [Script.effect, bind_eq_ok_iff, loadAt_eq_ok_iff] at succeeded
      rcases succeeded with ⟨byte, found, succeeded⟩
      exact inductionHypothesis _ (ensures byte found) succeeded
  | test condition taken passed takenHypothesis passedHypothesis =>
      rw [Script.effect] at succeeded
      split at succeeded
      · rename_i holds
        exact takenHypothesis (ensures.1 holds) succeeded
      · rename_i fails
        exact passedHypothesis (ensures.2 (Bool.eq_false_iff.mpr fails)) succeeded
  | lower rest inductionHypothesis => exact inductionHypothesis ensures succeeded

end Script

/-- An operation that succeeds leaves behind what its script ensures. -/
@[elab_as_elim]
theorem Operation.ensured {registers : Registers} {memory : Memory} {operation : Operation}
    {motive : Effect → Prop} {effect : Effect}
    (succeeded : operation.effect registers memory = .ok effect)
    (ensures : operation.script.Ensures memory motive registers) : motive effect :=
  ensures.holds (operation.effect_eq_script registers memory ▸ succeeded)

end EightBit
