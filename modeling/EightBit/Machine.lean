import EightBit.Fault
import EightBit.InstructionTable
import EightBit.Journal
import EightBit.Trace

namespace EightBit

/-!
# The machine

A machine has memory, registers and a status.  It counts its cycles, keeps the
values that it has emitted, and carries a trace and a journal that only watch
it.  What stays the same while it runs is its wiring: the instruction table,
whether it is strict, and what is connected to its output.
-/

/-- How the output device answers a value that it was given.  These are the
devices that act on the machine in no other way than by asking for a pause or by
failing, and then not with a fault of the machine's own.  Such a fault would be
caught and halt the machine; a device that writes to the machine or makes it step
is not covered either. -/
structure Reply where
  /-- The device asks the machine to pause the run. -/
  stops : Bool := false
  /-- The device reports a failure. -/
  fails : Bool := false
deriving DecidableEq, Repr

/-- What is connected to a machine.  The device answers a value according to
how many values came before it, so it may answer a run in any way, but only with
a `Reply`. -/
structure Wiring where
  table : InstructionTable := .standard
  strict : Bool := false
  device : Nat → Reply := fun _ => {}

/-- A value given to the output device, and what the device can see of the
machine at that moment. -/
structure Emission where
  value : Int
  running : Bool
  programCounter : Int
  cycles : Nat
deriving DecidableEq, Repr

/-- A machine with everything that changes while it works.  `running` says that
a run is under way and was not asked to pause. -/
structure Machine where
  memory : Memory
  registers : Registers := .powerOn
  status : Status := .running
  running : Bool := false
  cycles : Nat := 0
  emissions : Array Emission := #[]
  trace : Option Trace := none
  journal : Journal := ⟨.nothing, #[]⟩

/-- A computation on a machine that may fail with a fault.  What it has done to
the machine before the fault remains. -/
abbrev Exec := EStateM Fault Machine

namespace Machine

def halted (machine : Machine) : Bool :=
  machine.status = .halted

/-- Why there is no machine of an asked size. -/
inductive AssemblyError where
  | memory (error : Memory.LengthError)
  | trace (error : Trace.CapacityError)
deriving DecidableEq, Repr

/-- The capacity of a trace that was not asked for but is wanted by the
diagnostics. -/
def defaultTraceCapacity : Int := 256

/-- A machine with a memory of the given length.  It has a trace if a capacity
is asked for or the category of traces is wanted. -/
def assemble (length traceCapacity : Int) (selection : Diagnostics.Selection)
    (room : Extent.Room := {}) : Except AssemblyError Machine := do
  let memory ← (Memory.create length room.memory).mapError .memory
  let capacity :=
    if traceCapacity ≤ 0 ∧ selection.includes .trace = true then defaultTraceCapacity
    else traceCapacity
  let trace ←
    if 0 < capacity then ((Trace.create capacity room.trace).mapError .trace).map some else .ok none
  .ok { memory, trace, journal := { selection } }

def note (entry : Note) : Exec Unit :=
  modify fun machine => { machine with journal := machine.journal.add entry }

def loadByte (address : Int) : Exec UInt8 := do
  match (← get).memory.load address with
  | .ok byte =>
    note (.loaded address byte)
    return byte
  | .error error => throw (.address error)

def storeByte (address value : Int) : Exec Unit := do
  match (← get).memory.store address value with
  | .ok memory =>
    modify fun machine => { machine with memory }
    note (.stored address (Byte.ofInt value))
  | .error error => throw (.address error)

/-- Writes bytes one by one from address zero on, as far as they fit. -/
def loadBytes (data : List UInt8) : Exec Unit :=
  data.zipIdx.forM fun (byte, address) => storeByte address (Byte.toInt byte)

/-- Writes a block of bytes from an address on, as a whole or not at all.  This
is not noted. -/
def loadBlock (data : Array UInt8) (start : Int) : Exec Unit := do
  match (← get).memory.loadImage data start with
  | .ok memory => modify fun machine => { machine with memory }
  | .error error => throw (.address error)

def readRegister (index : Int) : Exec Int := do
  match (← get).registers.get index with
  | .ok value => return value
  | .error error => throw (.register error)

def writeRegister (index value : Int) : Exec Unit := do
  match (← get).registers.set index value with
  | .ok registers => modify fun machine => { machine with registers }
  | .error error => throw (.register error)

/-!
## What each access does to the machine

Each access is told as a single case distinction on the memory or the
registers of the machine it starts from.
-/

@[simp] theorem get_eq (machine : Machine) : (get : Exec Machine) machine = .ok machine machine :=
  rfl

@[simp] theorem note_eq (entry : Note) (machine : Machine) :
    note entry machine = .ok () { machine with journal := machine.journal.add entry } :=
  rfl

theorem loadByte_eq (address : Int) (machine : Machine) :
    loadByte address machine =
      match machine.memory.load address with
      | .ok byte => .ok byte { machine with journal := machine.journal.add (.loaded address byte) }
      | .error error => .error (.address error) machine := by
  simp only [loadByte, bind, EStateM.bind, get_eq]
  cases machine.memory.load address <;> rfl

theorem storeByte_eq (address value : Int) (machine : Machine) :
    storeByte address value machine =
      match machine.memory.store address value with
      | .ok memory => .ok () { machine with
          memory
          journal := machine.journal.add (.stored address (Byte.ofInt value)) }
      | .error error => .error (.address error) machine := by
  simp only [storeByte, bind, EStateM.bind, get_eq]
  cases machine.memory.store address value <;> rfl

theorem loadBlock_eq (data : Array UInt8) (start : Int) (machine : Machine) :
    loadBlock data start machine =
      match machine.memory.loadImage data start with
      | .ok memory => .ok () { machine with memory }
      | .error error => .error (.address error) machine := by
  simp only [loadBlock, bind, EStateM.bind, get_eq]
  cases machine.memory.loadImage data start <;> rfl

theorem readRegister_eq (index : Int) (machine : Machine) :
    readRegister index machine =
      match machine.registers.get index with
      | .ok value => .ok value machine
      | .error error => .error (.register error) machine := by
  simp only [readRegister, bind, EStateM.bind, get_eq]
  cases machine.registers.get index <;> rfl

theorem writeRegister_eq (index value : Int) (machine : Machine) :
    writeRegister index value machine =
      match machine.registers.set index value with
      | .ok registers => .ok () { machine with registers }
      | .error error => .error (.register error) machine := by
  simp only [writeRegister, bind, EStateM.bind, get_eq]
  cases machine.registers.set index value <;> rfl

/-- Power-on registers and status, and no cycles.  Memory, emitted values, trace
and journal stay. -/
def reset (machine : Machine) : Machine :=
  { machine with registers := .powerOn, status := .running, cycles := 0 }

/-- Asks for a pause of the run that is under way. -/
def stop (machine : Machine) : Machine :=
  { machine with running := false }

end Machine
end EightBit
