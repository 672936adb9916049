import EightBit.Machine.Loading
import EightBit.Proofs.Aftermath
import EightBit.Proofs.Pausing
import EightBit.Proofs.Ending

namespace EightBit
namespace Machine

/-!
# Reachable machines

Whatever is asked of a machine, and in whatever order, it stays sound: its memory
keeps its length, its registers hold bytes, and its program counter stays near the
memory.  This holds under every table, with every device, and also after requests
that have failed.

The program counter is the one part that is not sound by itself.  A jump takes it
to the value of a register, so it needs the registers to be bounded; everything
else takes it behind a cell that was read, so it needs the length of the memory.
A cycle that fails does not move it.  `Sound` therefore keeps the three together.

`Invariant` is what has to be proved of a property for single cycles, and
`Invariant.call` is what then holds of steps and of whole runs.  `Steady` is the same for
writing from outside.
-/

/-- A property that no cycle breaks, and that does not ask whether a run is under
way or what the journal holds. -/
structure Invariant (wiring : Wiring) (motive : Machine → Prop) : Prop where
  next : ∀ machine, motive machine → motive (machine.next wiring)
  aside : ∀ machine running journal, motive machine → motive { machine with running, journal }

namespace Invariant

variable {wiring : Wiring} {motive : Machine → Prop} {machine : Machine}

theorem drive (invariant : Invariant wiring motive) (budget : Option Int) {fuel executed : Nat}
    (holds : motive machine) : motive (machine.drive wiring budget fuel executed).machine := by
  induction fuel generalizing executed machine with
  | zero =>
      unfold Machine.drive
      split
      · exact holds
      · exact invariant.aside machine false _ holds
  | succ fuel inductionHypothesis =>
      unfold Machine.drive
      split
      · have follows := invariant.next machine holds
        unfold Machine.next at follows
        cases ended : cycle wiring machine with
        | ok alive after =>
            rw [ended] at follows
            exact inductionHypothesis follows
        | error fault after =>
            rw [ended] at follows
            exact invariant.aside after false after.journal follows
      · exact invariant.aside machine false _ holds

theorem call (invariant : Invariant wiring motive) (fuel : Nat) (call : Call)
    (holds : motive machine) : motive (call.perform wiring fuel machine).machine := by
  cases call with
  | step =>
      have follows := invariant.next machine holds
      unfold Machine.next at follows
      unfold Call.perform
      cases ended : cycle wiring machine with
      | ok alive after =>
          rw [ended] at follows
          exact follows
      | error fault after =>
          rw [ended] at follows
          exact follows
  | run budget => exact invariant.drive budget (invariant.aside machine true _ holds)
  | stop => exact invariant.aside machine false _ holds

end Invariant

/-- What can be asked of a machine from outside: to work or to pause, to start anew,
or to take something into its memory or its registers. -/
inductive Request where
  | call (call : Call)
  | reset
  | poke (address value : Int)
  | loadBlock (data : Array UInt8) (start : Int)
  | loadText (name text : String)
  | loadBytes (data : List UInt8)
  | writeRegister (index value : Int)
  | setStackPointer (value : Int)
deriving DecidableEq, Repr

def outcomeOf : EStateM.Result ε Machine α → Machine
  | .ok _ after => after
  | .error _ after => after

/-- The machine after a request.  A run looks at no more than `fuel` cycles. -/
def Request.perform (wiring : Wiring) (fuel : Nat) (machine : Machine) : Request → Machine
  | .call work => (work.perform wiring fuel machine).machine
  | .reset => machine.reset
  | .poke address value => outcomeOf (storeByte address value machine)
  | .loadBlock data start => outcomeOf (Machine.loadBlock data start machine)
  | .loadText name text => outcomeOf (Machine.loadText name text machine)
  | .loadBytes data => outcomeOf (Machine.loadBytes data machine)
  | .writeRegister index value => outcomeOf (Machine.writeRegister index value machine)
  | .setStackPointer value =>
    { machine with registers := machine.registers.setStackPointer value }

/-- The machine after requests in a row.  One that fails does not keep the next from
being asked. -/
def serve (wiring : Wiring) (fuel : Nat) (requests : List Request) (machine : Machine) : Machine :=
  requests.foldl (Request.perform wiring fuel) machine

/-- A property that no writing from outside breaks: another memory of the same length and
another journal are no matter to it, nor is a byte in a register. -/
structure Steady (motive : Machine → Prop) : Prop where
  memory : ∀ machine memory journal, memory.length = machine.memory.length → motive machine →
    motive { machine with memory, journal }
  setCell : ∀ machine slot value, motive machine →
    motive { machine with registers := machine.registers.setCell slot (Byte.low value) }

namespace Steady

variable {motive : Machine → Prop} {machine : Machine}

theorem storeByte (steady : Steady motive) (address value : Int) (holds : motive machine) :
    motive (outcomeOf (Machine.storeByte address value machine)) := by
  rw [storeByte_eq]
  cases stored : machine.memory.store address value with
  | error error => exact holds
  | ok memory => exact steady.memory machine memory _ (Memory.length_store stored) holds

theorem loadBlock (steady : Steady motive) (data : Array UInt8) (start : Int)
    (holds : motive machine) : motive (outcomeOf (Machine.loadBlock data start machine)) := by
  rw [loadBlock_eq]
  cases placed : machine.memory.loadImage data start with
  | error error => exact holds
  | ok memory => exact steady.memory machine memory _ (Memory.length_loadImage placed) holds

theorem loadText (steady : Steady motive) (name text : String) (holds : motive machine) :
    motive (outcomeOf (Machine.loadText name text machine)) := by
  rw [loadText_eq]
  cases Program.parse name text with
  | error error => exact holds
  | ok program =>
      dsimp only
      rw [place_eq]
      cases placed : machine.memory.loadImage program.bytes 0 with
      | error error => exact holds
      | ok memory => exact steady.memory machine memory _ (Memory.length_loadImage placed) holds

theorem loadFile (steady : Steady motive) (name : String) (encoding : Text.Encoding)
    (bytes : ByteArray) (holds : motive machine) :
    motive (outcomeOf (Machine.loadFile name encoding bytes machine)) := by
  unfold Machine.loadFile
  cases encoding.decode bytes with
  | error error => exact holds
  | ok text => exact steady.loadText name _ holds

/-- Bytes that are written one by one may end at a byte that does not fit. -/
theorem storeBytes (steady : Steady motive) (entries : List (UInt8 × Nat))
    (holds : motive machine) :
    motive (outcomeOf
      ((entries.forM fun entry => Machine.storeByte entry.2 (Byte.toInt entry.1)) machine)) := by
  induction entries generalizing machine with
  | nil => exact holds
  | cons entry rest inductionHypothesis =>
      have stored := steady.storeByte entry.2 (Byte.toInt entry.1) holds
      simp only [List.forM, bind, EStateM.bind]
      cases ended : Machine.storeByte entry.2 (Byte.toInt entry.1) machine with
      | ok value after =>
          rw [ended] at stored
          exact inductionHypothesis stored
      | error fault after =>
          rw [ended] at stored
          exact stored

theorem writeRegister (steady : Steady motive) (index value : Int) (holds : motive machine) :
    motive (outcomeOf (Machine.writeRegister index value machine)) := by
  rw [writeRegister_eq, Registers.set]
  cases Registers.slot? index with
  | none => exact holds
  | some slot => exact steady.setCell machine slot value holds

end Steady

/-- A machine with a memory of the given length whose parts are in their ranges. -/
structure Sound (size : Nat) (machine : Machine) : Prop where
  length : machine.memory.length = size
  general : machine.registers.Bounded
  instructionRegister :
    0 ≤ machine.registers.instructionRegister ∧ machine.registers.instructionRegister < 256
  programCounter :
    0 ≤ machine.registers.programCounter ∧
      machine.registers.programCounter ≤ max (size : Int) 255

/-- Where an operation that succeeds goes on is at a byte or behind a cell. -/
theorem next_bounds {registers : Registers} {memory : Memory} {operation : Operation}
    {effect : Effect} (bounded : registers.Bounded)
    (inside : memory.Contains registers.programCounter)
    (succeeded : operation.effect registers memory = .ok effect) :
    0 ≤ effect.outcome.next ∧ effect.outcome.next ≤ max (memory.length : Int) 255 := by
  rcases Operation.next_of_effect inside succeeded with
    ⟨_, slot, _, _, _, next_eq⟩ | ⟨next_eq, last⟩
  · have byte := bounded slot
    omega
  · have lower := inside.1
    have upper := last.2
    omega

namespace Sound

variable {wiring : Wiring} {size : Nat} {machine after : Machine}

/-- Only memory and registers have a say in it. -/
theorem of_parts (sound : Sound size machine) (memory : after.memory.length = machine.memory.length)
    (registers : after.registers = machine.registers) : Sound size after where
  length := memory.trans sound.length
  general := registers ▸ sound.general
  instructionRegister := registers ▸ sound.instructionRegister
  programCounter := registers ▸ sound.programCounter

theorem fetched_instructionRegister (sound : Sound size machine) :
    0 ≤ machine.fetched.instructionRegister ∧ machine.fetched.instructionRegister < 256 := by
  unfold fetched
  cases machine.memory.byteAt? machine.registers.programCounter with
  | some opcode => exact ⟨Byte.toInt_nonneg opcode, Byte.toInt_lt opcode⟩
  | none => exact sound.instructionRegister

theorem cycle_error (sound : Sound size machine) {fault : Fault}
    (failed : cycle wiring machine = .error fault after) : Sound size after := by
  rcases left_of_cycle_eq_error failed with ⟨registers, memory⟩
  have bounded : machine.fetched.Bounded := sound.general.of_general rfl
  have held := sound.fetched_instructionRegister
  constructor
  · rw [memory]
    exact sound.length
  · rw [registers]
    split
    · exact bounded.lowered
    · exact bounded
  · rw [registers]
    split <;> exact held
  · rw [registers]
    split <;> exact sound.programCounter

theorem cycle_ok (sound : Sound size machine) (running : machine.halted = false) {alive : Bool}
    (ok : cycle wiring machine = .ok alive after) : Sound size after := by
  have general := bounded_of_cycle_eq_ok sound.general ok
  rcases cycle_eq_ok running ok with ⟨plan, journal, planned, _, rfl, _⟩
  rcases InstructionTable.plan_eq_ok planned with
    ⟨opcode, found, ⟨instruction, _, executed, commit_eq⟩ | ⟨_, _, effect_eq, commit_eq⟩⟩
  · have changes := Operation.changes_of_effect executed
    have bounded : Registers.Bounded
        { machine.registers with instructionRegister := Byte.toInt opcode } := sound.general
    have bounds := next_bounds bounded (Memory.contains_of_byteAt? found) executed
    rw [sound.length] at bounds
    constructor
    · exact changes.length.trans sound.length
    · exact general
    · change 0 ≤ plan.effect.registers.instructionRegister ∧
        plan.effect.registers.instructionRegister < 256
      rw [changes.instructionRegister]
      exact ⟨Byte.toInt_nonneg opcode, Byte.toInt_lt opcode⟩
    · change 0 ≤ plan.commit.next ∧ plan.commit.next ≤ max (size : Int) 255
      rw [commit_eq]
      exact bounds
  · constructor
    · change plan.effect.memory.length = size
      rw [effect_eq]
      exact sound.length
    · exact general
    · change 0 ≤ plan.effect.registers.instructionRegister ∧
        plan.effect.registers.instructionRegister < 256
      rw [effect_eq]
      exact ⟨Byte.toInt_nonneg opcode, Byte.toInt_lt opcode⟩
    · change 0 ≤ plan.commit.next ∧ plan.commit.next ≤ max (size : Int) 255
      rw [commit_eq]
      exact sound.programCounter

theorem invariant (wiring : Wiring) (size : Nat) : Invariant wiring (Sound size) where
  next := by
    intro machine sound
    unfold Machine.next
    cases ended : cycle wiring machine with
    | error fault after => exact sound.cycle_error ended
    | ok alive after =>
        cases halted : machine.halted with
        | false => exact sound.cycle_ok halted ended
        | true =>
            rw [cycle_of_halted wiring machine halted] at ended
            cases ended
            exact sound
  aside := by
    intro machine running journal sound
    exact sound.of_parts rfl rfl

/-!
## Requests that are no cycles
-/

theorem steady (size : Nat) : Steady (Sound size) where
  memory := by
    intro machine memory journal length sound
    exact sound.of_parts length rfl
  setCell := by
    intro machine slot value sound
    exact ⟨sound.length, sound.general.setCell slot value, sound.instructionRegister,
      sound.programCounter⟩

theorem of_powerOn (length : machine.memory.length = size)
    (registers : machine.registers = .powerOn) : Sound size machine where
  length := length
  general := by
    rw [registers]
    decide
  instructionRegister := by
    rw [registers]
    decide
  programCounter := by
    rw [registers]
    change (0 : Int) ≤ 0 ∧ (0 : Int) ≤ max (size : Int) 255
    omega

theorem reset (sound : Sound size machine) : Sound size machine.reset :=
  of_powerOn sound.length rfl

theorem request (sound : Sound size machine) (wiring : Wiring) (fuel : Nat)
    (request : Request) : Sound size (request.perform wiring fuel machine) := by
  cases request with
  | call call => exact (invariant wiring size).call fuel call sound
  | reset => exact sound.reset
  | poke address value => exact (steady size).storeByte address value sound
  | loadBlock data start => exact (steady size).loadBlock data start sound
  | loadText name text => exact (steady size).loadText name text sound
  | loadBytes data => exact (steady size).storeBytes data.zipIdx sound
  | writeRegister index value => exact (steady size).writeRegister index value sound
  | setStackPointer value => exact (steady size).setCell machine Registers.stackSlot value sound

theorem requests (sound : Sound size machine) (wiring : Wiring) (fuel : Nat)
    (requests : List Request) : Sound size (serve wiring fuel requests machine) := by
  induction requests generalizing machine with
  | nil => exact sound
  | cons first rest inductionHypothesis =>
      exact inductionHypothesis (sound.request wiring fuel first)

end Sound

/-- Every machine that requests lead to from a new one is sound, and it holds a byte
at each of its addresses. -/
theorem sound_of_requests (wiring : Wiring) (fuel : Nat) {length : Nat} (positive : 0 < length)
    (trace : Option Trace) (journal : Journal) (requests : List Request) :
    let machine :=
      serve wiring fuel requests { memory := .zeroed length positive, trace, journal }
    Sound length machine ∧
      ∀ address : Int, 0 ≤ address → address < length →
        ∃ byte, machine.memory.byteAt? address = some byte ∧
          0 ≤ Byte.toInt byte ∧ Byte.toInt byte < 256 := by
  intro machine
  have sound : Sound length machine :=
    (Sound.of_powerOn (Memory.length_zeroed length positive) rfl).requests wiring fuel requests
  refine ⟨sound, ?_⟩
  intro address lower upper
  rw [← sound.length] at upper
  cases found : machine.memory.byteAt? address with
  | some byte => exact ⟨byte, rfl, Byte.toInt_nonneg byte, Byte.toInt_lt byte⟩
  | none =>
      have outside := (Memory.byteAt?_eq_none_iff machine.memory address).mp found
      exact absurd ⟨lower, upper⟩ outside

/-- Requests that jump far behind a memory of three cells, where the next cycle
fails, and that then write behind it. -/
def jumpsAway : List Request :=
  [.writeRegister 0 (-56), .poke 0 0x11, .call .step, .call (.run none), .poke 200 1,
    .writeRegister 8 1]

theorem sound_of_requests_jumpsAway :
    let machine := serve {} 1 jumpsAway { memory := .zeroed 3 (by decide) }
    Sound 3 machine ∧ machine.registers.programCounter = 200 ∧ machine.halted = true := by
  intro machine
  have sound := (sound_of_requests {} 1 (by decide : 0 < 3) none ⟨.nothing, #[]⟩ jumpsAway).1
  exact ⟨sound, by decide +kernel, by decide +kernel⟩

end Machine
end EightBit
