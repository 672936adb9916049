import Mathlib.Data.Nat.Count
import EightBit.Proofs.Cycle

namespace EightBit

/-!
# The stack over whole runs

A push lowers the stack pointer and stores a register there; a pop loads what is
there and raises the pointer.  The pointer wraps around, so the stack is a ring
of 256 cells, and nothing keeps programs from jumping about between a push and
the pop that belongs to it.

What is pushed stays buried under what is pushed after it: the stack pointer is
as many cells below the pushed one as the nesting is deep, and a further push
stores elsewhere as long as the ring is not full.  `Buried` is this invariant.
It is kept by every cycle, because a push is the only operation that writes
memory and because programs that leave the stack pointer alone move it by pushes
and pops only.
-/

namespace Registers

/-- What a push stores. -/
theorem Bounded.low_cell_lowered {registers : Registers} (bounded : registers.Bounded)
    (slot : Fin 8) :
    Byte.low (registers.lowered.cell slot) =
      if slot = stackSlot then Byte.low (registers.stackPointer - 1) else registers.cell slot := by
  have lowered_bounded := bounded.lowered slot
  rw [Byte.low_eq_self lowered_bounded.1 lowered_bounded.2]
  exact cell_lowered registers slot

end Registers

namespace Machine

def named? (machine : Machine) (distance : Int) : Option (Fin 8) :=
  machine.registers.named? machine.memory distance

/-- How many of the next cycles execute a push. -/
def pushes (wiring : Wiring) (machine : Machine) (cycles : Nat) : Nat :=
  Nat.count (fun time => (machine.after wiring time).executes wiring = some .psh) cycles

/-- How many of the next cycles execute a pop. -/
def pops (wiring : Wiring) (machine : Machine) (cycles : Nat) : Nat :=
  Nat.count (fun time => (machine.after wiring time).executes wiring = some .pop) cycles

/-- The next instruction does not name the stack pointer as a register to
write.  Pushing and popping move it all the same. -/
def SparesStackPointer (wiring : Wiring) (machine : Machine) : Prop :=
  ∀ operation, machine.executes wiring = some operation → operation.hasDestination = true →
    machine.named? 1 ≠ some Registers.stackSlot

instance (wiring : Wiring) (machine : Machine) : Decidable (machine.SparesStackPointer wiring) :=
  decidable_of_iff (∀ operation ∈ machine.executes wiring, operation.hasDestination = true →
    machine.named? 1 ≠ some Registers.stackSlot) Iff.rfl

theorem SparesStackPointer.stackPointer_setCell {wiring : Wiring} {machine : Machine}
    (spares : machine.SparesStackPointer wiring) {operation : Operation} {slot : Fin 8}
    (executed : machine.executes wiring = some operation)
    (destination : operation.hasDestination = true) (named : machine.named? 1 = some slot)
    (value : Int) :
    (machine.registers.setCell slot value).stackPointer = machine.registers.stackPointer := by
  have other : Registers.stackSlot ≠ slot := by
    rintro rfl
    exact spares operation executed destination named
  simp [other]

/-- A byte is buried under so many cells of the stack, itself included, where the
stack pointer was at `base` before the byte was pushed. -/
structure Buried (base : Int) (byte : UInt8) (depth : Nat) (machine : Machine) : Prop where
  bounded : machine.registers.Bounded
  pointer : machine.registers.stackPointer = Byte.low (base - depth)
  stored : machine.memory.byteAt? (Byte.low (base - 1)) = some byte

namespace Buried

variable {wiring : Wiring} {machine : Machine} {base : Int} {byte : UInt8} {depth : Nat}

/-- A cycle that keeps the stack pointer and the memory keeps what is buried. -/
theorem kept {after : Machine} (buried : Buried base byte depth machine)
    (bounded : after.registers.Bounded)
    (pointer : after.registers.stackPointer = machine.registers.stackPointer)
    (memory : after.memory = machine.memory) : Buried base byte depth after where
  bounded := bounded
  pointer := pointer.trans buried.pointer
  stored := memory ▸ buried.stored

/-- A push buries a byte one deeper.  It comes back to the cell of this byte only when the ring
of 256 cells is full. -/
theorem pushed {after : Machine} {stored : Memory} {value : Int} {registers : Registers}
    (buried : Buried base byte depth machine) (inside : 0 < depth) (room : depth < 256)
    (same : registers.stackPointer = machine.registers.stackPointer)
    (stores : machine.memory.store registers.lowered.stackPointer value = .ok stored)
    (bounded : after.registers.Bounded)
    (pointer : after.registers.stackPointer = registers.lowered.stackPointer)
    (memory : after.memory = stored) : Buried base byte (depth + 1) after where
  bounded := bounded
  pointer := by
    rw [pointer, Registers.stackPointer_lowered, same, buried.pointer]
    simp only [Byte.low]
    omega
  stored := by
    have apart : Byte.low (base - 1) ≠ registers.lowered.stackPointer := by
      rw [Registers.stackPointer_lowered, same, buried.pointer]
      simp only [Byte.low]
      omega
    have found := buried.stored
    grind

/-- A pop digs a byte up by one. -/
theorem popped {after : Machine} {registers : Registers}
    (buried : Buried base byte depth machine) (inside : 0 < depth)
    (same : registers.stackPointer = machine.registers.stackPointer)
    (bounded : after.registers.Bounded)
    (pointer : after.registers.stackPointer = registers.raised.stackPointer)
    (memory : after.memory = machine.memory) : Buried base byte (depth - 1) after where
  bounded := bounded
  pointer := by
    rw [pointer, Registers.stackPointer_raised, same, buried.pointer]
    simp only [Byte.low]
    omega
  stored := memory ▸ buried.stored

/-- What a cycle does to a buried byte. -/
theorem next (buried : Buried base byte depth machine) (inside : 0 < depth)
    (succeeds : machine.succeeds wiring = true) (spares : machine.SparesStackPointer wiring)
    (room : machine.executes wiring = some .psh → depth < 256) :
    Buried base byte
      (depth + (if machine.executes wiring = some .psh then 1 else 0) -
        (if machine.executes wiring = some .pop then 1 else 0))
      (machine.next wiring) := by
  rcases next_of_succeeds succeeds with
    ⟨nothing, general, _, memory⟩ |
    ⟨operation, held, effect, executed, changes, general, _, memory⟩
  · rw [nothing, if_neg (by simp), if_neg (by simp)]
    exact buried.kept (buried.bounded.of_general general)
      (Registers.cell_of_general general _) memory
  · have bounded := Registers.Bounded.of_general general (changes.bounded buried.bounded)
    have pointer := Registers.cell_of_general general Registers.stackSlot
    cases changes with
    | nothing outcome notPsh notPop =>
        rw [executed, if_neg (by simpa using notPsh), if_neg (by simpa using notPop)]
        exact buried.kept bounded pointer memory
    | flag equal =>
        rw [executed, if_neg (by simp), if_neg (by simp)]
        exact buried.kept bounded pointer memory
    | emission value =>
        rw [executed, if_neg (by simp), if_neg (by simp)]
        exact buried.kept bounded pointer memory
    | cell value outcome destination named notPop =>
        have notPsh : operation ≠ .psh := by
          rintro rfl
          cases destination
        rw [executed, if_neg (by simpa using notPsh), if_neg (by simpa using notPop)]
        refine buried.kept bounded (pointer.trans ?_) memory
        exact spares.stackPointer_setCell executed destination named _
    | pushed outcome named stores =>
        rw [executed, if_pos rfl, if_neg (by simp)]
        exact buried.pushed inside (room executed) rfl stores bounded pointer memory
    | popped outcome named loads =>
        rw [executed, if_neg (by simp), if_pos rfl]
        exact buried.popped inside (spares.stackPointer_setCell executed rfl named _) bounded
          pointer memory

end Buried

variable {wiring : Wiring} {origin : Machine}

theorem pushes_succ (wiring : Wiring) (machine : Machine) (cycles : Nat) :
    machine.pushes wiring (cycles + 1) = machine.pushes wiring cycles +
      if (machine.after wiring cycles).executes wiring = some .psh then 1 else 0 :=
  Nat.count_succ _ _

theorem pops_succ (wiring : Wiring) (machine : Machine) (cycles : Nat) :
    machine.pops wiring (cycles + 1) = machine.pops wiring cycles +
      if (machine.after wiring cycles).executes wiring = some .pop then 1 else 0 :=
  Nat.count_succ _ _

/-- Right after a push its byte is buried by itself. -/
theorem buried_of_push (bounded : origin.registers.Bounded)
    (succeeds : origin.succeeds wiring = true) (push : origin.executes wiring = some .psh) :
    ∃ source, origin.named? 1 = some source ∧
      Buried origin.registers.stackPointer
        (Byte.ofInt (origin.registers.lowered.cell source)) 1 (origin.next wiring) := by
  rcases next_of_succeeds succeeds with
    ⟨nothing, _⟩ | ⟨operation, held, effect, executed, changes, general, _, memory⟩
  · rw [push] at nothing
    cases nothing
  · rw [push] at executed
    cases executed
    have bounded' := Registers.Bounded.of_general general (changes.bounded bounded)
    have pointer := Registers.cell_of_general general Registers.stackSlot
    cases changes with
    | nothing outcome notPsh => exact absurd rfl notPsh
    | cell value outcome destination => cases destination
    | @pushed source stored outcome named stores =>
        refine ⟨source, named, bounded', ?_, ?_⟩
        · exact pointer.trans (Registers.stackPointer_lowered _)
        · rw [memory, Memory.byteAt?_store stores, if_pos]
          · rfl
          · exact (Registers.stackPointer_lowered _).symm

/-- A pop of the byte on top of the stack puts it into the register that the pop
names. -/
theorem popped_of_buried {machine : Machine} {base : Int} {byte : UInt8}
    (buried : Buried base byte 1 machine) (inside : 0 ≤ base ∧ base < 256)
    (succeeds : machine.succeeds wiring = true) (spares : machine.SparesStackPointer wiring)
    (pop : machine.executes wiring = some .pop) :
    ∃ target, machine.named? 1 = some target ∧
      (machine.next wiring).registers.cell target = Byte.toInt byte ∧
      (machine.next wiring).registers.stackPointer = base := by
  have after := buried.next Nat.zero_lt_one succeeds spares (by simp [pop])
  rw [pop, if_neg (by simp), if_pos rfl] at after
  rcases next_of_succeeds succeeds with
    ⟨nothing, _⟩ | ⟨operation, held, effect, executed, changes, general, _, _⟩
  · rw [pop] at nothing
    cases nothing
  · rw [pop] at executed
    cases executed
    cases changes with
    | nothing outcome _ notPop => exact absurd rfl notPop
    | cell value outcome _ _ notPop => exact absurd rfl notPop
    | @popped target loaded outcome named loads =>
        have top : loaded = byte := by
          have found : machine.memory.byteAt? machine.registers.stackPointer = some loaded := loads
          rw [buried.pointer] at found
          exact Option.some.inj (found.symm.trans buried.stored)
        have other : target ≠ Registers.stackSlot := by
          rintro rfl
          exact spares .pop pop rfl named
        refine ⟨target, named, ?_, ?_⟩
        · simp only [Registers.cell_of_general general, Registers.cell_raised, if_neg other,
            Registers.cell_setCell, if_true, top]
          exact Byte.low_eq_self (Byte.toInt_nonneg byte) (Byte.toInt_lt byte)
        · rw [after.pointer]
          simp only [Byte.low]
          omega

/-- The first later cycle at which as many pops as pushes have been executed, the
push included, is the one that pops what was pushed. -/
structure Matches (wiring : Wiring) (machine : Machine) (distance : Nat) : Prop where
  later : 0 < distance
  balanced : machine.pops wiring (distance + 1) = machine.pushes wiring (distance + 1)
  first : ∀ time < distance, 0 < time →
    machine.pops wiring (time + 1) ≠ machine.pushes wiring (time + 1)

theorem pushes_one (push : origin.executes wiring = some .psh) : origin.pushes wiring 1 = 1 := by
  have none_before : origin.pushes wiring 0 = 0 := Nat.count_zero _
  have here : (origin.after wiring 0).executes wiring = some .psh := push
  rw [pushes_succ, none_before, if_pos here]

theorem pops_one (push : origin.executes wiring = some .psh) : origin.pops wiring 1 = 0 := by
  have none_before : origin.pops wiring 0 = 0 := Nat.count_zero _
  have here : (origin.after wiring 0).executes wiring = some .psh := push
  rw [pops_succ, none_before, here, if_neg (by simp)]

/-- Until it is popped, what was pushed is buried as deep as the pushes since are
ahead of the pops.  A cycle pops at most once, so being ahead is lost by drawing level first. -/
theorem buried_of_run (bounded : origin.registers.Bounded) {distance : Nat}
    (succeed : ∀ time < distance, (origin.after wiring time).succeeds wiring = true)
    (spares : ∀ time < distance, (origin.after wiring time).SparesStackPointer wiring)
    (push : origin.executes wiring = some .psh) {source : Fin 8}
    (named : origin.named? 1 = some source) (matched : origin.Matches wiring distance)
    (shallow : ∀ time < distance,
      origin.pushes wiring (time + 1) ≤ origin.pops wiring (time + 1) + 256)
    {time : Nat} (before : time < distance) :
    origin.pops wiring (time + 1) < origin.pushes wiring (time + 1) ∧
      Buried origin.registers.stackPointer (Byte.ofInt (origin.registers.lowered.cell source))
        (origin.pushes wiring (time + 1) - origin.pops wiring (time + 1))
        (origin.after wiring (time + 1)) := by
  induction time with
  | zero =>
      rcases buried_of_push bounded (succeed 0 before) push with ⟨pushed, named', buried⟩
      have same : pushed = source := Option.some.inj (named'.symm.trans named)
      subst same
      rw [Nat.zero_add, pushes_one push, pops_one push]
      exact ⟨Nat.zero_lt_one, buried⟩
  | succ time inductionHypothesis =>
      rcases inductionHypothesis (Nat.lt_of_succ_lt before) with ⟨ahead, buried⟩
      have unmatched := matched.first (time + 1) before (Nat.succ_pos time)
      have room := shallow (time + 1) before
      have pushes_next := pushes_succ wiring origin (time + 1)
      have pops_next := pops_succ wiring origin (time + 1)
      have after := buried.next (Nat.sub_pos_of_lt ahead) (succeed (time + 1) before)
        (spares (time + 1) before) (by
          intro executed
          rw [executed, if_pos rfl] at pushes_next
          rw [executed, if_neg (by simp)] at pops_next
          omega)
      have still : origin.pops wiring (time + 1 + 1) < origin.pushes wiring (time + 1 + 1) := by
        split at pops_next <;> omega
      have depth_eq : origin.pushes wiring (time + 1) - origin.pops wiring (time + 1) +
            (if (origin.after wiring (time + 1)).executes wiring = some .psh then 1 else 0) -
            (if (origin.after wiring (time + 1)).executes wiring = some .pop then 1 else 0) =
          origin.pushes wiring (time + 1 + 1) - origin.pops wiring (time + 1 + 1) := by
        omega
      rw [depth_eq] at after
      exact ⟨still, after⟩

/-- The cycle that draws level is a pop of the topmost byte. -/
theorem pop_of_matches {distance : Nat} (matched : origin.Matches wiring distance)
    (ahead : origin.pops wiring distance < origin.pushes wiring distance) :
    (origin.after wiring distance).executes wiring = some .pop ∧
      origin.pushes wiring distance - origin.pops wiring distance = 1 := by
  have level := matched.balanced
  rw [pushes_succ, pops_succ] at level
  by_cases pop : (origin.after wiring distance).executes wiring = some .pop
  · rw [pop, if_pos rfl, if_neg (by simp)] at level
    exact ⟨pop, by omega⟩
  · rw [if_neg pop] at level
    omega

theorem bounded_of_run (bounded : origin.registers.Bounded) {count : Nat}
    (succeed : ∀ time < count, (origin.after wiring time).succeeds wiring = true) :
    (origin.after wiring count).registers.Bounded := by
  induction count with
  | zero => exact bounded
  | succ count inductionHypothesis =>
      have earlier : (origin.after wiring count).registers.Bounded :=
        inductionHypothesis fun time before => succeed time (Nat.lt_succ_of_lt before)
      rcases (succeeds_iff wiring _).mp (succeed count (Nat.lt_succ_self count)) with ⟨_, ok⟩
      exact bounded_of_cycle_eq_ok earlier ok

/-- The pop that belongs to a push, told from the machine that pushes. -/
theorem popped_of_matches (bounded : origin.registers.Bounded) {distance : Nat}
    (succeed : ∀ time ≤ distance, (origin.after wiring time).succeeds wiring = true)
    (spares : ∀ time ≤ distance, (origin.after wiring time).SparesStackPointer wiring)
    (push : origin.executes wiring = some .psh) (matched : origin.Matches wiring distance)
    (shallow : ∀ time < distance,
      origin.pushes wiring (time + 1) ≤ origin.pops wiring (time + 1) + 256) :
    (origin.after wiring distance).executes wiring = some .pop ∧
    ∃ source target byte,
      origin.named? 1 = some source ∧
      (origin.next wiring).memory.byteAt? (origin.next wiring).registers.stackPointer =
        some byte ∧
      Byte.toInt byte =
        (if source = Registers.stackSlot then Byte.low (origin.registers.stackPointer - 1)
          else origin.registers.cell source) ∧
      (origin.after wiring distance).named? 1 = some target ∧
      (origin.after wiring (distance + 1)).registers.cell target = Byte.toInt byte ∧
      (origin.after wiring (distance + 1)).registers.stackPointer =
        origin.registers.stackPointer := by
  rcases buried_of_push bounded (succeed 0 (Nat.zero_le distance)) push with
    ⟨source, named, buried⟩
  have last : distance - 1 + 1 = distance := Nat.sub_add_cancel matched.later
  rcases buried_of_run bounded
      (fun time earlier => succeed time earlier.le) (fun time earlier => spares time earlier.le)
      push named matched shallow (Nat.sub_lt matched.later Nat.zero_lt_one) with
    ⟨ahead, on_top⟩
  rw [last] at ahead on_top
  rcases pop_of_matches matched ahead with ⟨pop, single⟩
  rw [single] at on_top
  rcases popped_of_buried on_top (bounded Registers.stackSlot) (succeed distance le_rfl)
      (spares distance le_rfl) pop with
    ⟨target, named_target, loaded, restored⟩
  refine ⟨pop, source, target, _, named, ?_, ?_, named_target, loaded, restored⟩
  · rw [buried.pointer]
    exact buried.stored
  · rw [Byte.toInt_ofInt]
    exact bounded.low_cell_lowered source

/-- A pop gives back what the push that belongs to it has stored, and puts the
stack pointer where it was.  The run may do anything in between, as long as it
leaves the stack pointer to pushes and pops and never nests deeper than the ring
of 256 cells. -/
theorem popped_of_pushed {start : Machine} (bounded : start.registers.Bounded) {length : Nat}
    (succeed : ∀ time < length, (start.after wiring time).succeeds wiring = true)
    (spares : ∀ time < length, (start.after wiring time).SparesStackPointer wiring)
    {time distance : Nat} (inside : time + distance < length)
    (push : (start.after wiring time).executes wiring = some .psh)
    (matched : (start.after wiring time).Matches wiring distance)
    (shallow : ∀ elapsed < distance, (start.after wiring time).pushes wiring (elapsed + 1) ≤
      (start.after wiring time).pops wiring (elapsed + 1) + 256) :
    let before := start.after wiring time
    let pushed := start.after wiring (time + 1)
    let popping := start.after wiring (time + distance)
    let popped := start.after wiring (time + distance + 1)
    popping.executes wiring = some .pop ∧
    ∃ source target byte,
      before.named? 1 = some source ∧
      pushed.memory.byteAt? pushed.registers.stackPointer = some byte ∧
      Byte.toInt byte =
        (if source = Registers.stackSlot then Byte.low (before.registers.stackPointer - 1)
          else before.registers.cell source) ∧
      popping.named? 1 = some target ∧
      popped.registers.cell target = Byte.toInt byte ∧
      popped.registers.stackPointer = before.registers.stackPointer := by
  intro before pushed popping popped
  have at_elapsed : ∀ elapsed,
      start.after wiring (time + elapsed) = before.after wiring elapsed := by
    intro elapsed
    exact after_add wiring start time elapsed
  have bounded_before : before.registers.Bounded := by
    apply bounded_of_run bounded
    intro elapsed earlier
    exact succeed elapsed (by omega)
  have succeed_after : ∀ elapsed ≤ distance,
      (before.after wiring elapsed).succeeds wiring = true := by
    intro elapsed within
    rw [← at_elapsed]
    exact succeed (time + elapsed) (by omega)
  have spares_after : ∀ elapsed ≤ distance,
      (before.after wiring elapsed).SparesStackPointer wiring := by
    intro elapsed within
    rw [← at_elapsed]
    exact spares (time + elapsed) (by omega)
  have popping_eq : popping = before.after wiring distance := at_elapsed distance
  have popped_eq : popped = before.after wiring (distance + 1) := at_elapsed (distance + 1)
  rw [popping_eq, popped_eq]
  exact popped_of_matches bounded_before succeed_after spares_after push matched shallow

/-- A machine that pushes `R0` and then the stack pointer, and pops both again.
Its first push stores at address zero, over its own opcode, and its second at the
far end of the ring. -/
def aroundZero : Machine where
  memory := ⟨⟨[0x0A, 0, 0x0A, 7, 0x0B, 1, 0x0B, 2] ++ List.replicate 248 0⟩, by decide +kernel⟩
  registers := { general := #v[65, 0, 0, 0, 0, 0, 0, 1] }

theorem popped_of_pushed_aroundZero :
    (aroundZero.after {} 4).registers.cell 2 = 65 ∧
      (aroundZero.after {} 4).registers.stackPointer = 1 := by
  rcases @popped_of_pushed {} aroundZero (by decide +kernel) 4 (by decide +kernel)
      (by decide +kernel) 0 3 (by decide) (by decide +kernel)
      ⟨by decide, by decide +kernel, by decide +kernel⟩ (by decide +kernel) with
    ⟨_, source, target, byte, named, _, stored, named_target, loaded, restored⟩
  have source_eq : aroundZero.named? 1 = some 0 := by decide +kernel
  have target_eq : (aroundZero.after {} 3).named? 1 = some 2 := by decide +kernel
  have target_two : target = 2 := Option.some.inj (named_target.symm.trans target_eq)
  have source_zero : source = 0 := Option.some.inj (named.symm.trans source_eq)
  subst target_two source_zero
  exact ⟨loaded.trans (stored.trans (by decide)), restored⟩

end Machine
end EightBit
