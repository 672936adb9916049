import Mathlib.Data.Finset.Card
import EightBit.Proofs.Aftermath
import EightBit.Proofs.Ending
import EightBit.Proofs.Stack

namespace EightBit

/-!
# Who writes memory

Only a push writes memory, and only when it succeeds: one that fails has moved the
stack pointer and nothing else.  The memory after a run is therefore told by the
pushes that succeeded in it.  Each cell holds what the last of them stored there,
and what it held before the run if there was none.

`memory_next` says this of one cycle, of whatever kind it is and however it ends.
The history of a cell follows from it by induction on the length of the run.
-/

/-- The addresses at which a memory has come to hold another byte. -/
def Memory.changed (memory after : Memory) : Finset Nat :=
  (Finset.range memory.length).filter fun address =>
    after.byteAt? address ≠ memory.byteAt? address

namespace Machine

/-- The address and the byte that the next cycle stores, if it succeeds in a push.  What
is stored is the named register, read after the stack pointer was lowered. -/
def stores? (wiring : Wiring) (machine : Machine) : Option (Int × UInt8) :=
  if machine.succeeds wiring = true ∧ machine.executes wiring = some .psh then
    (machine.named? 1).map fun source =>
      (Byte.low (machine.registers.stackPointer - 1),
        Byte.ofInt (machine.registers.lowered.cell source))
  else none

/-- How many of the next cycles store a byte. -/
def stores (wiring : Wiring) (machine : Machine) (cycles : Nat) : Nat :=
  Nat.count (fun time => ((machine.after wiring time).stores? wiring).isSome = true) cycles

variable (wiring : Wiring) (machine : Machine)

theorem stores?_of_not_push {wiring : Wiring} {machine : Machine}
    (other : machine.executes wiring ≠ some .psh) : machine.stores? wiring = none :=
  if_neg fun pushes => other pushes.2

/-- A cycle changes the memory by the byte that it stores, or not at all. -/
theorem memory_next :
    (machine.stores? wiring = none ∧ (machine.next wiring).memory = machine.memory) ∨
    ∃ address value, machine.stores? wiring = some (address, Byte.ofInt value) ∧
      machine.memory.store address value = .ok (machine.next wiring).memory := by
  cases succeeds : machine.succeeds wiring with
  | false =>
      refine Or.inl ⟨by simp [stores?, succeeds], ?_⟩
      rcases (fails_iff wiring machine).mp succeeds with ⟨fault, failed⟩
      exact (left_of_cycle_eq_error failed).2
  | true =>
      rcases next_of_succeeds succeeds with
        ⟨nothing, _, _, memory⟩ | ⟨operation, held, effect, executed, changes, _, _, memory⟩
      · exact Or.inl ⟨stores?_of_not_push (by simp [nothing]), memory⟩
      · by_cases push : operation = .psh
        · subst push
          cases changes with
          | nothing outcome notPsh => exact absurd rfl notPsh
          | cell value outcome destination => cases destination
          | @pushed source stored outcome named stores =>
              have names : machine.named? 1 = some source := named
              have memory_eq : (machine.next wiring).memory = stored := memory
              refine Or.inr ⟨_, machine.registers.lowered.cell source, ?_, memory_eq ▸ stores⟩
              rw [stores?, if_pos ⟨succeeds, executed⟩, names, Option.map_some,
                ← Registers.stackPointer_lowered]
              rfl
        · refine Or.inl ⟨stores?_of_not_push ?_, memory.trans (changes.memory_of_ne push)⟩
          rw [executed]
          exact mt Option.some.inj push

/-- What a cycle makes of a cell. -/
theorem byteAt?_next (address : Int) :
    (machine.next wiring).memory.byteAt? address =
      match machine.stores? wiring with
      | some (target, byte) =>
        if address = target then some byte else machine.memory.byteAt? address
      | none => machine.memory.byteAt? address := by
  rcases machine.memory_next wiring with ⟨nothing, memory⟩ | ⟨target, value, stored, stores⟩
  · rw [nothing, memory]
  · rw [stored]
    exact Memory.byteAt?_store stores address

@[simp] theorem length_next : (machine.next wiring).memory.length = machine.memory.length := by
  rcases machine.memory_next wiring with ⟨_, memory⟩ | ⟨_, _, _, stores⟩
  · rw [memory]
  · exact Memory.length_store stores

@[simp] theorem length_after (count : Nat) :
    (machine.after wiring count).memory.length = machine.memory.length := by
  induction count with
  | zero => rfl
  | succ count inductionHypothesis => simp [after, inductionHypothesis]

/-!
## The history of a cell
-/

/-- The last of the next cycles to store a byte at an address has stored this one. -/
def LastStored (wiring : Wiring) (machine : Machine) (count : Nat) (address : Int)
    (byte : UInt8) : Prop :=
  ∃ time < count, (machine.after wiring time).stores? wiring = some (address, byte) ∧
    ∀ later < count, time < later →
      ∀ other, (machine.after wiring later).stores? wiring ≠ some (address, other)

/-- None of the next cycles stores a byte at an address. -/
def NeverStored (wiring : Wiring) (machine : Machine) (count : Nat) (address : Int) : Prop :=
  ∀ time < count, ∀ byte, (machine.after wiring time).stores? wiring ≠ some (address, byte)

theorem byteAt?_after (count : Nat) (address : Int) :
    (∃ byte, LastStored wiring machine count address byte ∧
      (machine.after wiring count).memory.byteAt? address = some byte) ∨
    (NeverStored wiring machine count address ∧
      (machine.after wiring count).memory.byteAt? address = machine.memory.byteAt? address) := by
  have stays : ∀ time,
      (¬ ∃ byte, (machine.after wiring time).stores? wiring = some (address, byte)) →
        (machine.after wiring (time + 1)).memory.byteAt? address =
          (machine.after wiring time).memory.byteAt? address := by
    intro time elsewhere
    refine (byteAt?_next wiring (machine.after wiring time) address).trans ?_
    cases stored : (machine.after wiring time).stores? wiring with
    | none => rfl
    | some entry =>
        have apart : address ≠ entry.1 := by
          rintro rfl
          exact elsewhere ⟨entry.2, stored⟩
        exact if_neg apart
  rcases since_last (fun time => (machine.after wiring time).memory.byteAt? address) stays
      count with
    ⟨time, before, ⟨byte, stored⟩, last, same⟩ | ⟨never, same⟩
  · have reached := byteAt?_next wiring (machine.after wiring time) address
    simp only [stored, if_true] at reached
    refine Or.inl ⟨byte, ⟨time, before, stored, ?_⟩, same.trans reached⟩
    exact fun later bound after other again => last later bound after ⟨other, again⟩
  · exact Or.inr ⟨fun time bound byte again => never time bound ⟨byte, again⟩, same⟩

/-!
## The memory after a run
-/

/-- The stack lies in the first 256 cells. -/
theorem lt_of_stores? {wiring : Wiring} {machine : Machine} {address : Int} {byte : UInt8}
    (stored : machine.stores? wiring = some (address, byte)) : address < 256 := by
  unfold stores? at stored
  split at stored
  · rcases Option.map_eq_some_iff.mp stored with ⟨source, _, entry⟩
    cases entry
    exact Byte.low_lt _
  · cases stored

theorem stores_le_pushes (count : Nat) :
    machine.stores wiring count ≤ machine.pushes wiring count := by
  apply Nat.count_mono_left
  intro time _ stored
  by_contra other
  rw [stores?_of_not_push other] at stored
  cases stored

theorem memory_after_of_not_push {count : Nat}
    (others : ∀ time < count, (machine.after wiring time).executes wiring ≠ some .psh) :
    (machine.after wiring count).memory = machine.memory := by
  induction count with
  | zero => rfl
  | succ count inductionHypothesis =>
      have earlier := inductionHypothesis fun time before => others time (Nat.lt_succ_of_lt before)
      have nothing := stores?_of_not_push (others count (Nat.lt_succ_self count))
      rcases (machine.after wiring count).memory_next wiring with
        ⟨_, memory⟩ | ⟨address, value, stored, _⟩
      · exact memory.trans earlier
      · rw [nothing] at stored
        cases stored

/-- Every byte that is stored changes one cell or none. -/
theorem card_changed_le (count : Nat) :
    (machine.memory.changed (machine.after wiring count).memory).card ≤
      machine.stores wiring count := by
  induction count with
  | zero => simp [Memory.changed, after]
  | succ count inductionHypothesis =>
      have reached := byteAt?_next wiring (machine.after wiring count)
      rw [stores, Nat.count_succ, ← stores]
      cases stored : (machine.after wiring count).stores? wiring with
      | none =>
          simp only [stored] at reached
          simp only [Memory.changed, after, reached] at inductionHypothesis ⊢
          simpa using inductionHypothesis
      | some entry =>
          rcases entry with ⟨target, byte⟩
          simp only [stored] at reached
          have within : machine.memory.changed (machine.after wiring (count + 1)).memory ⊆
              insert target.toNat (machine.memory.changed (machine.after wiring count).memory) := by
            intro address member
            rcases Finset.mem_filter.mp member with ⟨inside, differs⟩
            rw [after, reached] at differs
            by_cases same : (address : Int) = target
            · rw [← same, Int.toNat_natCast]
              exact Finset.mem_insert_self _ _
            · rw [if_neg same] at differs
              exact Finset.mem_insert_of_mem (Finset.mem_filter.mpr ⟨inside, differs⟩)
          have card := (Finset.card_le_card within).trans (Finset.card_insert_le _ _)
          simpa using card.trans (Nat.succ_le_succ inductionHypothesis)

/-- What a memory has to do with the pushes among the cycles that were executed from a
machine on. -/
structure WrittenByPushes (wiring : Wiring) (machine : Machine) (count : Nat) (final : Memory) :
    Prop where
  history : ∀ address,
    (∃ byte, LastStored wiring machine count address byte ∧ final.byteAt? address = some byte) ∨
    (NeverStored wiring machine count address ∧
      final.byteAt? address = machine.memory.byteAt? address)
  beyond : ∀ address, 256 ≤ address → final.byteAt? address = machine.memory.byteAt? address
  unpushed : (∀ time < count, (machine.after wiring time).executes wiring ≠ some .psh) →
    final = machine.memory
  changed : (machine.memory.changed final).card ≤ machine.stores wiring count
  stores : machine.stores wiring count ≤ machine.pushes wiring count

theorem after_writtenByPushes (count : Nat) :
    WrittenByPushes wiring machine count (machine.after wiring count).memory where
  history := byteAt?_after wiring machine count
  beyond := by
    intro address above
    rcases byteAt?_after wiring machine count address with
      ⟨byte, ⟨time, _, stored, _⟩, _⟩ | ⟨_, kept⟩
    · exact absurd (lt_of_stores? stored) (not_lt.mpr above)
    · exact kept
  unpushed := memory_after_of_not_push wiring machine
  changed := card_changed_le wiring machine count
  stores := stores_le_pushes wiring machine count

/-- Whatever cycles are executed, in a row or by a run, and however the last of them
ends, the memory is what the pushes that have succeeded in them have made of it. -/
theorem memory_writtenByPushes :
    (∀ count, WrittenByPushes wiring machine count (machine.after wiring count).memory) ∧
    ∀ budget fuel, WrittenByPushes wiring machine.started (machine.run wiring budget fuel).begun
      (machine.run wiring budget fuel).machine.memory := by
  refine ⟨after_writtenByPushes wiring machine, ?_⟩
  intro budget fuel
  have memory_eq : (machine.run wiring budget fuel).machine.memory =
      (machine.started.after wiring (machine.run wiring budget fuel).begun).memory := by
    rcases run_eq_after wiring budget fuel machine with ⟨running, journal, reached⟩
    rw [reached]
  rw [memory_eq]
  exact after_writtenByPushes wiring machine.started _

/-- Two pushes that go around the end of the stack.  The second one stores the lowered stack
pointer itself. -/
example : (List.range 4).map (fun time => (aroundZero.after {} time).stores? {}) =
    [some (0, 65), some (255, 255), none, none] := by
  decide +kernel

/-- A push that fails is one that stores nothing. -/
example : pushesNothing.pushes {} 1 = 1 ∧ pushesNothing.stores {} 1 = 0 := by
  decide +kernel

end Machine
end EightBit
