import EightBit.Proofs.RunLength
import EightBit.Proofs.Writing

namespace EightBit
namespace Machine

/-!
# Loops need backward jumps

A cycle that neither fails nor halts takes the program counter up by at least one, unless
it is a jump that is taken; and it has fetched its opcode from a cell.  So when no jump goes
back the program counter leaves the memory after no more cycles than there are cells, and
the next one fails.  What the program writes over itself is no matter, since no operation
but a jump can go back, whichever it is.

The measure is what is left of the memory above the program counter.  `rises` is its step,
and `le_length_of_forward` is what follows for cycles in a row.
-/

variable {wiring : Wiring} {budget : Option Int} {machine : Machine}

/-- The next cycle is executed, and it neither fails nor halts the machine. -/
structure Proceeds (wiring : Wiring) (machine : Machine) : Prop where
  running : machine.halted = false
  succeeds : machine.succeeds wiring = true
  alive : (machine.next wiring).halted = false

/-- The next cycle takes a jump to an address that is not above its own. -/
structure JumpsBack (wiring : Wiring) (machine : Machine) : Prop where
  taken : ∃ condition, machine.executes wiring = some (.jump condition) ∧
    condition.holds machine.registers.equalFlag = true
  succeeds : machine.succeeds wiring = true
  back : (machine.next wiring).registers.programCounter ≤ machine.registers.programCounter

/-- A cycle that goes on has read a cell, and goes on behind it or jumps back.  It has executed
an instruction, since a byte without one halts the machine. -/
theorem rises (proceeds : machine.Proceeds wiring) :
    machine.memory.Contains machine.registers.programCounter ∧
      (machine.JumpsBack wiring ∨
        machine.registers.programCounter + 1 ≤
          (machine.next wiring).registers.programCounter) := by
  rcases (succeeds_iff wiring machine).mp proceeds.succeeds with ⟨alive, ok⟩
  rcases cycle_eq_ok proceeds.running ok with ⟨plan, journal, planned, _, next_eq, _⟩
  have moved : (machine.next wiring).registers.programCounter = plan.commit.next := by
    rw [next_eq]
    rfl
  rcases InstructionTable.plan_eq_ok planned with
    ⟨opcode, fetched, ⟨instruction, found, executed, commit_eq⟩ | ⟨_, _, _, commit_eq⟩⟩
  · have inside := Memory.contains_of_byteAt? fetched
    have goes : (machine.next wiring).registers.programCounter = plan.effect.outcome.next := by
      rw [moved, commit_eq]
      rfl
    refine ⟨inside, ?_⟩
    have held : machine.memory.Contains ({ machine.registers with
        instructionRegister := Byte.toInt opcode } : Registers).programCounter := inside
    rcases Operation.next_of_effect held executed with
      ⟨condition, slot, operation_eq, taken, _, _⟩ | ⟨behind, _⟩
    · by_cases back : (machine.next wiring).registers.programCounter ≤
          machine.registers.programCounter
      · apply Or.inl
        constructor
        · refine ⟨condition, ?_, taken⟩
          rw [executes_of_find? proceeds.running fetched found, operation_eq]
        · exact proceeds.succeeds
        · exact back
      · apply Or.inr
        omega
    · apply Or.inr
      dsimp only at behind
      omega
  · have alive := proceeds.alive
    rw [next_eq, settle_halted, commit_eq] at alive
    cases alive

/-- Without a jump that goes back the program counter rises with every cycle. -/
theorem programCounter_of_forward {count : Nat}
    (proceed : ∀ time < count, (machine.after wiring time).Proceeds wiring)
    (forward : ∀ time < count, ¬ (machine.after wiring time).JumpsBack wiring) :
    machine.registers.programCounter + count ≤
      (machine.after wiring count).registers.programCounter := by
  induction count with
  | zero => exact le_of_eq (Int.add_zero _)
  | succ count inductionHypothesis =>
      have reached := inductionHypothesis
        (fun time before => proceed time (Nat.lt_succ_of_lt before))
        (fun time before => forward time (Nat.lt_succ_of_lt before))
      rcases (rises (proceed count (Nat.lt_succ_self count))).2 with back | above
      · exact absurd back (forward count (Nat.lt_succ_self count))
      · rw [after]
        omega

/-- So there are no more such cycles than cells. -/
theorem le_length_of_forward {count : Nat}
    (proceed : ∀ time < count, (machine.after wiring time).Proceeds wiring)
    (forward : ∀ time < count, ¬ (machine.after wiring time).JumpsBack wiring) :
    count ≤ machine.memory.length := by
  cases count with
  | zero => exact Nat.zero_le _
  | succ last =>
      have reached := programCounter_of_forward
        (fun time before => proceed time (Nat.lt_succ_of_lt before))
        (fun time before => forward time (Nat.lt_succ_of_lt before))
      have first := (rises (proceed 0 (Nat.succ_pos last))).1.1
      have inside := (rises (proceed last (Nat.lt_succ_self last))).1.2
      rw [length_after] at inside
      rw [after] at first
      omega

/-!
## Runs
-/

/-- A run that has more to do before a cycle and behind it has gone on in it. -/
theorem proceeds_of_busy {time : Nat} (before : ¬ machine.RestsAfter wiring budget time)
    (behind : ¬ machine.RestsAfter wiring budget (time + 1))
    (succeeds : (machine.after wiring time).succeeds wiring = true) :
    (machine.after wiring time).Proceeds wiring := by
  constructor
  · rw [← Bool.not_eq_true]
    exact fun halted => before (Or.inl halted)
  · exact succeeds
  · rw [← Bool.not_eq_true]
    exact fun halted => behind (Or.inl halted)

/-- All cycles that a run has begun have gone on, but perhaps the last of them. -/
theorem proceeds_of_begun {fuel time : Nat}
    (before : time + 1 < (machine.run wiring budget fuel).begun) :
    (machine.after wiring time).Proceeds wiring := by
  cases ended : machine.run wiring budget fuel with
  | returned count final =>
      rw [ended] at before
      change time + 1 < count at before
      have returns := returns_of_run ended
      have busy : ∀ earlier < count, ¬ machine.RestsAfter wiring budget earlier :=
        fun earlier bound rests => Nat.not_le.mpr bound (returns.least.2 rests)
      have here := Nat.lt_of_succ_lt before
      exact proceeds_of_busy (busy time here) (busy (time + 1) before) (returns.succeed time here)
  | faulted fault count final =>
      rw [ended] at before
      have here : time < count := Nat.lt_of_succ_lt_succ before
      have breaks := breaks_of_run ended
      exact proceeds_of_busy (breaks.busy time here.le) (breaks.busy (time + 1) here)
        (breaks.succeed time here)
  | unfinished count reached =>
      rw [ended] at before
      have here : time < count := Nat.lt_of_succ_lt before
      have persists := (persists_of_run ended).2
      exact proceeds_of_busy (persists.busy time here.le) (persists.busy (time + 1) here)
        (persists.succeed time here)

/-- Loops need backward jumps.  A run in which no jump goes back ends, and it begins one
cycle more than there are cells at most: of a run that is still under way all cycles have gone
on, which are too many.  Wherever as many cycles in a row go on, one of
them jumps back. -/
theorem run_ends_unless_jumpsBack (wiring : Wiring) (budget : Option Int) (machine : Machine) :
    (∀ fuel, (∀ time < (machine.run wiring budget fuel).begun,
        ¬ (machine.after wiring time).JumpsBack wiring) →
      (machine.run wiring budget fuel).begun ≤ machine.memory.length + 1 ∧
      (machine.memory.length < fuel →
        (∃ count final, machine.run wiring budget fuel = .returned count final ∧
          machine.RestsAfter wiring budget count) ∨
        ∃ fault count final, machine.run wiring budget fuel = .faulted fault count final ∧
          (machine.after wiring count).fault? wiring = some fault)) ∧
    ∀ first, (∀ time ≤ machine.memory.length,
        (machine.after wiring (first + time)).Proceeds wiring) →
      ∃ time ≤ machine.memory.length, (machine.after wiring (first + time)).JumpsBack wiring := by
  constructor
  · intro fuel forward
    constructor
    · have proceed : ∀ time < (machine.run wiring budget fuel).begun - 1,
          (machine.after wiring time).Proceeds wiring := by
        intro time before
        have sooner : time + 1 < (machine.run wiring budget fuel).begun := by omega
        exact proceeds_of_begun sooner
      have bound := le_length_of_forward proceed fun time before => forward time (by omega)
      omega
    · intro enough
      cases ended : machine.run wiring budget fuel with
      | returned count final =>
          exact Or.inl ⟨count, final, rfl, (returns_of_run ended).least.1⟩
      | faulted fault count final =>
          exact Or.inr ⟨fault, count, final, rfl, (breaks_of_run ended).fails⟩
      | unfinished count reached =>
          rw [ended] at forward
          rcases persists_of_run ended with ⟨rfl, persists⟩
          have bound := le_length_of_forward
            (fun time before => proceeds_of_busy (persists.busy time before.le)
              (persists.busy (time + 1) before) (persists.succeed time before))
            forward
          exact absurd enough (Nat.not_lt.mpr bound)
  · intro first proceed
    by_contra none_back
    push Not at none_back
    have bound := @le_length_of_forward wiring (machine.after wiring first)
      (machine.memory.length + 1)
      (fun time before => after_add wiring machine first time ▸
        proceed time (Nat.le_of_lt_succ before))
      (fun time before => after_add wiring machine first time ▸
        none_back time (Nat.le_of_lt_succ before))
    rw [length_after] at bound
    exact absurd bound (Nat.not_succ_le_self _)

/-- A machine that pushes over the instruction behind, which it then executes. -/
def pushesOverItself : Machine where
  memory := ⟨#[0x0A, 0, 0, 0], by decide⟩
  registers := { general := #v[0x1B, 0, 0, 0, 0, 0, 0, 3] }

/-- It does not jump, so it ends after five cycles at most. -/
theorem run_ends_unless_jumpsBack_pushesOverItself :
    (pushesOverItself.run {} none 9).begun ≤ 5 ∧
      ∃ count final, pushesOverItself.run {} none 9 = .returned count final ∧
        pushesOverItself.RestsAfter {} none count := by
  have begun : (pushesOverItself.run {} none 9).begun = 2 := by decide +kernel
  have executed : ∀ time < 2, (pushesOverItself.after {} time).executes {} =
      if time = 0 then some .psh else some .hlt := by decide +kernel
  have forward : ∀ time < (pushesOverItself.run {} none 9).begun,
      ¬ (pushesOverItself.after {} time).JumpsBack {} := by
    rintro time before ⟨⟨condition, jumps, _⟩, _, _⟩
    rw [executed time (begun ▸ before)] at jumps
    split at jumps <;> cases jumps
  rcases (run_ends_unless_jumpsBack {} none pushesOverItself).1 9 forward with ⟨bound, ends⟩
  refine ⟨bound, (ends (by decide)).resolve_right ?_⟩
  rintro ⟨fault, count, final, faulted, _⟩
  have returned : (pushesOverItself.run {} none 9).ending.map Prod.fst = some none := by
    decide +kernel
  rw [faulted] at returned
  cases returned

end Machine
end EightBit
