import Mathlib.Order.Bounds.Basic
import EightBit.Proofs.LifeCycle

namespace EightBit
namespace Machine

/-!
# How long a run is

A run looks at three things before each cycle: whether a pause was asked for, whether the
machine has halted, and whether the budget is used up.  Told by single cycles, it executes
the least number of them after which the machine has halted, or the budget is reached, or
the last of them was the one in which the device asked for a pause.

The two differ in the flag that says that a run is under way.  A run sets it at its start,
so that a pause that was asked for before is forgotten, and from then on the flag says that
no cycle has paused (`running_after`).  Everything else agrees with single cycles.
-/

variable {wiring : Wiring} {budget : Option Int} {machine final : Machine}

/-- Whether the device asks for a pause during the next cycle. -/
def pauses (wiring : Wiring) (machine : Machine) : Bool :=
  (machine.emission? wiring).isSome && (wiring.device machine.emissions.size).stops

/-- A run has nothing more to do after so many cycles. -/
def RestsAfter (wiring : Wiring) (budget : Option Int) (machine : Machine) (count : Nat) : Prop :=
  (machine.after wiring count).halted = true ∨
  (∃ limit, budget = some limit ∧ limit ≤ count) ∨
  ∃ earlier, count = earlier + 1 ∧ (machine.after wiring earlier).pauses wiring = true

/-!
## The flag of a run
-/

@[simp] theorem running_next (wiring : Wiring) (machine : Machine) :
    (machine.next wiring).running = (machine.running && !machine.pauses wiring) := by
  unfold pauses emission?
  rcases machine.next_emits wiring with ⟨same, kept⟩ | ⟨given, pushed, _, kept⟩
  · rw [same, kept, Array.getElem?_size]
    simp
  · rw [pushed, kept, Array.getElem?_push_size]
    simp

theorem Agrees.pauses_eq {other : Machine} (agrees : machine.Agrees other) (wiring : Wiring) :
    machine.pauses wiring = other.pauses wiring := by
  have later := (agrees.next wiring).1.size_eq
  have given : (machine.emission? wiring).isSome = (other.emission? wiring).isSome := by
    rw [Bool.eq_iff_iff, emission?, emission?, isSome_getElem?, isSome_getElem?, later,
      agrees.size_eq]
  rw [pauses, pauses, given, agrees.size_eq]

theorem started_agrees (machine : Machine) : machine.started.Agrees machine :=
  (Agrees.refl machine).aside true machine.journal

/-- While a run is under way, no cycle since its start has paused. -/
theorem running_after (wiring : Wiring) (machine : Machine) (count : Nat) :
    (machine.started.after wiring count).running = true ↔
      ∀ earlier < count, (machine.after wiring earlier).pauses wiring = false := by
  induction count with
  | zero =>
      apply iff_of_true rfl
      intro earlier impossible
      exact absurd impossible (Nat.not_lt_zero earlier)
  | succ count inductionHypothesis =>
      have agrees := (machine.started_agrees.after wiring count).pauses_eq wiring
      rw [after, running_next, Bool.and_eq_true, Bool.not_eq_true', inductionHypothesis, agrees,
        Nat.forall_lt_succ_right]

/-!
## What a run looks at
-/

/-- A run that had more to do after each number of cycles before has more to do now if it
does not rest. -/
theorem goesOn_iff_not_restsAfter {count : Nat}
    (busy : ∀ time < count, ¬ machine.RestsAfter wiring budget time) :
    (machine.started.after wiring count).goesOn budget count = true ↔
      ¬ machine.RestsAfter wiring budget count := by
  have halted_eq := (machine.started_agrees.after wiring count).halted_eq
  have within_iff : (budget.all fun limit => decide ((count : Int) < limit)) = true ↔
      ¬ ∃ limit, budget = some limit ∧ limit ≤ count := by
    cases budget <;> simp
  have calm_iff : (machine.started.after wiring count).running = true ↔
      ¬ ∃ earlier, count = earlier + 1 ∧ (machine.after wiring earlier).pauses wiring = true := by
    rw [running_after]
    constructor
    · rintro calm ⟨earlier, rfl, paused⟩
      rw [calm earlier (Nat.lt_succ_self earlier)] at paused
      cases paused
    · intro last earlier before
      rw [← Bool.not_eq_true]
      intro paused
      rcases Nat.lt_or_eq_of_le (Nat.succ_le_of_lt before) with sooner | here
      · exact busy (earlier + 1) sooner (Or.inr (Or.inr ⟨earlier, rfl, paused⟩))
      · exact last ⟨earlier, here.symm, paused⟩
  rw [goesOn, Bool.and_eq_true, Bool.and_eq_true, Bool.not_eq_true', halted_eq, within_iff,
    calm_iff, RestsAfter, not_or, not_or, Bool.not_eq_true]
  tauto

theorem goesOn_all_iff (wiring : Wiring) (budget : Option Int) (machine : Machine) (count : Nat) :
    (∀ time < count, (machine.started.after wiring time).goesOn budget time = true) ↔
      ∀ time < count, ¬ machine.RestsAfter wiring budget time := by
  induction count with
  | zero => simp
  | succ count inductionHypothesis =>
      rw [Nat.forall_lt_succ_right, Nat.forall_lt_succ_right, inductionHypothesis]
      exact and_congr_right goesOn_iff_not_restsAfter

theorem started_succeeds (wiring : Wiring) (machine : Machine) (time : Nat) :
    (machine.started.after wiring time).succeeds wiring =
      (machine.after wiring time).succeeds wiring := by
  rw [succeeds_eq, succeeds_eq, (machine.started_agrees.after wiring time).fault?_eq]

/-- A run that looks at too few cycles has executed all that it has looked at. -/
theorem drive_eq_unfinished {fuel executed count : Nat}
    (unfinished : machine.drive wiring budget fuel executed = .unfinished count final) :
    count = executed + fuel ∧ final = machine.after wiring fuel ∧
      (∀ time ≤ fuel, (machine.after wiring time).goesOn budget (executed + time) = true) ∧
      ∀ time < fuel, (machine.after wiring time).succeeds wiring = true := by
  induction fuel generalizing machine executed with
  | zero =>
      unfold drive at unfinished
      split at unfinished
      · rename_i goesOn
        cases unfinished
        refine ⟨rfl, rfl, ?_, ?_⟩
        · intro time none_left
          rw [Nat.le_zero.mp none_left]
          exact goesOn
        · intro time impossible
          exact absurd impossible (Nat.not_lt_zero time)
      · cases unfinished
  | succ fuel inductionHypothesis =>
      cases goesOn : machine.goesOn budget executed with
      | false =>
          rw [drive_of_stays goesOn] at unfinished
          cases unfinished
      | true =>
          cases ended : cycle wiring machine with
          | error fault failed =>
              rw [drive_of_cycle_eq_error goesOn ended] at unfinished
              cases unfinished
          | ok alive later =>
              have next_eq : machine.next wiring = later := by rw [next, ended]
              have here : machine.succeeds wiring = true := by rw [succeeds, ended]
              rw [drive_of_cycle_eq_ok goesOn ended, ← next_eq] at unfinished
              rcases inductionHypothesis unfinished with ⟨rfl, rfl, going, succeed⟩
              refine ⟨by omega, (after_next wiring machine fuel).symm, ?_, ?_⟩
              · intro time bound
                cases time with
                | zero => exact goesOn
                | succ time =>
                    have shift : executed + (time + 1) = executed + 1 + time := by omega
                    rw [after_next, shift]
                    exact going time (Nat.le_of_succ_le_succ bound)
              · intro time bound
                cases time with
                | zero => exact here
                | succ time =>
                    rw [after_next]
                    exact succeed time (Nat.lt_of_succ_lt_succ bound)

theorem cycles_after {count : Nat}
    (busy : ∀ time < count, ¬ machine.RestsAfter wiring budget time) :
    (machine.after wiring count).cycles = machine.cycles + count := by
  induction count with
  | zero => rfl
  | succ count inductionHypothesis =>
      have running : (machine.after wiring count).halted = false := by
        rw [← Bool.not_eq_true]
        exact fun halted => busy count (Nat.lt_succ_self count) (Or.inl halted)
      have earlier := inductionHypothesis fun time before => busy time (Nat.lt_succ_of_lt before)
      rw [after, cycles_next wiring running, earlier, Nat.add_assoc]

/-!
## What comes of a run
-/

/-- A run of a machine returns a number of cycles, which is the least after which it has
nothing more to do. -/
structure Returns (wiring : Wiring) (budget : Option Int) (machine : Machine) (count : Nat)
    (final : Machine) : Prop where
  least : IsLeast { cycles | machine.RestsAfter wiring budget cycles } count
  succeed : ∀ time < count, (machine.after wiring time).succeeds wiring = true
  agrees : final.Agrees (machine.after wiring count)
  idle : final.running = false
  cycles : final.cycles = machine.cycles + count

/-- A run of a machine ends in the fault of the cycle after a number of others. -/
structure Breaks (wiring : Wiring) (budget : Option Int) (machine : Machine) (fault : Fault)
    (count : Nat) (final : Machine) : Prop where
  busy : ∀ time ≤ count, ¬ machine.RestsAfter wiring budget time
  succeed : ∀ time < count, (machine.after wiring time).succeeds wiring = true
  fails : (machine.after wiring count).fault? wiring = some fault
  agrees : final.Agrees (machine.after wiring (count + 1))
  idle : final.running = false
  cycles : final.cycles = machine.cycles + (count + 1)

/-- A run of a machine has more to do after as many cycles as were looked at. -/
structure Persists (wiring : Wiring) (budget : Option Int) (machine : Machine) (count : Nat)
    (reached : Machine) : Prop where
  busy : ∀ time ≤ count, ¬ machine.RestsAfter wiring budget time
  succeed : ∀ time < count, (machine.after wiring time).succeeds wiring = true
  agrees : reached.Agrees (machine.after wiring count)
  cycles : reached.cycles = machine.cycles + count

/-- What a run has come to says how many cycles it has executed, and why no more. -/
def Progress.Tells (wiring : Wiring) (budget : Option Int) (machine : Machine) (fuel : Nat) :
    Progress → Prop
  | .returned count final => Returns wiring budget machine count final
  | .faulted fault count final => Breaks wiring budget machine fault count final
  | .unfinished count reached => count = fuel ∧ Persists wiring budget machine count reached

theorem returns_of_run {fuel count : Nat}
    (returned : machine.run wiring budget fuel = .returned count final) :
    Returns wiring budget machine count final := by
  rcases run_eq_returned_iff.mp returned with ⟨_, passes, stays, rfl⟩
  have busy := (goesOn_all_iff wiring budget machine count).mp fun time before =>
    (passes time before).1
  have agrees := (machine.started_agrees.after wiring count).aside false
    ((machine.started.after wiring count).conclude count).journal
  constructor
  · constructor
    · by_contra restless
      have goesOn := (goesOn_iff_not_restsAfter busy).mpr restless
      rw [stays] at goesOn
      cases goesOn
    · intro other rests
      apply Nat.le_of_not_lt
      exact fun before => busy other before rests
  · intro time before
    rw [← started_succeeds]
    exact (passes time before).2
  · exact agrees
  · rfl
  · exact agrees.cycles.trans (cycles_after busy)

theorem breaks_of_run {fuel count : Nat} {fault : Fault}
    (faulted : machine.run wiring budget fuel = .faulted fault count final) :
    Breaks wiring budget machine fault count final := by
  have ended : (machine.run wiring budget fuel).ending.isSome = true := by
    rw [faulted]
    rfl
  rcases stops_of_drive ended with ⟨reason, total, stops, enough⟩
  have same := (stops.drive enough).symm.trans faulted
  cases reason with
  | none => cases same
  | some failure =>
      simp only [stopped, Nat.zero_add, Progress.faulted.injEq] at same
      rcases same with ⟨rfl, rfl, rfl⟩
      have passes := stops.passes
      have goesOn := stops.goesOn
      simp only [Nat.zero_add] at passes goesOn
      have busy : ∀ time < total + 1, ¬ machine.RestsAfter wiring budget time := by
        rw [← goesOn_all_iff, Nat.forall_lt_succ_right]
        exact ⟨fun time before => (passes time before).1, goesOn⟩
      have agrees := (machine.started_agrees.after wiring (total + 1)).aside false
        (machine.started.after wiring (total + 1)).journal
      constructor
      · exact fun time bound => busy time (Nat.lt_succ_of_le bound)
      · intro time before
        rw [← started_succeeds]
        exact (passes time before).2
      · rw [← (machine.started_agrees.after wiring total).fault?_eq]
        exact stops.fails failure rfl
      · exact agrees
      · rfl
      · exact agrees.cycles.trans (cycles_after busy)

theorem persists_of_run {fuel count : Nat}
    (unfinished : machine.run wiring budget fuel = .unfinished count final) :
    count = fuel ∧ Persists wiring budget machine count final := by
  rcases drive_eq_unfinished unfinished with ⟨rfl, rfl, going, succeed⟩
  rw [Nat.zero_add]
  simp only [Nat.zero_add] at going
  have busy : ∀ time < fuel + 1, ¬ machine.RestsAfter wiring budget time := by
    rw [← goesOn_all_iff]
    exact fun time bound => going time (Nat.le_of_lt_succ bound)
  have agrees := machine.started_agrees.after wiring fuel
  refine ⟨rfl, ?_, ?_, agrees, ?_⟩
  · exact fun time bound => busy time (Nat.lt_succ_of_le bound)
  · intro time before
    rw [← started_succeeds]
    exact succeed time before
  · exact agrees.cycles.trans (cycles_after fun time before => busy time (Nat.lt_succ_of_lt before))

/-- What a run does, exactly.  If it returns, its cycles are those of as many steps, and
their number is the least after which the machine has halted, the budget is used up, or
the device has paused the last cycle.  If it breaks, it is in the fault of the next cycle.
A pause that was asked for before its start makes no difference. -/
theorem run_tells (wiring : Wiring) (budget : Option Int) (machine : Machine) (fuel : Nat) :
    (machine.run wiring budget fuel).Tells wiring budget machine fuel ∧
      machine.stop.run wiring budget fuel = machine.run wiring budget fuel := by
  constructor
  · cases ended : machine.run wiring budget fuel with
    | returned count final => exact returns_of_run ended
    | faulted fault count final => exact breaks_of_run ended
    | unfinished count reached => exact persists_of_run ended
  · rfl

/-- A run whose device pauses the second of its cycles ends there, and so does one that may
execute two.  One that may execute fewer than none executes none. -/
example :
    let pausing : Wiring := { device := fun index => { stops := index = 1 } }
    (printsTwice.run pausing none 9).begun = 2 ∧ (printsTwice.run {} (some 2) 9).begun = 2 ∧
      (printsTwice.run {} (some (-3)) 9).begun = 0 := by
  decide +kernel

end Machine
end EightBit
