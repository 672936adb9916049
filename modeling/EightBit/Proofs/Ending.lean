import EightBit.Machine.Run
import EightBit.Proofs.Agreement

namespace EightBit
namespace Machine

/-!
# How a machine comes to its end

Left to itself, without a budget and without a device that asks for a pause, a
machine works until it halts or traps.  `Ends` is this told by the cycles alone.
A run with enough fuel comes to the same end, which `Ends.of_run` says.
-/

/-- How a run has ended, if it has: its fault, if there was one, how many cycles
it has begun, and the machine at the end. -/
def Progress.ending : Progress → Option (Option Fault × Nat × Machine)
  | .returned executed machine => some (none, executed, machine)
  | .faulted fault executed machine => some (some fault, executed + 1, machine)
  | .unfinished .. => none

def Progress.machine : Progress → Machine
  | .returned _ machine => machine
  | .faulted _ _ machine => machine
  | .unfinished _ machine => machine

/-- How many cycles a run has begun, the one that failed included. -/
def Progress.begun : Progress → Nat
  | .returned executed _ => executed
  | .faulted _ executed _ => executed + 1
  | .unfinished executed _ => executed

/-- A machine comes to its end after so many cycles, with a fault if the last of
them fails. -/
inductive Ends (wiring : Wiring) : Machine → Option Fault → Nat → Machine → Prop where
  | halted {machine : Machine} (halted : machine.halted = true) :
      Ends wiring machine none 0 machine
  | failed {machine after : Machine} {fault : Fault} (running : machine.halted = false)
      (failed : cycle wiring machine = .error fault after) :
      Ends wiring machine (some fault) 1 after
  | cycle {machine after final : Machine} {alive : Bool} {fault : Option Fault} {count : Nat}
      (running : machine.halted = false) (ok : cycle wiring machine = .ok alive after)
      (rest : Ends wiring after fault count final) :
      Ends wiring machine fault (count + 1) final

variable {wiring : Wiring} {machine final : Machine} {fault : Option Fault}

theorem Ends.cycles {count : Nat} (ends : Ends wiring machine fault count final) :
    final.cycles = machine.cycles + count := by
  induction ends with
  | halted _ => rfl
  | failed _ failed => exact cycles_of_cycle_eq_error failed
  | cycle running ok _ inductionHypothesis =>
      rw [inductionHypothesis, cycles_of_cycle_eq_ok running ok]
      omega

/-- Under a device that never fails a fault is a trap. -/
theorem Ends.isTrap {count : Nat} {failure : Fault}
    (ends : Ends wiring.undisturbed machine (some failure) count final) :
    failure.isTrap = true := by
  generalize ending : some failure = fault at ends
  induction ends with
  | halted _ => cases ending
  | failed _ failed =>
      cases ending
      rcases cycle_eq_error failed with
        ⟨failure, _, _, fault_eq, _⟩ | ⟨_, _, _, refused, _⟩
      · rw [fault_eq]
        exact failure.isTrap
      · rw [refuses_undisturbed] at refused
        cases refused
  | cycle _ _ _ inductionHypothesis => exact inductionHypothesis ending

theorem delivered_running (machine : Machine) {device : Nat → Reply}
    (calm : ∀ index, (device index).stops = false) (emission : Option Int) :
    (machine.delivered device emission).running = machine.running := by
  cases emission with
  | none => rfl
  | some value => simp [delivered, emitted, calm]

theorem goesOn_iff (machine : Machine) (executed : Nat) :
    machine.goesOn none executed = true ↔ machine.running = true ∧ machine.halted = false := by
  simp [goesOn]

/-- A device that does not ask for a pause leaves a run under way. -/
theorem running_of_cycle_eq_ok {after : Machine} {alive : Bool}
    (calm : ∀ index, (wiring.device index).stops = false) (running : machine.halted = false)
    (ok : Machine.cycle wiring machine = .ok alive after) : after.running = machine.running := by
  rcases cycle_eq_ok running ok with ⟨plan, journal, _, _, after_eq, _⟩
  rw [after_eq]
  exact machine.delivered_running calm plan.effect.emission

theorem drive_of_stays {budget : Option Int} {executed : Nat}
    (stays : machine.goesOn budget executed = false) (fuel : Nat) :
    machine.drive wiring budget fuel executed = .returned executed (machine.conclude executed) := by
  unfold drive
  rw [if_neg (by simp [stays])]

theorem drive_of_halted {budget : Option Int} (halted : machine.halted = true)
    (fuel executed : Nat) :
    machine.drive wiring budget fuel executed = .returned executed (machine.conclude executed) :=
  drive_of_stays (by simp [goesOn, halted]) fuel

theorem run_of_halted (wiring : Wiring) (budget : Option Int) (fuel : Nat)
    (halted : machine.halted = true) :
    machine.run wiring budget fuel = .returned 0 (machine.started.conclude 0) := by
  have started : machine.started.halted = true := halted
  exact drive_of_halted started fuel 0

theorem drive_of_cycle_eq_error {budget : Option Int} {executed : Nat} {after : Machine}
    {failure : Fault} (goesOn : machine.goesOn budget executed = true)
    (failed : Machine.cycle wiring machine = .error failure after) (fuel : Nat) :
    machine.drive wiring budget (fuel + 1) executed = .faulted failure executed after.stop := by
  simp only [drive, goesOn, if_true, failed]

theorem drive_of_cycle_eq_ok {budget : Option Int} {executed : Nat} {after : Machine}
    {alive : Bool} (goesOn : machine.goesOn budget executed = true)
    (ok : Machine.cycle wiring machine = .ok alive after) (fuel : Nat) :
    machine.drive wiring budget (fuel + 1) executed =
      after.drive wiring budget fuel (executed + 1) := by
  rw [drive]
  simp only [goesOn, if_true, ok]

/-- A run has begun the cycles that it has executed. -/
theorem executed_le_begun (wiring : Wiring) (budget : Option Int) (machine : Machine)
    (fuel executed : Nat) : executed ≤ (machine.drive wiring budget fuel executed).begun := by
  induction fuel generalizing executed machine with
  | zero =>
      unfold drive
      split <;> exact Nat.le_refl executed
  | succ fuel inductionHypothesis =>
      unfold drive
      split
      · cases Machine.cycle wiring machine with
        | ok alive after =>
            exact Nat.le_trans (Nat.le_succ executed) (inductionHypothesis after (executed + 1))
        | error fault after => exact Nat.le_succ executed
      · exact Nat.le_refl executed

/-!
## Where runs stop
-/

/-- A run executes so many cycles before it stops: they were all to be executed and have
succeeded, and then there is nothing more to do, or the next cycle fails. -/
structure Stops (wiring : Wiring) (budget : Option Int) (machine : Machine) (executed : Nat)
    (fault : Option Fault) (count : Nat) : Prop where
  passes : ∀ time < count, (machine.after wiring time).goesOn budget (executed + time) = true ∧
    (machine.after wiring time).succeeds wiring = true
  goesOn : (machine.after wiring count).goesOn budget (executed + count) = fault.isSome
  fails : ∀ failure, fault = some failure →
    (machine.after wiring count).fault? wiring = some failure

/-- How many cycles a run has begun that stops so. -/
def begunOf (fault : Option Fault) (count : Nat) : Nat :=
  if fault.isSome then count + 1 else count

/-- What a run comes to that stops so. -/
def stopped (wiring : Wiring) (machine : Machine) (executed : Nat) (fault : Option Fault)
    (count : Nat) : Progress :=
  match fault with
  | none => .returned (executed + count) ((machine.after wiring count).conclude (executed + count))
  | some failure =>
    .faulted failure (executed + count) ((machine.after wiring count).next wiring).stop

theorem stops_succ_iff {budget : Option Int} {executed count : Nat} :
    Stops wiring budget machine executed fault (count + 1) ↔
      machine.goesOn budget executed = true ∧ machine.succeeds wiring = true ∧
        Stops wiring budget (machine.next wiring) (executed + 1) fault count := by
  have shift : ∀ time, executed + 1 + time = executed + (time + 1) := by omega
  constructor
  · rintro ⟨passes, goesOn, fails⟩
    have first := passes 0 (Nat.succ_pos count)
    refine ⟨first.1, first.2, ?_, ?_, ?_⟩
    · intro time bound
      rw [← after_next, shift]
      exact passes (time + 1) (Nat.succ_lt_succ bound)
    · rw [← after_next, shift]
      exact goesOn
    · rw [← after_next]
      exact fails
  · rintro ⟨first, succeeds, passes, goesOn, fails⟩
    refine ⟨?_, ?_, ?_⟩
    · intro time bound
      cases time with
      | zero => exact ⟨first, succeeds⟩
      | succ time =>
          rw [after_next, ← shift]
          exact passes time (Nat.lt_of_succ_lt_succ bound)
    · rw [after_next, ← shift]
      exact goesOn
    · rw [after_next]
      exact fails

theorem stopped_succ (wiring : Wiring) (machine : Machine) (executed : Nat)
    (fault : Option Fault) (count : Nat) :
    stopped wiring machine executed fault (count + 1) =
      stopped wiring (machine.next wiring) (executed + 1) fault count := by
  have shift : executed + 1 + count = executed + (count + 1) := by omega
  cases fault <;> simp only [stopped, after_next, shift]

/-- A run that stops comes to its end if enough cycles are looked at. -/
theorem Stops.drive {budget : Option Int} {executed count : Nat}
    (stops : Stops wiring budget machine executed fault count) {fuel : Nat}
    (enough : begunOf fault count ≤ fuel) :
    machine.drive wiring budget fuel executed = stopped wiring machine executed fault count := by
  induction count generalizing machine executed fuel with
  | zero =>
      cases fault with
      | none => exact drive_of_stays stops.goesOn fuel
      | some failure =>
          cases fuel with
          | zero => exact absurd enough (Nat.not_succ_le_zero 0)
          | succ fuel =>
              have failed :=
                (fault?_eq_some_iff wiring machine failure).mp (stops.fails failure rfl)
              exact drive_of_cycle_eq_error stops.goesOn failed fuel
  | succ count inductionHypothesis =>
      rcases stops_succ_iff.mp stops with ⟨goesOn, succeeds, later⟩
      rcases (succeeds_iff wiring machine).mp succeeds with ⟨alive, ok⟩
      have enough' : begunOf fault count + 1 ≤ fuel := by
        cases fault <;> exact enough
      cases fuel with
      | zero => exact absurd enough' (Nat.not_succ_le_zero _)
      | succ fuel =>
          rw [drive_of_cycle_eq_ok goesOn ok, stopped_succ]
          exact inductionHypothesis later (Nat.le_of_succ_le_succ enough')

theorem stops_of_stays {budget : Option Int} {executed : Nat}
    (stays : machine.goesOn budget executed = false) :
    Stops wiring budget machine executed none 0 where
  passes := fun _ impossible => absurd impossible (Nat.not_lt_zero _)
  goesOn := stays
  fails := nofun

theorem stops_of_cycle_eq_error {budget : Option Int} {executed : Nat} {after : Machine}
    {failure : Fault} (goesOn : machine.goesOn budget executed = true)
    (failed : Machine.cycle wiring machine = .error failure after) :
    Stops wiring budget machine executed (some failure) 0 where
  passes := fun _ impossible => absurd impossible (Nat.not_lt_zero _)
  goesOn := goesOn
  fails := by
    intro other same
    rw [← same, Machine.after, fault?, failed]

/-- A run that has come to its end has stopped in one of the two ways. -/
theorem stops_of_drive {budget : Option Int} {fuel executed : Nat}
    (ended : (machine.drive wiring budget fuel executed).ending.isSome = true) :
    ∃ fault count, Stops wiring budget machine executed fault count ∧
      begunOf fault count ≤ fuel := by
  induction fuel generalizing machine executed with
  | zero =>
      cases goesOn : machine.goesOn budget executed with
      | false => exact ⟨none, 0, stops_of_stays goesOn, Nat.le_refl 0⟩
      | true =>
          rw [Machine.drive, if_pos goesOn] at ended
          cases ended
  | succ fuel inductionHypothesis =>
      cases goesOn : machine.goesOn budget executed with
      | false => exact ⟨none, 0, stops_of_stays goesOn, Nat.zero_le _⟩
      | true =>
          cases answered : Machine.cycle wiring machine with
          | error failure after =>
              exact ⟨some failure, 0, stops_of_cycle_eq_error goesOn answered,
                Nat.succ_le_succ (Nat.zero_le fuel)⟩
          | ok alive after =>
              have next_eq : machine.next wiring = after := by rw [next, answered]
              have succeeds : machine.succeeds wiring = true := by rw [succeeds, answered]
              rw [drive_of_cycle_eq_ok goesOn answered] at ended
              rcases inductionHypothesis ended with ⟨fault, count, stops, bound⟩
              rw [← next_eq] at stops
              refine ⟨fault, count + 1, stops_succ_iff.mpr ⟨goesOn, succeeds, stops⟩, ?_⟩
              cases fault <;> exact Nat.succ_le_succ bound

/-- When a run returns, and with what: its cycles were all to be executed and have
succeeded, and then there was nothing more to do. -/
theorem run_eq_returned_iff {budget : Option Int} {fuel count : Nat} :
    machine.run wiring budget fuel = .returned count final ↔
      count ≤ fuel ∧
      (∀ time < count, (machine.started.after wiring time).goesOn budget time = true ∧
        (machine.started.after wiring time).succeeds wiring = true) ∧
      (machine.started.after wiring count).goesOn budget count = false ∧
      (machine.started.after wiring count).conclude count = final := by
  constructor
  · intro returned
    have ended : (machine.run wiring budget fuel).ending.isSome = true := by rw [returned]; rfl
    rcases stops_of_drive ended with ⟨fault, total, stops, bound⟩
    have same := (stops.drive bound).symm.trans returned
    cases fault with
    | some failure => cases same
    | none =>
        simp only [stopped, Nat.zero_add, Progress.returned.injEq] at same
        rcases same with ⟨rfl, rfl⟩
        have passes := stops.passes
        have stays := stops.goesOn
        simp only [Nat.zero_add] at passes stays
        exact ⟨bound, passes, stays, rfl⟩
  · rintro ⟨bound, passes, stays, rfl⟩
    have stops : Stops wiring budget machine.started 0 none count := by
      refine ⟨?_, ?_, nofun⟩
      · simpa only [Nat.zero_add] using passes
      · rw [Nat.zero_add]
        exact stays
    have ended := stops.drive bound
    simp only [stopped, Nat.zero_add] at ended
    exact ended

/-- What a run comes to is what the cycles that it has begun come to in a row, but for
its end and the journal. -/
theorem drive_eq_after (wiring : Wiring) (budget : Option Int) (machine : Machine)
    (fuel executed : Nat) :
    ∃ running journal, (machine.drive wiring budget fuel executed).machine =
      { machine.after wiring ((machine.drive wiring budget fuel executed).begun - executed) with
        running, journal } := by
  induction fuel generalizing executed machine with
  | zero =>
      unfold drive
      split
      · exact ⟨machine.running, machine.journal, by rw [Progress.begun, Nat.sub_self]; rfl⟩
      · exact ⟨false, _, by rw [Progress.begun, Nat.sub_self]; rfl⟩
  | succ fuel inductionHypothesis =>
      cases goesOn : machine.goesOn budget executed with
      | false =>
          rw [drive_of_stays goesOn]
          exact ⟨false, _, by rw [Progress.begun, Nat.sub_self]; rfl⟩
      | true =>
          cases ended : Machine.cycle wiring machine with
          | error fault after =>
              rw [drive_of_cycle_eq_error goesOn ended, Progress.begun, Nat.add_sub_cancel_left]
              have next_eq : machine.after wiring 1 = after := by
                rw [Machine.after, Machine.after, next, ended]
              exact ⟨false, after.journal, by rw [next_eq]; rfl⟩
          | ok alive after =>
              have next_eq : machine.next wiring = after := by rw [next, ended]
              have begun := executed_le_begun wiring budget after fuel (executed + 1)
              rcases inductionHypothesis after (executed + 1) with ⟨running, journal, reached⟩
              have shift : (after.drive wiring budget fuel (executed + 1)).begun - executed =
                  (after.drive wiring budget fuel (executed + 1)).begun - (executed + 1) + 1 := by
                omega
              refine ⟨running, journal, ?_⟩
              rw [drive_of_cycle_eq_ok goesOn ended, shift, after_next, next_eq]
              exact reached

theorem run_eq_after (wiring : Wiring) (budget : Option Int) (fuel : Nat) (machine : Machine) :
    ∃ running journal, (machine.run wiring budget fuel).machine =
      { machine.started.after wiring (machine.run wiring budget fuel).begun with
        running, journal } :=
  drive_eq_after wiring budget machine.started fuel 0

theorem running_of_goesOn {budget : Option Int} {executed : Nat}
    (goesOn : machine.goesOn budget executed = true) :
    machine.running = true ∧ machine.halted = false := by
  simp only [Machine.goesOn, Bool.and_eq_true, Bool.not_eq_true'] at goesOn
  exact goesOn.1

/-- A run begins only cycles that are to be executed. -/
theorem goesOn_of_begun {budget : Option Int} {fuel executed time : Nat}
    (bound : executed + time < (machine.drive wiring budget fuel executed).begun) :
    (machine.after wiring time).goesOn budget (executed + time) = true := by
  induction fuel generalizing executed machine time with
  | zero =>
      unfold drive at bound
      split at bound <;> exact absurd bound (Nat.not_lt.mpr (Nat.le_add_right executed time))
  | succ fuel inductionHypothesis =>
      cases goesOn : machine.goesOn budget executed with
      | false =>
          rw [drive_of_stays goesOn] at bound
          exact absurd bound (Nat.not_lt.mpr (Nat.le_add_right executed time))
      | true =>
          cases time with
          | zero => exact goesOn
          | succ time =>
              have shift : executed + 1 + time = executed + (time + 1) := by omega
              cases ended : Machine.cycle wiring machine with
              | error fault failed =>
                  rw [drive_of_cycle_eq_error goesOn ended, Progress.begun] at bound
                  omega
              | ok alive after =>
                  have next_eq : machine.next wiring = after := by rw [next, ended]
                  rw [drive_of_cycle_eq_ok goesOn ended, ← shift] at bound
                  rw [after_next, next_eq, ← shift]
                  exact inductionHypothesis bound

theorem goesOn_of_begun_run {budget : Option Int} {fuel time : Nat}
    (bound : time < (machine.run wiring budget fuel).begun) :
    (machine.started.after wiring time).goesOn budget time = true := by
  rw [← Nat.zero_add time] at bound
  have goesOn := goesOn_of_begun bound
  rwa [Nat.zero_add] at goesOn

theorem Ends.of_drive (calm : ∀ index, (wiring.device index).stops = false)
    {fuel executed begun : Nat} (underWay : machine.running = true)
    (ended : (machine.drive wiring none fuel executed).ending = some (fault, begun, final)) :
    ∃ count last, Ends wiring machine fault count last ∧ begun = executed + count ∧
      count ≤ fuel ∧ final.Agrees last := by
  induction fuel generalizing executed machine with
  | zero =>
      unfold drive at ended
      split at ended
      · cases ended
      · rename_i stays
        cases ended
        have halted : machine.halted = true := by
          simpa [goesOn_iff, underWay] using stays
        exact ⟨0, machine, .halted halted, rfl, Nat.le_refl 0, (Agrees.refl machine).aside _ _⟩
  | succ fuel inductionHypothesis =>
      unfold drive at ended
      split at ended
      · rename_i goesOn
        have running := ((goesOn_iff machine executed).mp goesOn).2
        cases answered : Machine.cycle wiring machine with
        | error fault after =>
            simp only [answered] at ended
            cases ended
            exact ⟨1, after, .failed running answered, rfl, Nat.le_add_left 1 fuel,
              (Agrees.refl after).aside _ _⟩
        | ok alive after =>
            simp only [answered] at ended
            have underWay' := (running_of_cycle_eq_ok calm running answered).trans underWay
            rcases inductionHypothesis underWay' ended with
              ⟨count, last, ends, begun_eq, bound, agrees⟩
            refine ⟨count + 1, last, .cycle running answered ends, ?_, ?_, agrees⟩
            · omega
            · omega
      · rename_i stays
        cases ended
        have halted : machine.halted = true := by
          simpa [goesOn_iff, underWay] using stays
        exact ⟨0, machine, .halted halted, rfl, Nat.zero_le _, (Agrees.refl machine).aside _ _⟩

end Machine
end EightBit
