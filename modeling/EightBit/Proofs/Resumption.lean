import Mathlib.Data.Finset.Card
import EightBit.Proofs.Ending

namespace EightBit

/-!
# Resuming after an output failure

A device may fail at some of the values it is given.  Such a failure ends a run
but not the machine: the program counter still stands at the instruction, so the
next run emits the value once more.  A driver that runs the machine again after
every failure therefore comes to the same end as a device that never fails, and
the values received show nothing but the failed ones besides.

The machine that is run again trails the undisturbed one.  Between two cycles
both are alike, or the trailing one still owes the value that failed; then the
undisturbed one has not executed that instruction yet.  `Trails` is this
invariant.  It is proved for a cycle, then for a run, and then for the driver.
-/

/-- The same table and strictness, connected to a device that fails at the given
values and never asks for a pause. -/
def Wiring.failingAt (wiring : Wiring) (failures : Finset Nat) : Wiring :=
  { wiring with device := fun index => { fails := decide (index ∈ failures) } }

/-!
## The values received

They are numbered from the first one on, as the device counts them.
-/

/-- The values received without the failed ones. -/
def keptValues (failures : Finset Nat) (first : Nat) (received : List Int) : List Int :=
  ((received.zipIdx first).filter fun entry => entry.2 ∉ failures).map Prod.fst

/-- How many of the values received have failed. -/
def failedCount (failures : Finset Nat) (first : Nat) (received : List Int) : Nat :=
  (received.zipIdx first).countP fun entry => entry.2 ∈ failures

theorem keptValues_append (failures : Finset Nat) (first : Nat) (received : List Int)
    (value : Int) :
    keptValues failures first (received ++ [value]) =
      keptValues failures first received ++
        if first + received.length ∈ failures then [] else [value] := by
  by_cases failed : first + received.length ∈ failures <;>
    simp [keptValues, List.zipIdx_append, failed]

theorem failedCount_append (failures : Finset Nat) (first : Nat) (received : List Int)
    (value : Int) :
    failedCount failures first (received ++ [value]) =
      failedCount failures first received +
        if first + received.length ∈ failures then 1 else 0 := by
  by_cases failed : first + received.length ∈ failures <;>
    simp [failedCount, List.zipIdx_append, failed]

/-- The values received, where the failed ones are repeated, against those of an
undisturbed machine.  The last value is still to be repeated if it is the
pending one. -/
structure Repeats (failures : Finset Nat) (first : Nat) (pending : Option Int)
    (received output : List Int) : Prop where
  kept : keptValues failures first received = output
  repeated : ∀ position value, received[position]? = some value →
    first + position ∈ failures →
      received[position + 1]? = some value ∨
        position + 1 = received.length ∧ pending = some value

namespace Repeats

variable {failures : Finset Nat} {first : Nat} {pending : Option Int}
  {received output : List Int} {value : Int}

theorem nil (failures : Finset Nat) (first : Nat) : Repeats failures first none [] [] where
  kept := rfl
  repeated := by
    intro position value impossible
    simp at impossible

/-- What was to be repeated is repeated by the next value, whether it fails again
or not. -/
theorem repeated_append (repeats : Repeats failures first pending received output)
    (owed : ∀ awaited, pending = some awaited → awaited = value) {position : Nat} {earlier : Int}
    (before : position < received.length)
    (found : (received ++ [value])[position]? = some earlier)
    (failed : first + position ∈ failures) :
    (received ++ [value])[position + 1]? = some earlier := by
  rw [List.getElem?_append_left before] at found
  rcases repeats.repeated position earlier found failed with next | ⟨last, awaited⟩
  · have inside : position + 1 < received.length := (List.getElem?_eq_some_iff.mp next).1
    rw [List.getElem?_append_left inside]
    exact next
  · rw [last, List.getElem?_concat_length, owed earlier awaited]

theorem failed (repeats : Repeats failures first pending received output)
    (owed : ∀ awaited, pending = some awaited → awaited = value)
    (member : first + received.length ∈ failures) :
    Repeats failures first (some value) (received ++ [value]) output where
  kept := by rw [keptValues_append, if_pos member, List.append_nil, repeats.kept]
  repeated := by
    intro position earlier found failed
    by_cases before : position < received.length
    · exact Or.inl (repeats.repeated_append owed before found failed)
    · have bound := (List.getElem?_eq_some_iff.mp found).1
      simp only [List.length_append, List.length_singleton] at bound
      have last : position = received.length := by omega
      subst last
      rw [List.getElem?_concat_length] at found
      exact Or.inr ⟨by simp, found⟩

theorem taken (repeats : Repeats failures first pending received output)
    (owed : ∀ awaited, pending = some awaited → awaited = value)
    (absent : first + received.length ∉ failures) :
    Repeats failures first none (received ++ [value]) (output ++ [value]) where
  kept := by rw [keptValues_append, if_neg absent, repeats.kept]
  repeated := by
    intro position earlier found failed
    by_cases before : position < received.length
    · exact Or.inl (repeats.repeated_append owed before found failed)
    · have bound := (List.getElem?_eq_some_iff.mp found).1
      simp only [List.length_append, List.length_singleton] at bound
      have last : position = received.length := by omega
      subst last
      exact absurd failed absent

end Repeats

/-- A failure that has come is one less to come. -/
theorem card_filter_lt_of_mem {failures : Finset Nat} {first index : Nat}
    (member : index ∈ failures) (reached : first ≤ index) :
    (failures.filter (index + 1 ≤ ·)).card < (failures.filter (first ≤ ·)).card := by
  apply Finset.card_lt_card
  refine (Finset.ssubset_iff_of_subset ?_).mpr ⟨index, ?_, ?_⟩
  · intro later listed
    rcases Finset.mem_filter.mp listed with ⟨failure, beyond⟩
    exact Finset.mem_filter.mpr ⟨failure, by omega⟩
  · exact Finset.mem_filter.mpr ⟨member, reached⟩
  · intro listed
    have beyond := (Finset.mem_filter.mp listed).2
    omega

namespace Machine

/-- A machine whose device fails at times trails an undisturbed one, both having
come from the same start. -/
structure Trails (wiring : Wiring) (failures : Finset Nat) (start : Machine)
    (pending : Option Int) (received output : List Int) (machine other : Machine) : Prop where
  repeats : Repeats failures start.values.length pending received output
  values : machine.values = start.values ++ received
  plain : other.values = start.values ++ output
  cycles : machine.cycles =
    other.cycles + failedCount failures start.values.length received
  alike : machine.Alike { other with registers := { other.registers with
    instructionRegister := machine.registers.instructionRegister } }
  fetched : pending = none →
    machine.registers.instructionRegister = other.registers.instructionRegister
  owes : ∀ value, pending = some value → other.halted = false ∧
    ∃ plan, other.plan wiring = .ok plan ∧ plan.effect.emission = some value

/-- Runs a machine, and again each time that a run was ended by a failure of the
device, but no more than so many times again. -/
def runAgain (wiring : Wiring) (fuel : Nat) : Nat → Machine → Progress
  | 0, machine => machine.run wiring none fuel
  | retries + 1, machine =>
    match machine.run wiring none fuel with
    | .faulted .output _ after => runAgain wiring fuel retries after
    | progress => progress

/-- What a run of the trailing machine comes to: the end of the undisturbed one, or
a failure of its device at a value that comes after all those received before. -/
inductive TrailingRun (wiring : Wiring) (failures : Finset Nat) (start : Machine)
    (fault : Option Fault) (final : Machine) (fuel : Nat) (received : List Int) :
    Progress → Prop where
  | finished {progress : Progress} {begun : Nat} {last : Machine} {all output : List Int}
      (ending : progress.ending = some (fault, begun, last))
      (trailing : Trails wiring failures start none all output last final) :
      TrailingRun wiring failures start fault final fuel received progress
  | interrupted {total remaining : Nat} {after other : Machine} {value : Int}
      {earlier output : List Int}
      (ends : Ends wiring.undisturbed other fault remaining final) (enough : remaining ≤ fuel)
      (trailing :
        Trails wiring failures start (some value) (earlier ++ [value]) output after other)
      (later : received.length ≤ earlier.length)
      (member : start.values.length + earlier.length ∈ failures) :
      TrailingRun wiring failures start fault final fuel received (.faulted .output total after)

/-- A run that goes on after a cycle is a run from before the cycle. -/
theorem TrailingRun.earlier {wiring : Wiring} {failures : Finset Nat} {start final : Machine}
    {fault : Option Fault} {fuel : Nat} {received more : List Int} {progress : Progress}
    (run : TrailingRun wiring failures start fault final fuel (received ++ more) progress) :
    TrailingRun wiring failures start fault final (fuel + 1) received progress := by
  cases run with
  | finished ending trailing => exact .finished ending trailing
  | interrupted ends bound trailing later member =>
      rw [List.length_append] at later
      exact .interrupted ends (Nat.le_succ_of_le bound) trailing (Nat.le_of_add_right_le later)
        member

namespace Trails

variable {wiring : Wiring} {failures : Finset Nat} {start machine other : Machine}
  {pending : Option Int} {received output : List Int}

theorem started (wiring : Wiring) (failures : Finset Nat) (start : Machine) :
    Trails wiring failures start none [] [] start start.started where
  repeats := Repeats.nil failures start.values.length
  values := (List.append_nil _).symm
  plain := (List.append_nil _).symm
  cycles := rfl
  alike := ⟨rfl, rfl, rfl, rfl⟩
  fetched := fun _ => rfl
  owes := fun _ impossible => nomatch impossible

theorem aside (trails : Trails wiring failures start pending received output machine other)
    (running : Bool) (journal : Journal) :
    Trails wiring failures start pending received output { machine with running, journal } other :=
  ⟨trails.repeats, trails.values, trails.plain, trails.cycles,
    ⟨trails.alike.registers, trails.alike.memory, trails.alike.status, trails.alike.trace⟩,
    trails.fetched, trails.owes⟩

theorem halted_eq (trails : Trails wiring failures start pending received output machine other) :
    machine.halted = other.halted :=
  trails.alike.halted_eq

/-- Where nothing is pending the two machines are alike. -/
theorem alike_of_settled
    (trails : Trails wiring failures start none received output machine other) :
    machine.Alike other where
  registers := by
    rw [trails.alike.registers, trails.fetched rfl]
  memory := trails.alike.memory
  status := trails.alike.status
  trace := trails.alike.trace

theorem emissions_size
    (trails : Trails wiring failures start pending received output machine other) :
    machine.emissions.size = start.values.length + received.length := by
  rw [← machine.length_values, trails.values, List.length_append]

/-- What the undisturbed machine is going to do, the trailing one is going to do
as well. -/
theorem plan_eq_ok (trails : Trails wiring failures start pending received output machine other)
    {plan : Plan} (planned : other.plan wiring = .ok plan) :
    machine.plan wiring = .ok plan := by
  have planned' := InstructionTable.plan_eq_ok_of_fetched
    machine.registers.instructionRegister planned
  rw [← planned']
  exact trails.alike.plan_eq rfl rfl

/-- The value that a plan has for the device is the one that is owed. -/
theorem owed (trails : Trails wiring failures start pending received output machine other)
    {plan : Plan} (planned : other.plan wiring = .ok plan) {value : Int}
    (emitted : plan.effect.emission = some value) :
    ∀ awaited, pending = some awaited → awaited = value := by
  intro awaited pending_eq
  rcases (trails.owes awaited pending_eq).2 with ⟨plan', planned', emitted'⟩
  rw [planned] at planned'
  cases planned'
  rw [emitted] at emitted'
  exact (Option.some.inj emitted').symm

theorem refuses_failingAt
    (trails : Trails wiring failures start pending received output machine other) (value : Int) :
    machine.refuses (wiring.failingAt failures).device (some value) =
      decide (start.values.length + received.length ∈ failures) := by
  simp [refuses, Wiring.failingAt, trails.emissions_size]

/-- A failure of the device leaves the undisturbed machine where it is.  The other has only done
the fetch, so the instruction register is all that differs. -/
theorem cycle_failed (trails : Trails wiring failures start pending received output machine other)
    (running : other.halted = false) {plan : Plan} (planned : other.plan wiring = .ok plan)
    {value : Int} (emitted : plan.effect.emission = some value)
    (member : start.values.length + received.length ∈ failures) :
    ∃ after, cycle (wiring.failingAt failures) machine = .error .output after ∧
      after.running = machine.running ∧
      Trails wiring failures start (some value) (received ++ [value]) output after other := by
  let device := (wiring.failingAt failures).device
  have refused : machine.refuses device plan.effect.emission = true := by
    rw [emitted, trails.refuses_failingAt]
    exact decide_eq_true member
  rcases cycle_of_refused (wiring.failingAt failures) (trails.halted_eq.trans running)
      (trails.plan_eq_ok planned) refused with
    ⟨journal, ended⟩
  have untouched := InstructionTable.plan_of_emission planned emitted
  refine ⟨_, ended, machine.delivered_running (fun _ => rfl) plan.effect.emission, ?_⟩
  constructor
  · exact trails.repeats.failed (trails.owed planned emitted) member
  · simp [trails.values, emitted]
  · exact trails.plain
  · rw [trap_cycles, left_cycles, failedCount_append, if_pos member, trails.cycles]
    omega
  · constructor
    · change plan.effect.registers = { other.registers with
        instructionRegister := plan.effect.registers.instructionRegister }
      rw [untouched.1]
    · exact untouched.2
    · simp [Fault.isTrap, trails.alike.status]
    · simp [trails.alike.trace]
  · intro impossible
    cases impossible
  · intro awaited pending_eq
    cases pending_eq
    exact ⟨running, plan, planned, emitted⟩

/-- A plan without a value for the device shows that none is owed. -/
theorem settled_of_silent
    (trails : Trails wiring failures start pending received output machine other)
    {plan : Plan} (planned : other.plan wiring = .ok plan) (silent : plan.effect.emission = none) :
    pending = none := by
  cases pending_eq : pending with
  | none => rfl
  | some awaited =>
      rcases (trails.owes awaited pending_eq).2 with ⟨plan', planned', emitted⟩
      rw [planned] at planned'
      cases planned'
      rw [silent] at emitted
      cases emitted

/-- A cycle at which the device does not fail takes both machines further. -/
theorem cycle_ok (trails : Trails wiring failures start pending received output machine other)
    (running : other.halted = false) {plan : Plan} (planned : other.plan wiring = .ok plan)
    (taken : ∀ value, plan.effect.emission = some value →
      start.values.length + received.length ∉ failures)
    {alive : Bool} {follower : Machine}
    (followed : cycle wiring.undisturbed other = .ok alive follower) :
    ∃ after, cycle (wiring.failingAt failures) machine = .ok alive after ∧
      after.running = machine.running ∧
      Trails wiring failures start none (received ++ plan.effect.emission.toList)
        (output ++ plan.effect.emission.toList) after follower := by
  let device := (wiring.failingAt failures).device
  have accepted : machine.refuses device plan.effect.emission = false := by
    cases emitted : plan.effect.emission with
    | none => rfl
    | some value =>
        rw [trails.refuses_failingAt]
        exact decide_eq_false (taken value emitted)
  rcases cycle_of_taken (wiring.failingAt failures) (trails.halted_eq.trans running)
      (trails.plan_eq_ok planned) accepted with
    ⟨journal, ended⟩
  have calm_other := refuses_undisturbed wiring other plan.effect.emission
  rcases cycle_of_taken wiring.undisturbed running planned calm_other with ⟨noted, ended'⟩
  rw [ended'] at followed
  cases followed
  have status : machine.status = other.status := trails.alike.status
  have trace : machine.trace = other.trace := trails.alike.trace
  have alike := (left_alike device wiring.undisturbed.device plan.effect journal noted status
    trace).settle plan.commit
  have calm : ∀ index, (device index).stops = false := fun _ => rfl
  refine ⟨(machine.left device plan.effect journal).settle plan.commit, ?_,
    machine.delivered_running calm plan.effect.emission, ?_⟩
  · rw [ended, ← alike.halted_eq]
  · constructor
    · cases emitted : plan.effect.emission with
      | none =>
          simp only [Option.toList, List.append_nil]
          exact trails.settled_of_silent planned emitted ▸ trails.repeats
      | some value => exact trails.repeats.taken (trails.owed planned emitted) (taken value emitted)
    · simp [trails.values]
    · simp [trails.plain]
    · simp only [settle_cycles, left_cycles, trails.cycles]
      cases emitted : plan.effect.emission with
      | none =>
          simp only [Option.toList, List.append_nil]
          omega
      | some value =>
          simp only [Option.toList]
          rw [failedCount_append, if_neg (taken value emitted)]
          omega
    · exact ⟨alike.registers, alike.memory, alike.status, alike.trace⟩
    · intro _
      rfl
    · intro value impossible
      cases impossible

/-- A trap is the end of both machines. -/
theorem cycle_trap (trails : Trails wiring failures start pending received output machine other)
    {fault : Fault} {follower : Machine}
    (followed : cycle wiring.undisturbed other = .error fault follower) :
    ∃ after, cycle (wiring.failingAt failures) machine = .error fault after ∧
      after.running = machine.running ∧
      Trails wiring failures start none received output after follower := by
  have running := running_of_cycle_eq_error followed
  rcases cycle_eq_error followed with
    ⟨failure, noted, planned, fault_eq, follower_eq⟩ | ⟨plan, _, _, refused, _⟩
  · have settled : pending = none := by
      cases pending_eq : pending with
      | none => rfl
      | some awaited =>
          rcases (trails.owes awaited pending_eq).2 with ⟨plan, planned', _⟩
          cases planned.symm.trans planned'
    subst settled fault_eq follower_eq
    have alike := trails.alike_of_settled
    have planned' : machine.plan (wiring.failingAt failures) = .error failure :=
      (alike.plan_eq rfl rfl).trans planned
    rcases cycle_of_failure (wiring.failingAt failures) (trails.halted_eq.trans running)
        planned' with
      ⟨journal, ended⟩
    have trapped := (alike.leftFailed failure journal noted).trap failure.fault
    refine ⟨_, ended, rfl, trails.repeats, trails.values, trails.plain, ?_, ?_, ?_, ?_⟩
    · change machine.cycles + 1 = other.cycles + 1 + _
      rw [trails.cycles]
      omega
    · exact ⟨trapped.registers, trapped.memory, trapped.status, trapped.trace⟩
    · intro _
      rfl
    · intro value impossible
      cases impossible
  · rw [refuses_undisturbed] at refused
    cases refused

/-- A machine that has halted owes nothing. -/
theorem settled_of_halted
    (trails : Trails wiring failures start pending received output machine other)
    (halted : other.halted = true) :
    Trails wiring failures start none received output machine other := by
  cases pending_eq : pending with
  | none => exact pending_eq ▸ trails
  | some awaited =>
      have running := (trails.owes awaited pending_eq).1
      rw [halted] at running
      cases running

/-- A run of the trailing machine, with as much fuel as the undisturbed one needs
or more.  When it is interrupted, the undisturbed machine has this cycle still before it. -/
theorem drive {fault : Option Fault} {count : Nat} {final : Machine}
    (ends : Ends wiring.undisturbed other fault count final)
    (trails : Trails wiring failures start pending received output machine other)
    (underWay : machine.running = true) (executed : Nat) {fuel : Nat} (enough : count ≤ fuel) :
    TrailingRun wiring failures start fault final fuel received
      (machine.drive (wiring.failingAt failures) none fuel executed) := by
  induction ends generalizing pending received output machine fuel executed with
  | halted halted =>
      have settled := trails.settled_of_halted halted
      rw [drive_of_halted (trails.halted_eq.trans halted)]
      exact .finished rfl (settled.aside false _)
  | failed running followed =>
      have goesOn :=
        (goesOn_iff machine executed).mpr ⟨underWay, trails.halted_eq.trans running⟩
      rcases trails.cycle_trap followed with ⟨after, ended, _, trailing⟩
      cases fuel with
      | zero => cases enough
      | succ fuel =>
          rw [drive_of_cycle_eq_error goesOn ended]
          exact .finished rfl (trailing.aside false after.journal)
  | cycle running followed rest inductionHypothesis =>
      have goesOn :=
        (goesOn_iff machine executed).mpr ⟨underWay, trails.halted_eq.trans running⟩
      cases fuel with
      | zero => cases enough
      | succ fuel =>
          rcases cycle_eq_ok running followed with ⟨plan, _, planned, _⟩
          by_cases fails : plan.effect.emission.isSome = true ∧
              start.values.length + received.length ∈ failures
          · rcases Option.isSome_iff_exists.mp fails.1 with ⟨value, emitted⟩
            rcases trails.cycle_failed running planned emitted fails.2 with
              ⟨after, ended, _, trailing⟩
            rw [drive_of_cycle_eq_error goesOn ended]
            exact .interrupted (.cycle running followed rest) enough
              (trailing.aside false after.journal) (Nat.le_refl _) fails.2
          · have taken : ∀ value, plan.effect.emission = some value →
                start.values.length + received.length ∉ failures := by
              intro value emitted member
              exact fails ⟨by rw [emitted]; rfl, member⟩
            rcases trails.cycle_ok running planned taken followed with
              ⟨after, ended, running_eq, trailing⟩
            rw [drive_of_cycle_eq_ok goesOn ended]
            exact (inductionHypothesis trailing (running_eq.trans underWay) (executed + 1)
              (Nat.le_of_succ_le_succ enough)).earlier

theorem run {fault : Option Fault} {count : Nat} {final : Machine}
    (ends : Ends wiring.undisturbed other fault count final)
    (trails : Trails wiring failures start pending received output machine other)
    {fuel : Nat} (enough : count ≤ fuel) :
    TrailingRun wiring failures start fault final fuel received
      (machine.run (wiring.failingAt failures) none fuel) :=
  drive ends (trails.aside true machine.journal) rfl 0 enough

/-- Run again after every failure, the trailing machine comes to the end of the
undisturbed one, if it may be run again as often as the device can still
fail. -/
theorem runAgain {fault : Option Fault} {count fuel : Nat} {final : Machine} (retries : Nat)
    (ends : Ends wiring.undisturbed other fault count final) (enough : count ≤ fuel)
    (trails : Trails wiring failures start pending received output machine other)
    (remaining : (failures.filter (start.values.length + received.length ≤ ·)).card ≤ retries) :
    ∃ begun last received output,
      (machine.runAgain (wiring.failingAt failures) fuel retries).ending =
        some (fault, begun, last) ∧
      Trails wiring failures start none received output last final := by
  induction retries generalizing pending received output machine other count with
  | zero =>
      rw [Machine.runAgain]
      generalize ended : machine.run (wiring.failingAt failures) none fuel = progress
      cases ended ▸ run ends trails enough with
      | @finished _ begun last all output ending trailing =>
          exact ⟨begun, last, all, output, ending, trailing⟩
      | interrupted _ _ _ later member =>
          have fewer :=
            card_filter_lt_of_mem member (Nat.add_le_add_left later start.values.length)
          exact absurd (Nat.lt_of_lt_of_le fewer remaining) (Nat.not_lt_zero _)
  | succ retries inductionHypothesis =>
      rw [Machine.runAgain]
      generalize ended : machine.run (wiring.failingAt failures) none fuel = progress
      cases ended ▸ run ends trails enough with
      | @finished _ begun last all output ending trailing =>
          refine ⟨begun, last, all, output, ?_, trailing⟩
          split
          · cases ending
            cases ends.isTrap
          · exact ending
      | interrupted ends enough trailing later member =>
          have fewer :=
            card_filter_lt_of_mem member (Nat.add_le_add_left later start.values.length)
          refine inductionHypothesis ends enough trailing ?_
          rw [List.length_append, List.length_singleton, ← Nat.add_assoc]
          omega

end Trails

/-- A machine that was run again after each failure of its device, compared with
the end of an undisturbed one so many cycles after the same start.  It has
received the same values but for the failed ones, each of which was followed by
the same value once more, and it has counted one more cycle for each of them. -/
structure Resumed (failures : Finset Nat) (start : Machine) (count : Nat)
    (received output : List Int) (machine final : Machine) : Prop extends
    Alike machine final where
  values : machine.values = start.values ++ received
  plain : final.values = start.values ++ output
  kept : keptValues failures start.values.length received = output
  repeated : ∀ position value, received[position]? = some value →
    start.values.length + position ∈ failures → received[position + 1]? = some value
  plainCycles : final.cycles = start.cycles + count
  cycles : machine.cycles =
    start.cycles + count + failedCount failures start.values.length received

/-- A device may fail at any finite set of values.  If the undisturbed run comes
to its end, so do the runs that are started again after every failure, with the
same fault or none, and they have computed the same. -/
theorem runAgain_resumes (wiring : Wiring) (failures : Finset Nat) {start final : Machine}
    {fuel retries count : Nat} {fault : Option Fault} (enough : failures.card ≤ retries)
    (ended : (start.run wiring.undisturbed none fuel).ending = some (fault, count, final)) :
    ∃ begun machine received output,
      (start.runAgain (wiring.failingAt failures) fuel retries).ending =
        some (fault, begun, machine) ∧
      Resumed failures start count received output machine final := by
  have calm : ∀ index, (wiring.undisturbed.device index).stops = false := fun _ => rfl
  rcases Ends.of_drive calm rfl ended with ⟨total, last, ends, count_eq, bound, agrees⟩
  rw [Nat.zero_add] at count_eq
  subst count_eq
  rcases Trails.runAgain retries ends bound (Trails.started wiring failures start)
      (Nat.le_trans (Finset.card_filter_le _ _) enough) with
    ⟨begun, machine, received, output, ending, trailing⟩
  have alike := trailing.alike_of_settled
  refine ⟨begun, machine, received, output, ending, ?_⟩
  constructor
  · exact ⟨alike.registers.trans agrees.registers.symm, alike.memory.trans agrees.memory.symm,
      alike.status.trans agrees.status.symm, alike.trace.trans agrees.trace.symm⟩
  · exact trailing.values
  · exact agrees.values.trans trailing.plain
  · exact trailing.repeats.kept
  · intro position value found failed
    rcases trailing.repeats.repeated position value found failed with next | ⟨_, impossible⟩
    · exact next
    · cases impossible
  · exact agrees.cycles.trans ends.cycles
  · rw [trailing.cycles, ends.cycles]
    rfl

/-- A machine that emits a seven and then fails for want of a ninth register. -/
def emitsSeven : Machine where
  memory := ⟨#[0x04, 0, 7, 0x06, 0, 0x06, 9], by decide⟩

/-- The device fails at the first two attempts to emit the seven. -/
theorem runAgain_resumes_emitsSeven :
    ∃ final begun machine received output,
      (emitsSeven.run (Wiring.undisturbed {}) none 5).ending =
        some (some (.register ⟨9⟩), 3, final) ∧
      (emitsSeven.runAgain (Wiring.failingAt {} {0, 1}) 5 2).ending =
        some (some (.register ⟨9⟩), begun, machine) ∧
      Resumed {0, 1} emitsSeven 3 received output machine final := by
  have comes_to_its_end :
      (emitsSeven.run (Wiring.undisturbed {}) none 5).ending.map (fun ending =>
        (ending.1, ending.2.1)) = some (some (.register ⟨9⟩), 3) := by decide +kernel
  rcases Option.map_eq_some_iff.mp comes_to_its_end with ⟨⟨fault, count, final⟩, ended, ending⟩
  cases ending
  have enough : Finset.card {0, 1} ≤ 2 := by decide
  rcases runAgain_resumes {} {0, 1} enough ended with
    ⟨begun, machine, received, output, ending, resumed⟩
  exact ⟨final, begun, machine, received, output, ended, ending, resumed⟩

end Machine
end EightBit
