import Mathlib.Data.List.Forall2
import EightBit.Proofs.Course
import EightBit.Proofs.Strictness

namespace EightBit
namespace Machine

/-!
# The life cycle of a machine

Two flags decide whether a machine works.  One says that a run is under way; it is set and
cleared by runs, and cleared by a device that asks for a pause.  The other says that the
machine has halted; it is set by cycles and cleared by a reset alone.

The device can see the first flag.  Inside of a run the flag is what the answers of the
device have made of it since the run was started (`calm_of_running`), and outside of runs
it is off, because every action that comes to its end leaves it off.
-/

variable {wiring : Wiring} {machine final : Machine} {events : List Event}

/-!
## What a cycle does to the two flags
-/

/-- The value that the next cycle gives to the device, if it gives one, with what the device
can see. -/
def emission? (wiring : Wiring) (machine : Machine) : Option Emission :=
  (machine.next wiring).emissions[machine.emissions.size]?

/-- A cycle gives at most one value to the device, which sees whether a run is under way and
may put an end to it. -/
theorem next_emits (wiring : Wiring) (machine : Machine) :
    ((machine.next wiring).emissions = machine.emissions ∧
      (machine.next wiring).running = machine.running) ∨
    ∃ emission, (machine.next wiring).emissions = machine.emissions.push emission ∧
      emission.running = machine.running ∧
      (machine.next wiring).running =
        (machine.running && !(wiring.device machine.emissions.size).stops) := by
  have given : ∀ value : Option Int,
      ((machine.delivered wiring.device value).emissions = machine.emissions ∧
        (machine.delivered wiring.device value).running = machine.running) ∨
      ∃ emission,
        (machine.delivered wiring.device value).emissions = machine.emissions.push emission ∧
        emission.running = machine.running ∧
        (machine.delivered wiring.device value).running =
          (machine.running && !(wiring.device machine.emissions.size).stops) := by
    intro value
    cases value with
    | none => exact Or.inl ⟨rfl, rfl⟩
    | some value => exact Or.inr ⟨_, rfl, rfl, rfl⟩
  cases halted : machine.halted with
  | true =>
      rw [next, cycle_of_halted wiring machine halted]
      exact Or.inl ⟨rfl, rfl⟩
  | false =>
      unfold next
      cases ended : cycle wiring machine with
      | ok alive after =>
          rcases cycle_eq_ok halted ended with ⟨plan, journal, _, _, rfl, _⟩
          exact given plan.effect.emission
      | error fault after =>
          rcases cycle_eq_error ended with
            ⟨failure, journal, _, _, rfl⟩ | ⟨plan, journal, _, _, _, rfl⟩
          · exact Or.inl ⟨rfl, rfl⟩
          · exact given plan.effect.emission

theorem running_of_emission? {emission : Emission}
    (emitted : machine.emission? wiring = some emission) : emission.running = machine.running := by
  unfold emission? at emitted
  rcases machine.next_emits wiring with ⟨same, _⟩ | ⟨given, pushed, running, _⟩
  · simp [same] at emitted
  · rw [pushed, Array.getElem?_push_size] at emitted
    cases emitted
    exact running

theorem emissions_next (wiring : Wiring) (machine : Machine) :
    (machine.next wiring).emissions.toList =
      machine.emissions.toList ++ (machine.emission? wiring).toList := by
  unfold emission?
  rcases machine.next_emits wiring with ⟨same, _⟩ | ⟨given, pushed, _, _⟩
  · simp [same]
  · simp [pushed]

/-- While a run is under way, no value since its start has met with a wish to pause. -/
theorem calm_of_running {time : Nat} (running : (machine.after wiring time).running = true) :
    ∀ index, machine.emissions.size ≤ index →
      index < (machine.after wiring time).emissions.size →
      (wiring.device index).stops = false := by
  induction time with
  | zero => exact fun index lower upper => absurd upper (Nat.not_lt.mpr lower)
  | succ time inductionHypothesis =>
      intro index lower upper
      rcases (machine.after wiring time).next_emits wiring with
        ⟨same, kept⟩ | ⟨given, pushed, _, kept⟩
      · rw [Machine.after, same] at upper
        exact inductionHypothesis (kept ▸ running) index lower upper
      · rw [Machine.after, kept, Bool.and_eq_true, Bool.not_eq_true'] at running
        rw [Machine.after, pushed, Array.size_push] at upper
        rcases Nat.lt_succ_iff_lt_or_eq.mp upper with earlier | rfl
        · exact inductionHypothesis running.1 index lower earlier
        · exact running.2

theorem halted_of_hlt (executed : machine.executes wiring = some .hlt) :
    (machine.next wiring).halted = true := by
  cases halted : machine.halted with
  | true => simp [executes, halted] at executed
  | false =>
      simp only [executes, halted, Bool.false_eq_true, if_false, Option.bind_eq_some_iff,
        Option.map_eq_some_iff] at executed
      rcases executed with ⟨opcode, fetched, ⟨operation, mnemonic⟩, found, rfl⟩
      have planned := InstructionTable.plan_of_effect wiring.strict fetched found rfl
      rcases cycle_of_taken wiring halted planned rfl with ⟨journal, ended⟩
      rw [next, ended]
      rfl

theorem halted_of_undefinedByte? {opcode : UInt8}
    (undefined : machine.undefinedByte? wiring.table = some opcode) :
    (machine.next wiring).halted = true := by
  rcases parted_of_undefined undefined with ⟨final, trapped, lenient, strict, parted⟩
  have either : machine.next (wiring.withStrict wiring.strict) = final ∨
      machine.next (wiring.withStrict wiring.strict) = trapped := by
    cases wiring.strict with
    | false => exact Or.inl (by rw [next, lenient])
    | true => exact Or.inr (by rw [next, strict])
  rcases either with ended | ended
  · exact decide_eq_true ((congrArg status ended).trans parted.lenientStatus)
  · exact decide_eq_true ((congrArg status ended).trans parted.strictStatus)

/-- What halts a machine: the operation for it, a byte without instruction, and a trap. -/
theorem halted_next_iff (running : machine.halted = false) :
    (machine.next wiring).halted = true ↔
      machine.executes wiring = some .hlt ∨
      (∃ opcode, machine.undefinedByte? wiring.table = some opcode) ∨
      ∃ fault, machine.fault? wiring = some fault ∧ fault.isTrap = true := by
  constructor
  · intro halted
    unfold next at halted
    cases ended : cycle wiring machine with
    | error fault after =>
        rw [ended] at halted
        refine Or.inr (Or.inr ⟨fault, by rw [fault?, ended], ?_⟩)
        cases fault with
        | output => simp [Machine.halted, running_of_refusal ended] at halted
        | address error => rfl
        | register error => rfl
        | illegalOpcode opcode pc => rfl
    | ok alive after =>
        rw [ended] at halted
        rcases cycle_eq_ok running ended with ⟨plan, journal, planned, _, rfl, _⟩
        rcases InstructionTable.plan_eq_ok planned with
          ⟨opcode, fetched, ⟨instruction, found, executed, commit_eq⟩ | ⟨missing, _, _, _⟩⟩
        · refine Or.inl ?_
          rw [executes_of_find? running fetched found, Option.some.injEq]
          by_contra notHlt
          have goesOn := Operation.goesOn_of_effect notHlt executed
          simp [commit_eq, Outcome.commit, goesOn, running] at halted
        · exact Or.inr (Or.inl ⟨opcode,
            (undefinedByte?_eq_some_iff wiring.table machine opcode).mpr
              ⟨running, fetched, missing⟩⟩)
  · rintro (executed | ⟨opcode, undefined⟩ | ⟨fault, failed, isTrap⟩)
    · exact halted_of_hlt executed
    · exact halted_of_undefinedByte? undefined
    · have ended := (fault?_eq_some_iff wiring machine fault).mp failed
      refine decide_eq_true (halted_of_trap ended ?_).1
      rintro rfl
      cases isTrap

/-!
## Between actions
-/

theorem running_next_of_idle (idle : machine.running = false) :
    (machine.next wiring).running = false := by
  rcases machine.next_emits wiring with ⟨_, same⟩ | ⟨_, _, _, stopped⟩
  · exact same.trans idle
  · rw [stopped, idle, Bool.false_and]

/-- A run that has come to its end is not under way, whatever has ended it. -/
theorem running_of_drive {budget : Option Int} {fuel executed : Nat}
    (ended : (Answer.ofProgress (machine.drive wiring budget fuel executed)).isFinal = true) :
    (machine.drive wiring budget fuel executed).machine.running = false := by
  induction fuel generalizing executed machine with
  | zero =>
      unfold drive at ended ⊢
      split at ended
      · cases ended
      · rename_i stays
        rw [if_neg stays]
        rfl
  | succ fuel inductionHypothesis =>
      cases goesOn : machine.goesOn budget executed with
      | false =>
          rw [drive_of_stays goesOn]
          rfl
      | true =>
          cases answered : Machine.cycle wiring machine with
          | error fault after =>
              rw [drive_of_cycle_eq_error goesOn answered]
              rfl
          | ok alive after =>
              rw [drive_of_cycle_eq_ok goesOn answered] at ended ⊢
              exact inductionHypothesis ended

/-- No action that comes to its end leaves a run under way. -/
theorem running_perform {fuel : Nat} {action : Action} (idle : machine.running = false)
    (ended : (action.answer wiring fuel machine).isFinal = true) :
    (action.perform wiring fuel machine).running = false := by
  have steady : Steady fun machine => machine.running = false :=
    ⟨fun _ _ _ _ idle => idle, fun _ _ _ idle => idle⟩
  cases action with
  | loadFile name encoding bytes => exact steady.loadFile name encoding bytes idle
  | assign registers => exact idle
  | move address => exact idle
  | request asked =>
      cases asked with
      | call call =>
          cases call with
          | step =>
              simp only [Action.perform, Request.perform, step_perform]
              exact running_next_of_idle idle
          | run budget => exact running_of_drive ended
          | stop => rfl
      | reset => exact idle
      | poke address value => exact steady.storeByte address value idle
      | loadBlock data start => exact steady.loadBlock data start idle
      | loadText name text => exact steady.loadText name text idle
      | loadBytes data => exact steady.storeBytes data.zipIdx idle
      | writeRegister index value => exact steady.writeRegister index value idle
      | setStackPointer value => exact idle

theorem running_course (fuel : Nat) (actions : List Action) (idle : machine.running = false)
    (ended : (machine.course wiring fuel actions).ended = true) :
    (machine.course wiring fuel actions).machine.running = false := by
  induction actions generalizing machine with
  | nil => exact idle
  | cons action rest inductionHypothesis =>
      cases final : (action.answer wiring fuel machine).isFinal with
      | true =>
          simp only [course, final, if_true] at ended ⊢
          exact inductionHypothesis (running_perform idle final) ended
      | false => simp [course, final] at ended

/-!
## Inside of actions
-/

/-- A cycle was begun by a run whose device has not asked for a pause since its start. -/
def UnderWay (wiring : Wiring) (since : Option Nat) (before : Machine) : Prop :=
  ∃ start, since = some start ∧
    ∀ index, start ≤ index → index < before.emissions.size → (wiring.device index).stops = false

theorem running_iff_of_event {fuel : Nat} {action : Action} {since : Option Nat}
    {before : Machine} (idle : machine.running = false)
    (happened : .cycle since before ∈ action.events wiring fuel machine) :
    before.running = true ↔ UnderWay wiring since before := by
  unfold Action.events at happened
  split at happened
  · split at happened
    · cases happened
    · cases List.mem_singleton.mp happened
      simp [idle, UnderWay]
  · rcases List.mem_map.mp happened with ⟨time, bound, same⟩
    cases same
    have goesOn := goesOn_of_begun_run (List.mem_range.mp bound)
    have running := (running_of_goesOn goesOn).1
    exact iff_of_true running ⟨machine.emissions.size, rfl, calm_of_running running⟩
  · simp at happened
  · simp at happened
  · simp at happened
  · cases happened

theorem running_iff_of_course {fuel : Nat} {actions : List Action} {since : Option Nat}
    {before : Machine} (idle : machine.running = false)
    (happened : .cycle since before ∈ (machine.course wiring fuel actions).events) :
    before.running = true ↔ UnderWay wiring since before := by
  induction actions generalizing machine with
  | nil => cases happened
  | cons action rest inductionHypothesis =>
      cases final : (action.answer wiring fuel machine).isFinal with
      | true =>
          simp only [course, final, if_true, List.mem_append] at happened
          rcases happened with here | later
          · exact running_iff_of_event idle here
          · exact inductionHypothesis (running_perform idle final) later
      | false =>
          simp only [course, final, Bool.false_eq_true, if_false] at happened
          exact running_iff_of_event idle happened

namespace Leads

/-- The device is given its values by the cycles alone. -/
theorem emissions (leads : Leads wiring machine events final) :
    final.emissions.toList =
      machine.emissions.toList ++ (begun events).filterMap (emission? wiring) := by
  induction leads with
  | nothing kept =>
      rw [kept.emissions, begun, List.filterMap_nil, List.filterMap_nil, List.append_nil]
  | @cycle machine before final events since kept running rest inductionHypothesis =>
      have first : begun (.cycle since before :: events) = before :: begun events := rfl
      rw [inductionHypothesis, emissions_next, ← kept.emissions, first, List.append_assoc]
      cases emitted : before.emission? wiring <;> simp [emitted]
  | reset _ inductionHypothesis => exact inductionHypothesis
  | assigned _ _ inductionHypothesis => exact inductionHypothesis
  | moved _ _ inductionHypothesis => exact inductionHypothesis

end Leads

/-!
## At rest
-/

def Action.works : Action → Bool
  | .request (.call .step) => true
  | .request (.call (.run _)) => true
  | _ => false

/-- The answers of a machine that has halted: a step cannot go on, and a run has executed
nothing. -/
def AnsweredAtRest : Action → Answer → Prop
  | .request (.call .step), answer => answer = .went false
  | .request (.call (.run _)), answer => answer = .executed 0
  | _, answer => answer.isFinal = true

@[simp] theorem isFinal_ofExec (result : EStateM.Result Fault Machine Unit) :
    (Answer.ofExec result).isFinal = true := by
  cases result <;> rfl

@[simp] theorem isFinal_ofLoading (result : EStateM.Result LoadError Machine Program) :
    (Answer.ofLoading result).isFinal = true := by
  cases result <;> rfl

theorem answeredAtRest (wiring : Wiring) (fuel : Nat) (halted : machine.halted = true)
    (action : Action) : AnsweredAtRest action (action.answer wiring fuel machine) := by
  cases action with
  | loadFile name encoding bytes => exact isFinal_ofLoading _
  | assign registers => rfl
  | move address => rfl
  | request asked =>
      cases asked with
      | call call =>
          cases call with
          | step => exact congrArg Answer.ofCycle (cycle_of_halted wiring machine halted)
          | run budget => exact congrArg Answer.ofProgress (run_of_halted wiring budget fuel halted)
          | stop => rfl
      | reset => rfl
      | poke address value => exact isFinal_ofExec _
      | loadBlock data start => exact isFinal_ofExec _
      | loadText name text => exact isFinal_ofLoading _
      | loadBytes data => exact isFinal_ofExec _
      | writeRegister index value => exact isFinal_ofExec _
      | setStackPointer value => rfl

theorem AnsweredAtRest.isFinal {action : Action} {answer : Answer}
    (answered : AnsweredAtRest action answer) : answer.isFinal = true := by
  unfold AnsweredAtRest at answered
  split at answered
  · rw [answered]
    rfl
  · rw [answered]
    rfl
  · exact answered

/-- Steps and runs do nothing to a machine that has halted, but for the note that a run
makes of its end. -/
theorem perform_of_works {fuel : Nat} {action : Action} (halted : machine.halted = true)
    (works : action.works = true) :
    ∃ running journal, action.perform wiring fuel machine = { machine with running, journal } := by
  unfold Action.works at works
  split at works
  · refine ⟨machine.running, machine.journal, ?_⟩
    simp only [Action.perform, Request.perform, Call.perform, cycle_of_halted wiring machine halted]
    rfl
  · refine ⟨false, (machine.started.conclude 0).journal, ?_⟩
    simp only [Action.perform, Request.perform, Call.perform,
      run_of_halted wiring _ fuel halted]
    rfl
  · cases works

/-- A machine rests during actions: it stays halted, every step and every run is answered at
once, and nothing is begun, counted, emitted or recorded.  After these actions another step
or run would change neither registers nor memory nor anything else but the journal. -/
structure Rests (wiring : Wiring) (fuel : Nat) (machine : Machine) (actions : List Action) :
    Prop where
  ended : (machine.course wiring fuel actions).ended = true
  answers : List.Forall₂ AnsweredAtRest actions (machine.course wiring fuel actions).answers
  nothing : begun (machine.course wiring fuel actions).events = []
  halted : (machine.course wiring fuel actions).machine.halted = true
  cycles : (machine.course wiring fuel actions).machine.cycles = machine.cycles
  emissions : (machine.course wiring fuel actions).machine.emissions = machine.emissions
  trace : (machine.course wiring fuel actions).machine.trace = machine.trace
  still : ∀ action : Action, action.works = true → ∃ running journal,
    action.perform wiring fuel (machine.course wiring fuel actions).machine =
      { (machine.course wiring fuel actions).machine with running, journal }

/-- A machine that has halted stays so as long as it is not reset. -/
theorem halted_perform {fuel : Nat} {action : Action} (halted : machine.halted = true)
    (noReset : action ≠ .request .reset) :
    (action.perform wiring fuel machine).halted = true := by
  have alone : machine.course wiring fuel [action] =
      ⟨[action.answer wiring fuel machine], action.events wiring fuel machine,
        action.perform wiring fuel machine, true⟩ := by
    simp [course, (answeredAtRest wiring fuel halted action).isFinal]
  have leads := leads_of_course wiring fuel [action] machine
  have untouched : .reset ∉ (machine.course wiring fuel [action]).events := by
    intro happened
    exact noReset (List.mem_singleton.mp (reset_mem_of_event happened)).symm
  have stays := (leads.of_halted halted untouched).2.1
  rwa [alone] at stays

/-- As long as it is not reset, a machine that has halted comes to the end of all actions. -/
theorem answers_of_halted (wiring : Wiring) (fuel : Nat) {actions : List Action}
    (halted : machine.halted = true) (noReset : .request .reset ∉ actions) :
    (machine.course wiring fuel actions).ended = true ∧
      List.Forall₂ AnsweredAtRest actions (machine.course wiring fuel actions).answers := by
  induction actions generalizing machine with
  | nil => exact ⟨rfl, .nil⟩
  | cons action rest inductionHypothesis =>
      have answered := answeredAtRest wiring fuel halted action
      have stays : (action.perform wiring fuel machine).halted = true :=
        halted_perform halted fun same => noReset (same ▸ List.mem_cons_self)
      have others := inductionHypothesis stays
        fun member => noReset (List.mem_cons_of_mem action member)
      simp only [course, answered.isFinal, if_true]
      exact ⟨others.1, .cons answered others.2⟩

theorem rests_of_halted (wiring : Wiring) (fuel : Nat) {actions : List Action}
    (halted : machine.halted = true) (noReset : .request .reset ∉ actions) :
    Rests wiring fuel machine actions := by
  have leads := leads_of_course wiring fuel actions machine
  rcases leads.of_halted halted fun happened => noReset (reset_mem_of_event happened) with
    ⟨nothing, stays, cycles, emissions, trace⟩
  rcases answers_of_halted wiring fuel halted noReset with ⟨ended, answers⟩
  exact ⟨ended, answers, nothing, stays, cycles, emissions, trace,
    fun _ works => perform_of_works stays works⟩

/-- The life of a machine under any actions.  Between actions no run is under way.  A value is
given to the device while a run is under way exactly when a run has begun the cycle and its
device has not asked for a pause since.  A machine is halted by the operation for it, by a
byte without instruction and by a trap, and it rests until it is reset.  Every cycle that is
begun on a working machine is counted, from the last reset on. -/
theorem life_of_course (wiring : Wiring) (fuel : Nat) (actions : List Action)
    (idle : machine.running = false) :
    let course := machine.course wiring fuel actions
    (course.ended = true → course.machine.running = false) ∧
    (course.machine.emissions.toList =
        machine.emissions.toList ++ (begun course.events).filterMap (emission? wiring) ∧
      ∀ since before, .cycle since before ∈ course.events →
        ∀ emission, before.emission? wiring = some emission →
          (emission.running = true ↔ UnderWay wiring since before)) ∧
    ((machine.halted = false → course.machine.halted = true →
        ∃ before ∈ begun course.events, (before.next wiring).halted = true) ∧
      (∀ before ∈ begun course.events,
        before.halted = false ∧
        ((before.next wiring).halted = true ↔
          before.executes wiring = some .hlt ∨
          (∃ opcode, before.undefinedByte? wiring.table = some opcode) ∨
          ∃ fault, before.fault? wiring = some fault ∧ fault.isTrap = true)) ∧
      (course.machine.halted = true → ∀ others, .request .reset ∉ others →
        Rests wiring fuel course.machine others)) ∧
    (.reset ∉ course.events →
      course.machine.cycles = machine.cycles + (begun course.events).length) ∧
    ∀ earlier later, course.events = earlier ++ .reset :: later → .reset ∉ later →
      course.machine.cycles = (begun later).length := by
  intro course
  have leads : Leads wiring machine course.events course.machine :=
    leads_of_course wiring fuel actions machine
  refine ⟨running_course fuel actions idle, ⟨leads.emissions, ?_⟩, ⟨leads.halts, ?_, ?_⟩,
    leads.cycles, ?_⟩
  · intro since before happened emission emitted
    rw [running_of_emission? emitted]
    exact running_iff_of_course idle happened
  · intro before member
    exact ⟨leads.running before member, halted_next_iff (leads.running before member)⟩
  · intro halted others noReset
    exact rests_of_halted wiring fuel halted noReset
  · intro earlier later events_eq noReset
    rw [events_eq] at leads
    exact leads.cycles_of_reset noReset

/-- A machine that prints a register twice and halts. -/
def printsTwice : Machine where
  memory := ⟨#[0x06, 0, 0x06, 0, 0x1B], by decide⟩

/-- The device asks for a pause at the first value and fails at the second, which a step has
given to it.  Another run gives it that value again and halts the machine. -/
theorem life_of_course_printsTwice :
    let wiring : Wiring := { device := fun index => { stops := index = 0, fails := index = 1 } }
    let step : Action := .request (.call .step)
    let run : Action := .request (.call (.run none))
    let course := printsTwice.course wiring 9 [run, step, run]
    course.machine.running = false ∧
      course.machine.emissions.toList.map Emission.running = [true, false, true] ∧
      Rests wiring 9 course.machine [step, run] ∧ course.machine.cycles = 4 := by
  intro wiring step run course
  rcases life_of_course wiring 9 [run, step, run] (rfl : printsTwice.running = false) with
    ⟨idle, ⟨emissions, _⟩, ⟨_, _, rests⟩, cycles, _⟩
  have noReset : .reset ∉ (printsTwice.course wiring 9 [run, step, run]).events := by
    intro happened
    have asked := reset_mem_of_event happened
    simp [run, step] at asked
  refine ⟨idle (by decide +kernel), ?_, rests (by decide +kernel) _ (by simp [run, step]), ?_⟩
  · rw [emissions]
    decide +kernel
  · rw [cycles noReset]
    decide +kernel

end Machine
end EightBit
