import EightBit.Proofs.Reachability

namespace EightBit
namespace Machine

/-!
# The course of a machine

Whatever is done to a machine from outside, and in whatever order, its course is made
of a few events: a cycle is begun, the machine is reset, its registers are assigned
directly, or its program counter is.  Everything else leaves status, cycles, output,
trace and program counter alone.

`course` tells what has come of a list of actions: the answers, the events, and the
machine.  Events are told by the machines that cycles were begun on, and `Leads` says
that each of them follows from the one before.  A property of histories is proved by
induction on `Leads`, and does not look at actions any more.
-/

/-- What can be done to a machine: what can be asked of it, loading a program file, and
assigning its registers as they are, without cutting anything.  The program counter is
assigned apart from the other registers. -/
inductive Action where
  | request (request : Request)
  | loadFile (name : String) (encoding : Text.Encoding) (bytes : ByteArray)
  | assign (registers : Registers)
  | move (address : Int)

/-- What an action gives back. -/
inductive Answer where
  | done
  /-- A step tells whether the machine can go on. -/
  | went (alive : Bool)
  /-- A run tells how many cycles it has executed. -/
  | executed (count : Nat)
  | loaded (program : Program)
  | failed (fault : Fault)
  | refused (error : LoadError)
  /-- A run has not come to its end. -/
  | unfinished (executed : Nat)
deriving DecidableEq

/-- Whether an action has come to its end, by succeeding or by failing. -/
def Answer.isFinal : Answer → Bool
  | unfinished _ => false
  | _ => true

def Answer.ofExec : EStateM.Result Fault Machine Unit → Answer
  | .ok .. => done
  | .error fault _ => failed fault

def Answer.ofCycle : EStateM.Result Fault Machine Bool → Answer
  | .ok alive _ => went alive
  | .error fault _ => failed fault

def Answer.ofLoading : EStateM.Result LoadError Machine Program → Answer
  | .ok program _ => loaded program
  | .error error _ => refused error

def Answer.ofProgress : Progress → Answer
  | .returned count _ => executed count
  | .faulted fault _ _ => failed fault
  | .unfinished count _ => unfinished count

def Request.answer (wiring : Wiring) (fuel : Nat) (machine : Machine) : Request → Answer
  | .call .step => .ofCycle (cycle wiring machine)
  | .call (.run budget) => .ofProgress (machine.run wiring budget fuel)
  | .call .stop => .done
  | .reset => .done
  | .poke address value => .ofExec (storeByte address value machine)
  | .loadBlock data start => .ofExec (Machine.loadBlock data start machine)
  | .loadText name text => .ofLoading (Machine.loadText name text machine)
  | .loadBytes data => .ofExec (Machine.loadBytes data machine)
  | .writeRegister index value => .ofExec (Machine.writeRegister index value machine)
  | .setStackPointer _ => .done

/-- Something that happens to a machine.  A cycle comes with the machine that it is begun
on and, if a run begins it, with the number of values that had been emitted when the run
was started. -/
inductive Event where
  | cycle (since : Option Nat) (machine : Machine)
  | reset
  | assigned (registers : Registers)
  | moved (address : Int)

/-- The machine with all registers but the program counter assigned. -/
def assign (machine : Machine) (registers : Registers) : Machine :=
  { machine with
    registers := { registers with programCounter := machine.registers.programCounter } }

/-- The machine with its program counter assigned. -/
def move (machine : Machine) (address : Int) : Machine :=
  { machine with registers := { machine.registers with programCounter := address } }

namespace Action

def answer (wiring : Wiring) (fuel : Nat) (machine : Machine) : Action → Answer
  | .request asked => asked.answer wiring fuel machine
  | .loadFile name encoding bytes => .ofLoading (Machine.loadFile name encoding bytes machine)
  | .assign _ => .done
  | .move _ => .done

/-- The machine after an action.  A run looks at no more than `fuel` cycles. -/
def perform (wiring : Wiring) (fuel : Nat) (machine : Machine) : Action → Machine
  | .request asked => asked.perform wiring fuel machine
  | .loadFile name encoding bytes => outcomeOf (Machine.loadFile name encoding bytes machine)
  | .assign registers => machine.assign registers
  | .move address => machine.move address

/-- The events of an action.  A step on a machine that has halted begins no cycle; a run
begins one cycle after the other. -/
def events (wiring : Wiring) (fuel : Nat) (machine : Machine) : Action → List Event
  | .request (.call .step) => if machine.halted then [] else [.cycle none machine]
  | .request (.call (.run budget)) =>
    (List.range (machine.run wiring budget fuel).begun).map fun time =>
      .cycle (some machine.emissions.size) (machine.started.after wiring time)
  | .request .reset => [.reset]
  | .assign registers => [.assigned registers]
  | .move address => [.moved address]
  | _ => []

end Action

/-- What has come of actions: their answers, the events in order, the machine, and whether
all of them have come to their ends. -/
structure Course where
  answers : List Answer
  events : List Event
  machine : Machine
  ended : Bool

/-- Carries out actions one after the other.  One that fails does not keep the next from
being carried out, but one that has not come to its end does. -/
def course (wiring : Wiring) (fuel : Nat) : List Action → Machine → Course
  | [], machine => ⟨[], [], machine, true⟩
  | action :: rest, machine =>
    let answer := action.answer wiring fuel machine
    let events := action.events wiring fuel machine
    let after := action.perform wiring fuel machine
    if answer.isFinal then
      let later := course wiring fuel rest after
      ⟨answer :: later.answers, events ++ later.events, later.machine, later.ended⟩
    else ⟨[answer], events, after, false⟩

/-- The machines that cycles were begun on. -/
def begun (events : List Event) : List Machine :=
  events.filterMap fun event =>
    match event with
    | .cycle _ machine => some machine
    | _ => none

/-- What nothing but cycles, resets and assignments changes. -/
structure Kept (machine after : Machine) : Prop where
  programCounter : after.registers.programCounter = machine.registers.programCounter
  bounded : machine.registers.Bounded → after.registers.Bounded
  status : after.status = machine.status
  cycles : after.cycles = machine.cycles
  emissions : after.emissions = machine.emissions
  trace : after.trace = machine.trace

/-- Events lead from one machine to another: each begins where the one before has ended,
and no cycle is begun on a machine that has halted. -/
inductive Leads (wiring : Wiring) : Machine → List Event → Machine → Prop where
  | nothing {machine final : Machine} (kept : Kept machine final) :
      Leads wiring machine [] final
  | cycle {machine before final : Machine} {events : List Event} (since : Option Nat)
      (kept : Kept machine before) (running : before.halted = false)
      (rest : Leads wiring (before.next wiring) events final) :
      Leads wiring machine (.cycle since before :: events) final
  | reset {machine final : Machine} {events : List Event}
      (rest : Leads wiring machine.reset events final) :
      Leads wiring machine (.reset :: events) final
  | assigned {machine final : Machine} {events : List Event} (registers : Registers)
      (rest : Leads wiring (machine.assign registers) events final) :
      Leads wiring machine (.assigned registers :: events) final
  | moved {machine final : Machine} {events : List Event} (address : Int)
      (rest : Leads wiring (machine.move address) events final) :
      Leads wiring machine (.moved address :: events) final

variable {wiring : Wiring} {machine after final : Machine} {events later : List Event}

namespace Kept

theorem refl (machine : Machine) : Kept machine machine :=
  ⟨rfl, id, rfl, rfl, rfl, rfl⟩

theorem trans (kept : Kept machine after) (others : Kept after final) : Kept machine final where
  programCounter := others.programCounter.trans kept.programCounter
  bounded := others.bounded ∘ kept.bounded
  status := others.status.trans kept.status
  cycles := others.cycles.trans kept.cycles
  emissions := others.emissions.trans kept.emissions
  trace := others.trace.trans kept.trace

/-- Whether a run is under way, the memory and the journal are not looked at. -/
theorem aside (kept : Kept machine after) (memory : Memory) (running : Bool)
    (journal : Journal) : Kept machine { after with memory, running, journal } :=
  ⟨kept.programCounter, kept.bounded, kept.status, kept.cycles, kept.emissions, kept.trace⟩

theorem halted_eq (kept : Kept machine after) : after.halted = machine.halted := by
  rw [halted, halted, kept.status]

theorem reset (kept : Kept machine after) : Kept machine.reset after.reset :=
  ⟨rfl, id, rfl, rfl, kept.emissions, kept.trace⟩

theorem assign (kept : Kept machine after) (registers : Registers) :
    Kept (machine.assign registers) (after.assign registers) :=
  ⟨kept.programCounter, id, kept.status, kept.cycles, kept.emissions, kept.trace⟩

theorem move (kept : Kept machine after) (address : Int) :
    Kept (machine.move address) (after.move address) :=
  ⟨rfl, kept.bounded, kept.status, kept.cycles, kept.emissions, kept.trace⟩

theorem steady (machine : Machine) : Steady (Kept machine) where
  memory := by
    intro after memory journal _ kept
    exact kept.aside memory after.running journal
  setCell := by
    intro after slot value kept
    exact ⟨kept.programCounter, fun bounded => (kept.bounded bounded).setCell slot value,
      kept.status, kept.cycles, kept.emissions, kept.trace⟩

end Kept

namespace Leads

theorem of_kept (kept : Kept machine after) (leads : Leads wiring after events final) :
    Leads wiring machine events final := by
  induction leads generalizing machine with
  | nothing others => exact .nothing (kept.trans others)
  | cycle since others running rest _ => exact .cycle since (kept.trans others) running rest
  | reset _ inductionHypothesis => exact .reset (inductionHypothesis kept.reset)
  | assigned registers _ inductionHypothesis =>
      exact .assigned registers (inductionHypothesis (kept.assign registers))
  | moved address _ inductionHypothesis =>
      exact .moved address (inductionHypothesis (kept.move address))

theorem append (leads : Leads wiring machine events after)
    (others : Leads wiring after later final) :
    Leads wiring machine (events ++ later) final := by
  induction leads with
  | nothing kept => exact others.of_kept kept
  | cycle since kept running _ inductionHypothesis =>
      exact .cycle since kept running (inductionHypothesis others)
  | reset _ inductionHypothesis => exact .reset (inductionHypothesis others)
  | assigned registers _ inductionHypothesis =>
      exact .assigned registers (inductionHypothesis others)
  | moved address _ inductionHypothesis => exact .moved address (inductionHypothesis others)

/-- What happened may be cut anywhere. -/
theorem split (leads : Leads wiring machine (events ++ later) final) :
    ∃ between, Leads wiring machine events between ∧ Leads wiring between later final := by
  induction events generalizing machine with
  | nil => exact ⟨machine, .nothing (.refl machine), leads⟩
  | cons event rest inductionHypothesis =>
      cases leads with
      | cycle since kept running leads =>
          rcases inductionHypothesis leads with ⟨between, first, second⟩
          exact ⟨between, .cycle since kept running first, second⟩
      | reset leads =>
          rcases inductionHypothesis leads with ⟨between, first, second⟩
          exact ⟨between, .reset first, second⟩
      | assigned registers leads =>
          rcases inductionHypothesis leads with ⟨between, first, second⟩
          exact ⟨between, .assigned registers first, second⟩
      | moved address leads =>
          rcases inductionHypothesis leads with ⟨between, first, second⟩
          exact ⟨between, .moved address first, second⟩

/-- Cycles in a row lead from the first machine to the last. -/
theorem of_after (since : Option Nat) {count : Nat}
    (running : ∀ time < count, (machine.after wiring time).halted = false) :
    Leads wiring machine
      ((List.range count).map fun time => .cycle since (machine.after wiring time))
      (machine.after wiring count) := by
  induction count with
  | zero => exact .nothing (.refl machine)
  | succ count inductionHypothesis =>
      rw [List.range_succ, List.map_append]
      refine Leads.append
        (inductionHypothesis fun time bound => running time (Nat.lt_succ_of_lt bound)) ?_
      exact .cycle since (.refl _) (running count (Nat.lt_succ_self count)) (.nothing (.refl _))

end Leads

/-!
## Actions
-/

theorem leads_of_run (budget : Option Int) (fuel : Nat) :
    Leads wiring machine
      ((Action.request (.call (.run budget))).events wiring fuel machine)
      (machine.run wiring budget fuel).machine := by
  have started : Kept machine machine.started := (Kept.refl machine).aside _ _ _
  have running : ∀ time < (machine.run wiring budget fuel).begun,
      (machine.started.after wiring time).halted = false :=
    fun time bound => (running_of_goesOn (goesOn_of_begun_run bound)).2
  have cycles := Leads.of_after (some machine.emissions.size) running
  rcases run_eq_after wiring budget fuel machine with ⟨running, journal, reached⟩
  let ending := machine.started.after wiring (machine.run wiring budget fuel).begun
  have ended := (Kept.refl ending).aside ending.memory running journal
  have whole := (cycles.of_kept started).append (.nothing ended)
  rw [List.append_nil] at whole
  rw [reached]
  exact whole

@[simp] theorem step_perform (wiring : Wiring) (fuel : Nat) (machine : Machine) :
    (Call.step.perform wiring fuel machine).machine = machine.next wiring := by
  unfold Call.perform next
  cases cycle wiring machine <;> rfl

theorem leads_of_step (fuel : Nat) :
    Leads wiring machine ((Action.request (.call .step)).events wiring fuel machine)
      (Call.step.perform wiring fuel machine).machine := by
  rw [step_perform, Action.events]
  cases halted : machine.halted with
  | true =>
      have same : machine.next wiring = machine := by
        rw [next, cycle_of_halted wiring machine halted]
      rw [same]
      exact .nothing (.refl machine)
  | false => exact .cycle none (.refl machine) halted (.nothing (.refl _))

theorem leads_of_request (fuel : Nat) (request : Request) :
    Leads wiring machine ((Action.request request).events wiring fuel machine)
      (request.perform wiring fuel machine) := by
  have steady := Kept.steady machine
  have same := Kept.refl machine
  cases request with
  | call call =>
      cases call with
      | step => exact leads_of_step fuel
      | run budget => exact leads_of_run budget fuel
      | stop => exact .nothing (same.aside _ _ _)
  | reset => exact .reset (.nothing (.refl _))
  | poke address value => exact .nothing (steady.storeByte address value same)
  | loadBlock data start => exact .nothing (steady.loadBlock data start same)
  | loadText name text => exact .nothing (steady.loadText name text same)
  | loadBytes data => exact .nothing (steady.storeBytes data.zipIdx same)
  | writeRegister index value => exact .nothing (steady.writeRegister index value same)
  | setStackPointer value => exact .nothing (steady.setCell machine Registers.stackSlot value same)

theorem leads_of_action (fuel : Nat) (action : Action) :
    Leads wiring machine (action.events wiring fuel machine)
      (action.perform wiring fuel machine) := by
  cases action with
  | request request => exact leads_of_request fuel request
  | loadFile name encoding bytes =>
      exact .nothing ((Kept.steady machine).loadFile name encoding bytes (.refl machine))
  | assign registers => exact .assigned registers (.nothing (.refl _))
  | move address => exact .moved address (.nothing (.refl _))

/-- The events of a course lead to its machine. -/
theorem leads_of_course (wiring : Wiring) (fuel : Nat) (actions : List Action)
    (machine : Machine) :
    Leads wiring machine (machine.course wiring fuel actions).events
      (machine.course wiring fuel actions).machine := by
  induction actions generalizing machine with
  | nil => exact .nothing (.refl machine)
  | cons action rest inductionHypothesis =>
      have first : Leads wiring machine _ _ := leads_of_action fuel action
      cases final : (action.answer wiring fuel machine).isFinal with
      | true => simpa only [course, final, if_true] using first.append (inductionHypothesis _)
      | false => simpa only [course, final, Bool.false_eq_true, if_false] using first

/-- Every event of a course is the event of one of its actions. -/
theorem exists_action_of_event {fuel : Nat} {actions : List Action} {event : Event}
    (happened : event ∈ (machine.course wiring fuel actions).events) :
    ∃ action ∈ actions, ∃ before : Machine, event ∈ action.events wiring fuel before := by
  induction actions generalizing machine with
  | nil => cases happened
  | cons action rest inductionHypothesis =>
      cases final : (action.answer wiring fuel machine).isFinal with
      | true =>
          simp only [course, final, if_true, List.mem_append] at happened
          rcases happened with here | later
          · exact ⟨action, List.mem_cons_self, machine, here⟩
          · rcases inductionHypothesis later with ⟨other, member, before, happens⟩
            exact ⟨other, List.mem_cons_of_mem action member, before, happens⟩
      | false =>
          simp only [course, final, Bool.false_eq_true, if_false] at happened
          exact ⟨action, List.mem_cons_self, machine, happened⟩

/-- A machine is reset by the request for it. -/
theorem reset_mem_of_event {fuel : Nat} {actions : List Action}
    (happened : .reset ∈ (machine.course wiring fuel actions).events) :
    .request .reset ∈ actions := by
  rcases exists_action_of_event happened with ⟨action, member, before, happens⟩
  have same : action = .request .reset := by
    unfold Action.events at happens
    split at happens
    · split at happens <;> simp at happens
    · simp at happens
    · rfl
    · simp at happens
    · simp at happens
    · cases happens
  exact same ▸ member

/-!
## What histories have in common
-/

theorem cycles_next (wiring : Wiring) (running : machine.halted = false) :
    (machine.next wiring).cycles = machine.cycles + 1 := by
  unfold next
  cases ended : cycle wiring machine with
  | ok alive after => exact cycles_of_cycle_eq_ok running ended
  | error fault after => exact cycles_of_cycle_eq_error ended

namespace Leads

/-- Cycles are begun on machines that have not halted. -/
theorem running (leads : Leads wiring machine events final) :
    ∀ before ∈ begun events, before.halted = false := by
  induction leads with
  | nothing _ => exact fun _ member => absurd member List.not_mem_nil
  | cycle _ _ running _ inductionHypothesis =>
      exact List.forall_mem_cons.mpr ⟨running, inductionHypothesis⟩
  | reset _ inductionHypothesis => exact inductionHypothesis
  | assigned _ _ inductionHypothesis => exact inductionHypothesis
  | moved _ _ inductionHypothesis => exact inductionHypothesis

/-- Every cycle that is begun is counted. -/
theorem cycles (leads : Leads wiring machine events final) (noReset : .reset ∉ events) :
    final.cycles = machine.cycles + (begun events).length := by
  induction leads with
  | nothing kept => exact kept.cycles
  | @cycle machine before final events since kept running rest inductionHypothesis =>
      rw [inductionHypothesis fun member => noReset (List.mem_cons_of_mem _ member),
        cycles_next wiring running, kept.cycles, Nat.add_assoc, Nat.add_comm 1]
      rfl
  | reset _ _ => exact absurd List.mem_cons_self noReset
  | assigned registers _ inductionHypothesis =>
      exact inductionHypothesis fun member => noReset (List.mem_cons_of_mem _ member)
  | moved address _ inductionHypothesis =>
      exact inductionHypothesis fun member => noReset (List.mem_cons_of_mem _ member)

theorem cycles_of_reset {earlier : List Event}
    (leads : Leads wiring machine (earlier ++ .reset :: later) final)
    (noReset : .reset ∉ later) : final.cycles = (begun later).length := by
  rcases leads.split with ⟨between, _, last⟩
  cases last with
  | reset rest => exact (rest.cycles noReset).trans (Nat.zero_add _)

/-- Without a reset a machine that has halted stays so.  No cycle is begun, and nothing is
counted, emitted or recorded. -/
theorem of_halted (leads : Leads wiring machine events final) (halted : machine.halted = true)
    (noReset : .reset ∉ events) :
    begun events = [] ∧ final.halted = true ∧ final.cycles = machine.cycles ∧
      final.emissions = machine.emissions ∧ final.trace = machine.trace := by
  induction leads with
  | nothing kept =>
      exact ⟨rfl, kept.halted_eq.trans halted, kept.cycles, kept.emissions, kept.trace⟩
  | cycle since kept running _ _ =>
      rw [kept.halted_eq, halted] at running
      cases running
  | reset _ _ => exact absurd List.mem_cons_self noReset
  | assigned registers _ inductionHypothesis =>
      exact inductionHypothesis halted fun member => noReset (List.mem_cons_of_mem _ member)
  | moved address _ inductionHypothesis =>
      exact inductionHypothesis halted fun member => noReset (List.mem_cons_of_mem _ member)

/-- A machine that was working and has halted did so in a cycle. -/
theorem halts (leads : Leads wiring machine events final) (working : machine.halted = false)
    (halted : final.halted = true) :
    ∃ before ∈ begun events, (before.next wiring).halted = true := by
  induction leads with
  | nothing kept =>
      rw [kept.halted_eq, working] at halted
      cases halted
  | @cycle machine before final events since _ _ _ inductionHypothesis =>
      cases ended : (before.next wiring).halted with
      | true => exact ⟨before, List.mem_cons_self, ended⟩
      | false =>
          rcases inductionHypothesis ended halted with ⟨other, member, ended⟩
          exact ⟨other, List.mem_cons_of_mem before member, ended⟩
  | reset _ inductionHypothesis => exact inductionHypothesis rfl halted
  | assigned _ _ inductionHypothesis => exact inductionHypothesis working halted
  | moved _ _ inductionHypothesis => exact inductionHypothesis working halted

end Leads

end Machine
end EightBit
