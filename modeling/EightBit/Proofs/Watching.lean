import EightBit.Proofs.Course

namespace EightBit
namespace Machine

/-!
# Watching a machine

A trace and a journal watch a machine.  They may be of any kind, or not be there at all:
what the machine does and what it answers is the same.

`unwatched` takes them away.  A computation is blind when it comes to the same without
them.  Blindness is closed under the ways in which computations are put together, so it is
shown for single accesses and, by the plans of cycles, for cycles; runs, actions and courses
follow by induction.
-/

/-- The machine without its trace and with an empty journal that wants nothing. -/
def unwatched (machine : Machine) : Machine :=
  { machine with trace := none, journal := ⟨.nothing, #[]⟩ }

def unwatchedResult : EStateM.Result ε Machine α → EStateM.Result ε Machine α
  | .ok value after => .ok value after.unwatched
  | .error error after => .error error after.unwatched

/-- A computation that takes no notice of what watches the machine. -/
def Blind (computation : EStateM ε Machine α) : Prop :=
  ∀ machine, unwatchedResult (computation machine) =
    unwatchedResult (computation machine.unwatched)

def Progress.unwatched : Progress → Progress
  | .returned executed machine => .returned executed machine.unwatched
  | .faulted fault executed machine => .faulted fault executed machine.unwatched
  | .unfinished executed machine => .unfinished executed machine.unwatched

def Course.unwatched (course : Course) : List Answer × Machine × Bool :=
  (course.answers, course.machine.unwatched, course.ended)

variable {wiring : Wiring} {machine after other : Machine}

/-- What is seen of a machine without looking at what watches it is seen of every machine that
differs in nothing else. -/
theorem eq_of_unwatched (view : Machine → α)
    (heedless : ∀ machine : Machine, view machine.unwatched = view machine)
    (same : machine.unwatched = other.unwatched) : view machine = view other := by
  rw [← heedless machine, same, heedless]

/-!
## Blind computations
-/

/-- A blind computation succeeds with the same value or fails with the same error, and leaves
machines that differ in nothing but what watches them. -/
theorem Blind.cases {computation : EStateM ε Machine α} (blind : Blind computation)
    (machine : Machine) :
    (∃ value after other, computation machine = .ok value after ∧
      computation machine.unwatched = .ok value other ∧ after.unwatched = other.unwatched) ∨
    ∃ error after other, computation machine = .error error after ∧
      computation machine.unwatched = .error error other ∧ after.unwatched = other.unwatched := by
  have same := blind machine
  cases watched : computation machine with
  | ok value after =>
      cases alone : computation machine.unwatched with
      | ok found other =>
          simp only [watched, alone, unwatchedResult, EStateM.Result.ok.injEq] at same
          rcases same with ⟨rfl, same⟩
          exact .inl ⟨value, after, other, rfl, rfl, same⟩
      | error error other =>
          rw [watched, alone] at same
          cases same
  | error error after =>
      cases alone : computation machine.unwatched with
      | ok found other =>
          rw [watched, alone] at same
          cases same
      | error cause other =>
          simp only [watched, alone, unwatchedResult, EStateM.Result.error.injEq] at same
          rcases same with ⟨rfl, same⟩
          exact .inr ⟨error, after, other, rfl, rfl, same⟩

theorem Blind.bind {first : EStateM ε Machine α} {rest : α → EStateM ε Machine β}
    (blind : Blind first) (later : ∀ value, Blind (rest value)) : Blind (first >>= rest) := by
  intro machine
  rcases blind.cases machine with
    ⟨value, after, other, watched, alone, same⟩ | ⟨error, after, other, watched, alone, same⟩
  · simp only [Bind.bind, EStateM.bind, watched, alone]
    rw [later value after, later value other, same]
  · simp only [Bind.bind, EStateM.bind, watched, alone, unwatchedResult, same]

@[simp] theorem unwatched_memory (machine : Machine) : machine.unwatched.memory = machine.memory :=
  rfl

@[simp] theorem unwatched_registers (machine : Machine) :
    machine.unwatched.registers = machine.registers :=
  rfl

theorem blind_storeByte (address value : Int) : Blind (storeByte address value) := by
  intro machine
  rw [storeByte_eq, storeByte_eq, unwatched_memory]
  cases machine.memory.store address value <;> rfl

theorem blind_loadBlock (data : Array UInt8) (start : Int) : Blind (loadBlock data start) := by
  intro machine
  rw [loadBlock_eq, loadBlock_eq, unwatched_memory]
  cases machine.memory.loadImage data start <;> rfl

theorem blind_writeRegister (index value : Int) : Blind (writeRegister index value) := by
  intro machine
  rw [writeRegister_eq, writeRegister_eq, unwatched_registers]
  cases machine.registers.set index value <;> rfl

theorem blind_loadBytes (data : List UInt8) : Blind (loadBytes data) := by
  unfold loadBytes
  induction data.zipIdx with
  | nil => exact fun _ => rfl
  | cons entry rest inductionHypothesis =>
      exact (blind_storeByte entry.2 (Byte.toInt entry.1)).bind fun _ => inductionHypothesis

theorem blind_loadText (name text : String) : Blind (loadText name text) := by
  intro machine
  rw [loadText_eq, loadText_eq]
  cases Program.parse name text with
  | error error => rfl
  | ok program =>
      dsimp only
      rw [place_eq, place_eq, unwatched_memory]
      cases machine.memory.loadImage program.bytes 0 <;> rfl

theorem blind_loadFile (name : String) (encoding : Text.Encoding) (bytes : ByteArray) :
    Blind (loadFile name encoding bytes) := by
  unfold loadFile
  cases encoding.decode bytes with
  | error error => exact fun _ => rfl
  | ok text => exact blind_loadText name _

/-- What a plan comes to does not depend on what watches the machine. -/
theorem cycled_unwatched (wiring : Wiring) (machine : Machine) (journal noted : Journal)
    (planned : Except Failure Plan) :
    unwatchedResult (machine.cycled wiring journal planned) =
      unwatchedResult (machine.unwatched.cycled wiring noted planned) := by
  cases planned with
  | error failure => rfl
  | ok plan =>
      rcases plan with ⟨commit, registers, memory, emission, outcome⟩
      have refuses : machine.unwatched.refuses wiring.device emission =
          machine.refuses wiring.device emission := rfl
      simp only [cycled, refuses]
      split
      · cases emission <;> rfl
      · cases emission <;> rfl

theorem blind_cycle (wiring : Wiring) : Blind (cycle wiring) := by
  intro machine
  cases halted : machine.halted with
  | true =>
      have halted' : machine.unwatched.halted = true := halted
      rw [cycle_of_halted wiring machine halted, cycle_of_halted wiring machine.unwatched halted']
      rfl
  | false =>
      rcases cycle_eq wiring machine halted with ⟨journal, watched⟩
      rcases cycle_eq wiring machine.unwatched halted with ⟨noted, alone⟩
      rw [watched, alone]
      exact cycled_unwatched wiring machine journal noted (machine.plan wiring)

/-!
## Cycles in a row
-/

theorem next_eq_outcomeOf (wiring : Wiring) (machine : Machine) :
    machine.next wiring = outcomeOf (cycle wiring machine) := by
  unfold next
  cases cycle wiring machine <;> rfl

@[simp] theorem outcomeOf_unwatchedResult (result : EStateM.Result ε Machine α) :
    outcomeOf (unwatchedResult result) = (outcomeOf result).unwatched := by
  cases result <;> rfl

/-- A blind computation leaves the same machine behind, but for what watches it. -/
theorem Blind.outcomeOf {computation : EStateM ε Machine α} (blind : Blind computation)
    (machine : Machine) :
    (Machine.outcomeOf (computation machine)).unwatched =
      (Machine.outcomeOf (computation machine.unwatched)).unwatched := by
  rw [← outcomeOf_unwatchedResult, blind machine, outcomeOf_unwatchedResult]

theorem next_unwatched (wiring : Wiring) (machine : Machine) :
    (machine.next wiring).unwatched = (machine.unwatched.next wiring).unwatched := by
  rw [next_eq_outcomeOf, next_eq_outcomeOf]
  exact (blind_cycle wiring).outcomeOf machine

theorem after_unwatched (wiring : Wiring) (machine : Machine) (count : Nat) :
    (machine.after wiring count).unwatched =
      (machine.unwatched.after wiring count).unwatched := by
  induction count with
  | zero => rfl
  | succ count inductionHypothesis =>
      simp only [Machine.after]
      rw [next_unwatched, inductionHypothesis, ← next_unwatched]

theorem fault?_unwatched (wiring : Wiring) (machine : Machine) :
    machine.fault? wiring = machine.unwatched.fault? wiring := by
  rcases (blind_cycle wiring).cases machine with
    ⟨alive, after, other, watched, alone, _⟩ | ⟨fault, after, other, watched, alone, _⟩
  · simp only [fault?, watched, alone]
  · simp only [fault?, watched, alone]

theorem succeeds_unwatched (wiring : Wiring) (machine : Machine) :
    machine.succeeds wiring = machine.unwatched.succeeds wiring := by
  rw [succeeds_eq, succeeds_eq, fault?_unwatched]

/-!
## Runs, actions and courses
-/

theorem goesOn_unwatched (machine : Machine) (budget : Option Int) (executed : Nat) :
    machine.unwatched.goesOn budget executed = machine.goesOn budget executed :=
  rfl

theorem drive_unwatched (wiring : Wiring) (budget : Option Int) (fuel executed : Nat)
    (machine : Machine) :
    (machine.drive wiring budget fuel executed).unwatched =
      (machine.unwatched.drive wiring budget fuel executed).unwatched := by
  induction fuel generalizing executed machine with
  | zero =>
      unfold drive
      rw [goesOn_unwatched]
      split <;> rfl
  | succ fuel inductionHypothesis =>
      cases goesOn : machine.goesOn budget executed with
      | false =>
          rw [drive_of_stays goesOn, drive_of_stays ((machine.goesOn_unwatched _ _).trans goesOn)]
          rfl
      | true =>
          have goesOn' := (machine.goesOn_unwatched budget executed).trans goesOn
          rcases (blind_cycle wiring).cases machine with
            ⟨alive, after, other, watched, alone, same⟩ |
              ⟨fault, after, other, watched, alone, same⟩
          · rw [drive_of_cycle_eq_ok goesOn watched, drive_of_cycle_eq_ok goesOn' alone,
              inductionHypothesis _ after, inductionHypothesis _ other, same]
          · rw [drive_of_cycle_eq_error goesOn watched, drive_of_cycle_eq_error goesOn' alone]
            exact congrArg
              (fun machine : Machine => Progress.faulted fault executed machine.stop) same

theorem run_unwatched (wiring : Wiring) (budget : Option Int) (fuel : Nat) (machine : Machine) :
    (machine.run wiring budget fuel).unwatched =
      (machine.unwatched.run wiring budget fuel).unwatched :=
  drive_unwatched wiring budget fuel 0 machine.started

/-- An answer that is read off the result of a computation is read off without looking at the
machine. -/
theorem Blind.answer {computation : EStateM ε Machine α} (blind : Blind computation)
    {answer : EStateM.Result ε Machine α → Answer}
    (heedless : ∀ result, answer (unwatchedResult result) = answer result) (machine : Machine) :
    answer (computation machine) = answer (computation machine.unwatched) := by
  rw [← heedless, blind machine, heedless]

@[simp] theorem ofExec_unwatchedResult (result : EStateM.Result Fault Machine Unit) :
    Answer.ofExec (unwatchedResult result) = Answer.ofExec result := by
  cases result <;> rfl

@[simp] theorem ofLoading_unwatchedResult (result : EStateM.Result LoadError Machine Program) :
    Answer.ofLoading (unwatchedResult result) = Answer.ofLoading result := by
  cases result <;> rfl

@[simp] theorem ofCycle_unwatchedResult (result : EStateM.Result Fault Machine Bool) :
    Answer.ofCycle (unwatchedResult result) = Answer.ofCycle result := by
  cases result <;> rfl

@[simp] theorem ofProgress_unwatched (progress : Progress) :
    Answer.ofProgress progress.unwatched = Answer.ofProgress progress := by
  cases progress <;> rfl

@[simp] theorem machine_unwatched (progress : Progress) :
    progress.unwatched.machine = progress.machine.unwatched := by
  cases progress <;> rfl

theorem answer_unwatched (wiring : Wiring) (fuel : Nat) (machine : Machine) (action : Action) :
    action.answer wiring fuel machine = action.answer wiring fuel machine.unwatched := by
  cases action with
  | loadFile name encoding bytes =>
      exact (blind_loadFile name encoding bytes).answer ofLoading_unwatchedResult machine
  | assign registers => rfl
  | move address => rfl
  | request asked =>
      cases asked with
      | call call =>
          cases call with
          | step => exact (blind_cycle wiring).answer ofCycle_unwatchedResult machine
          | run budget =>
              change Answer.ofProgress (machine.run wiring budget fuel) = Answer.ofProgress _
              rw [← ofProgress_unwatched, run_unwatched, ofProgress_unwatched]
          | stop => rfl
      | reset => rfl
      | poke address value =>
          exact (blind_storeByte address value).answer ofExec_unwatchedResult machine
      | loadBlock data start =>
          exact (blind_loadBlock data start).answer ofExec_unwatchedResult machine
      | loadText name text =>
          exact (blind_loadText name text).answer ofLoading_unwatchedResult machine
      | loadBytes data => exact (blind_loadBytes data).answer ofExec_unwatchedResult machine
      | writeRegister index value =>
          exact (blind_writeRegister index value).answer ofExec_unwatchedResult machine
      | setStackPointer value => rfl

theorem perform_unwatched (wiring : Wiring) (fuel : Nat) (machine : Machine) (action : Action) :
    (action.perform wiring fuel machine).unwatched =
      (action.perform wiring fuel machine.unwatched).unwatched := by
  cases action with
  | loadFile name encoding bytes => exact (blind_loadFile name encoding bytes).outcomeOf machine
  | assign registers => rfl
  | move address => rfl
  | request asked =>
      cases asked with
      | call call =>
          cases call with
          | step =>
              simp only [Action.perform, Request.perform, step_perform]
              exact next_unwatched wiring machine
          | run budget =>
              simp only [Action.perform, Request.perform, Call.perform]
              rw [← machine_unwatched, run_unwatched, machine_unwatched]
          | stop => rfl
      | reset => rfl
      | poke address value => exact (blind_storeByte address value).outcomeOf machine
      | loadBlock data start => exact (blind_loadBlock data start).outcomeOf machine
      | loadText name text => exact (blind_loadText name text).outcomeOf machine
      | loadBytes data => exact (blind_loadBytes data).outcomeOf machine
      | writeRegister index value => exact (blind_writeRegister index value).outcomeOf machine
      | setStackPointer value => rfl

/-- A course comes to the same whatever watches the machine. -/
theorem course_unwatched (wiring : Wiring) (fuel : Nat) (actions : List Action)
    (machine : Machine) :
    (machine.course wiring fuel actions).unwatched =
      (machine.unwatched.course wiring fuel actions).unwatched := by
  induction actions generalizing machine with
  | nil => rfl
  | cons action rest inductionHypothesis =>
      have answers := answer_unwatched wiring fuel machine action
      have left := perform_unwatched wiring fuel machine action
      simp only [course, ← answers]
      split
      · have later := (inductionHypothesis (action.perform wiring fuel machine)).trans
          (left ▸ (inductionHypothesis (action.perform wiring fuel machine.unwatched)).symm)
        simp only [Course.unwatched, Prod.mk.injEq] at later ⊢
        exact ⟨congrArg _ later.1, later.2⟩
      · simp only [Course.unwatched, left]

end Machine

/-!
## Notes are always written

A template may ask for a conversion that there is none of, as the one for fetched opcodes
does; the message then lists its arguments.  Nothing else can go wrong with a note, so none
is lost.
-/

theorem Note.line_defined (note : Note) : ∃ text, note.line = .ok text := by
  have body : ∃ text, Diagnostics.body note.template note.args .indices = .ok text := by
    cases note <;>
      · simp only [Note.template, Note.args, Diagnostics.body, List.isEmpty]
        exact ⟨_, rfl⟩
  rcases body with ⟨text, written⟩
  exact ⟨Diagnostics.line note.category.name text, by rw [Note.line, written]; rfl⟩

theorem Journal.lines_defined (journal : Journal) : ∃ lines, journal.lines = .ok lines := by
  unfold Journal.lines
  induction journal.notes.toList with
  | nil => exact ⟨[], rfl⟩
  | cons note rest inductionHypothesis =>
      rcases note.line_defined with ⟨text, written⟩
      rcases inductionHypothesis with ⟨lines, others⟩
      exact ⟨text :: lines, by rw [List.mapM_cons, written, others]; rfl⟩

end EightBit
