import EightBit.Proofs.Accesses

namespace EightBit

open Effect

namespace Machine

/-!
# Carrying out an effect

The main statement is `execute_eq`: executing an operation on a machine is
carrying out its effect there.  Both are readings of the script of the operation,
so this is proved for each access, and for all scripts by induction.  Only the
notes in the journal, which no effect tells, are left open.
-/

/-- The machine after its device was given the value of an effect, if there is
one. -/
def delivered (machine : Machine) (device : Nat → Reply) : Option Int → Machine
  | some value => machine.emitted device value
  | none => machine

def refuses (machine : Machine) (device : Nat → Reply) (emission : Option Int) : Bool :=
  emission.isSome && (device machine.emissions.size).fails

/-- The machine as an effect leaves it.  What the journal then holds is told
apart. -/
def left (machine : Machine) (device : Nat → Reply) (effect : Effect) (journal : Journal) :
    Machine :=
  { machine.delivered device effect.emission with
    registers := effect.registers
    memory := effect.memory
    journal }

/-- The machine as a failing operation leaves it. -/
def leftFailed (machine : Machine) (failure : Failure) (journal : Journal) : Machine :=
  { machine with registers := failure.registers, journal }

/-- How executing an operation ends that has the given effect. -/
def answer (machine : Machine) (device : Nat → Reply) (journal : Journal) :
    Except Failure Effect → EStateM.Result Fault Machine Outcome
  | .error failure => .error failure.fault (machine.leftFailed failure journal)
  | .ok effect =>
    if machine.refuses device effect.emission then
      .error .output (machine.left device effect journal)
    else .ok effect.outcome (machine.left device effect journal)

/-- Notes, and changes of the registers that keep the program counter, have no
say in how an effect ends. -/
theorem answer_eq (machine : Machine) (device : Nat → Reply) (registers : Registers)
    (journal : Journal)
    (same : registers.programCounter = machine.registers.programCounter) :
    answer { machine with registers, journal } device = machine.answer device := by
  funext noted effect
  cases effect with
  | error failure => rfl
  | ok effect =>
      cases emission : effect.emission with
      | none => simp only [answer, refuses, left, delivered, emission]
      | some value => simp only [answer, refuses, left, delivered, emitted, emission, same]

/-- An access reads what is to be read from registers and memory, and does
nothing to the machine but a note in its journal. -/
def Reads (machine : Machine) (access : Exec α) (answer : Except Failure α) : Prop :=
  ∃ journal, access machine =
    match answer with
    | .ok value => .ok value { machine with journal }
    | .error failure => .error failure.fault (machine.leftFailed failure journal)

/-- An execution has a given effect. -/
def Executes (machine : Machine) (device : Nat → Reply) (execution : Exec Outcome)
    (effect : Except Failure Effect) : Prop :=
  ∃ journal, execution machine = machine.answer device journal effect

theorem reads_loadByte (machine : Machine) (address : Int) :
    machine.Reads (loadByte address) (loadAt machine.registers machine.memory address) := by
  simp only [Reads, loadByte_eq, loadAt]
  cases machine.memory.load address with
  | ok byte => exact ⟨_, rfl⟩
  | error error => exact ⟨machine.journal, rfl⟩

theorem reads_operand (machine : Machine) (distance : Int) :
    machine.Reads (operand distance) (operandAt machine.registers machine.memory distance) := by
  rcases machine.reads_loadByte (machine.registers.programCounter + distance) with
    ⟨journal, load_eq⟩
  refine ⟨journal, ?_⟩
  rw [operand_eq, load_eq, operandAt]
  cases loadAt machine.registers machine.memory (machine.registers.programCounter + distance) <;>
    rfl

theorem reads_readRegister (machine : Machine) (index : Int) :
    machine.Reads (readRegister index) (readFrom machine.registers index) := by
  simp only [Reads, readRegister_eq, readFrom]
  cases machine.registers.get index with
  | ok value => exact ⟨machine.journal, rfl⟩
  | error error => exact ⟨machine.journal, rfl⟩

/-- What is read first decides how an execution goes on.  The note of the
reading is one of those that the whole execution makes. -/
theorem Reads.bind {machine : Machine} {device : Nat → Reply} {access : Exec α}
    {answer : Except Failure α} (reads : machine.Reads access answer) {rest : α → Exec Outcome}
    {effect : α → Except Failure Effect}
    (follows : ∀ value journal,
      Executes { machine with journal } device (rest value) (effect value)) :
    machine.Executes device (access >>= rest) (answer >>= effect) := by
  rcases reads with ⟨noted, access_eq⟩
  cases answer with
  | error failure =>
      refine ⟨noted, ?_⟩
      simp only [Bind.bind, EStateM.bind, access_eq]
      rfl
  | ok value =>
      rcases follows value noted with ⟨journal, rest_eq⟩
      refine ⟨journal, ?_⟩
      simp only [Bind.bind, EStateM.bind, access_eq, rest_eq]
      exact congrFun (congrFun (machine.answer_eq device machine.registers noted rfl) _) _

/-- Looking at the machine does nothing to it. -/
theorem executes_get {machine : Machine} {device : Nat → Reply} {rest : Machine → Exec Outcome}
    {effect : Except Failure Effect} (follows : machine.Executes device (rest machine) effect) :
    machine.Executes device (get >>= rest) effect :=
  follows

theorem executes_advance (machine : Machine) (device : Nat → Reply) (width : Int) :
    machine.Executes device (advance width) (.ok (goOn machine.registers machine.memory width)) :=
  ⟨machine.journal, rfl⟩

/-- A write to a register is carried out before the machine goes on. -/
theorem executes_write (machine : Machine) (device : Nat → Reply) (index value width : Int) :
    machine.Executes device (do writeRegister index value; advance width)
      (do return goOn (← writeTo machine.registers index value) machine.memory width) := by
  simp only [Executes, Bind.bind, EStateM.bind, Except.bind, writeRegister_eq, writeTo]
  cases machine.registers.set index value with
  | ok registers => exact ⟨machine.journal, rfl⟩
  | error error => exact ⟨machine.journal, rfl⟩

theorem executes_writeResult (machine : Machine) (device : Nat → Reply) (index width : Int)
    (result : Alu.Result) :
    machine.Executes device (do writeResult index result; advance width)
      (do return goOn (← writeResultTo machine.registers index result) machine.memory width) := by
  cases result with
  | mk value equal =>
      cases value with
      | none => cases equal <;> exact ⟨machine.journal, rfl⟩
      | some value =>
          simp only [Executes, Bind.bind, EStateM.bind, Except.bind, writeRegister_eq,
            writeResult, writeResultTo, writeTo]
          cases machine.registers.set index value with
          | error error => exact ⟨machine.journal, rfl⟩
          | ok registers => cases equal <;> exact ⟨machine.journal, rfl⟩

theorem executes_store (machine : Machine) (device : Nat → Reply) (address value width : Int) :
    machine.Executes device (do storeByte address value; advance width)
      (do
        let stored ← storeAt machine.registers machine.memory address value
        return goOn machine.registers stored width) := by
  simp only [Executes, Bind.bind, EStateM.bind, Except.bind, storeByte_eq, storeAt]
  cases machine.memory.store address value with
  | ok memory => exact ⟨_, rfl⟩
  | error error => exact ⟨machine.journal, rfl⟩

/-- The registers may be changed before anything that keeps to them. -/
theorem executes_modifyRegisters {machine : Machine} {device : Nat → Reply}
    {change : Registers → Registers} {rest : Exec Outcome} {effect : Except Failure Effect}
    (same : (change machine.registers).programCounter = machine.registers.programCounter)
    (follows : Executes { machine with registers := change machine.registers } device rest effect) :
    machine.Executes device (do modifyRegisters change; rest) effect := by
  rcases follows with ⟨journal, rest_eq⟩
  refine ⟨journal, ?_⟩
  rw [machine.answer_eq device (change machine.registers) machine.journal same] at rest_eq
  exact rest_eq

/-- The last access of an operation has the effect that it is told to have. -/
theorem executes_deed (machine : Machine) (device : Nat → Reply) (width : Int) (deed : Deed) :
    machine.Executes device (deed.execute device width)
      (deed.effect machine.registers machine.memory width) := by
  cases deed with
  | goOn => exact machine.executes_advance device width
  | halt => exact ⟨machine.journal, rfl⟩
  | goTo target => exact ⟨machine.journal, rfl⟩
  | write index value => exact machine.executes_write device index value width
  | writeResult index result => exact machine.executes_writeResult device index width result
  | unstack index byte =>
      simp only [Deed.execute, Deed.effect, Executes, Bind.bind, EStateM.bind, Except.bind,
        writeRegister_eq, writeTo]
      cases machine.registers.set index (Byte.toInt byte) with
      | ok registers => exact ⟨machine.journal, rfl⟩
      | error error => exact ⟨machine.journal, rfl⟩
  | store value =>
      exact executes_get
        (machine.executes_store device machine.registers.stackPointer value width)
  | emit value =>
      simp only [Deed.execute, Deed.effect, Executes, Bind.bind, EStateM.bind, emit_eq, answer,
        refuses, Option.isSome, Bool.true_and]
      refine ⟨machine.journal, ?_⟩
      cases (device machine.emissions.size).fails <;> rfl

/-- The two readings of a script agree. -/
theorem executes_script (device : Nat → Reply) (script : Script) (machine : Machine) :
    machine.Executes device (script.execute device)
      (script.effect machine.memory machine.registers) := by
  induction script generalizing machine with
  | act width deed => exact machine.executes_deed device width deed
  | operand distance rest inductionHypothesis =>
      refine (machine.reads_operand distance).bind ?_
      intro value journal
      exact inductionHypothesis value { machine with journal }
  | read index rest inductionHypothesis =>
      refine (machine.reads_readRegister index).bind ?_
      intro value journal
      exact inductionHypothesis value { machine with journal }
  | top rest inductionHypothesis =>
      refine executes_get ((machine.reads_loadByte machine.registers.stackPointer).bind ?_)
      intro byte journal
      exact inductionHypothesis byte { machine with journal }
  | test condition taken passed takenHypothesis passedHypothesis =>
      refine executes_get ?_
      rw [Script.effect]
      split
      · exact takenHypothesis machine
      · exact passedHypothesis machine
  | lower rest inductionHypothesis =>
      exact executes_modifyRegisters rfl
        (inductionHypothesis { machine with registers := machine.registers.lowered })

/-- Executing an operation is carrying out its effect on the registers and the
memory of the machine. -/
theorem execute_eq (machine : Machine) (device : Nat → Reply) (operation : Operation) :
    machine.Executes device (execute device operation)
      (operation.effect machine.registers machine.memory) := by
  rw [execute_eq_script, operation.effect_eq_script]
  exact executes_script device operation.script machine

end Machine
end EightBit
