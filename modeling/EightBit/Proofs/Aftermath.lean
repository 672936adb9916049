import EightBit.Proofs.Cycle

namespace EightBit

/-!
# What a failing cycle leaves behind

A cycle that fails is not undone.  What it has done by then is little: the opcode
is fetched, and a push whose operand was read has lowered the stack pointer, since
it does so before it looks at anything else.  No other operation has changed
anything when it fails, and the memory is written by the last access of a push
alone.

`Effect.Leaves` says of a computation which registers its failures leave.  A script
that lowers no stack pointer leaves the registers as they were, and a push is cut in
two where it does so.
-/

namespace Effect

variable {registers : Registers}

/-- Whatever a computation fails at, these are the registers that it leaves. -/
def Leaves (registers : Registers) (result : Except Failure α) : Prop :=
  ∀ failure, result = .error failure → failure.registers = registers

theorem leaves_ok (registers : Registers) (value : α) : Leaves registers (.ok value) := by
  intro failure impossible
  cases impossible

theorem Leaves.bind {first : Except Failure α} {rest : α → Except Failure β}
    (before : Leaves registers first)
    (later : ∀ value, first = .ok value → Leaves registers (rest value)) :
    Leaves registers (first >>= rest) := by
  intro failure failed
  cases answered : first with
  | error cause =>
      rw [answered] at failed
      cases failed
      exact before failure answered
  | ok value =>
      rw [answered] at failed
      exact later value answered failure failed

theorem leaves_loadAt (registers : Registers) (memory : Memory) (address : Int) :
    Leaves registers (loadAt registers memory address) := by
  intro failure failed
  unfold loadAt at failed
  split at failed <;> cases failed
  rfl

theorem leaves_operandAt (registers : Registers) (memory : Memory) (distance : Int) :
    Leaves registers (operandAt registers memory distance) := by
  refine (leaves_loadAt registers memory _).bind ?_
  intro byte _
  exact leaves_ok registers (Byte.toInt byte)

theorem leaves_storeAt (registers : Registers) (memory : Memory) (address value : Int) :
    Leaves registers (storeAt registers memory address value) := by
  intro failure failed
  unfold storeAt at failed
  split at failed <;> cases failed
  rfl

theorem leaves_readFrom (registers : Registers) (index : Int) :
    Leaves registers (readFrom registers index) := by
  intro failure failed
  unfold readFrom at failed
  split at failed <;> cases failed
  rfl

theorem leaves_writeTo (registers : Registers) (index value : Int) :
    Leaves registers (writeTo registers index value) := by
  intro failure failed
  unfold writeTo at failed
  split at failed <;> cases failed
  rfl

theorem leaves_writeResultTo (registers : Registers) (index : Int) (result : Alu.Result) :
    Leaves registers (writeResultTo registers index result) := by
  cases result with
  | mk value equal =>
      cases value with
      | none => cases equal <;> exact leaves_ok registers _
      | some value =>
          refine (leaves_writeTo registers index value).bind ?_
          intro written _
          cases equal <;> exact leaves_ok registers _

end Effect

open Effect

theorem Deed.leaves (deed : Deed) (registers : Registers) (memory : Memory) (width : Int) :
    Leaves registers (deed.effect registers memory width) := by
  cases deed with
  | goOn => exact leaves_ok registers _
  | halt => exact leaves_ok registers _
  | goTo target => exact leaves_ok registers _
  | write index value =>
      exact (leaves_writeTo registers index value).bind fun _ _ => leaves_ok registers _
  | writeResult index result =>
      exact (leaves_writeResultTo registers index result).bind fun _ _ => leaves_ok registers _
  | unstack index byte =>
      exact (leaves_writeTo registers index _).bind fun _ _ => leaves_ok registers _
  | store value =>
      exact (leaves_storeAt registers memory _ value).bind fun _ _ => leaves_ok registers _
  | emit value => exact leaves_ok registers _

namespace Script

/-- Nothing is changed before the last access. -/
def Steady : Script → Prop
  | act _ _ => True
  | operand _ rest => ∀ value, (rest value).Steady
  | read _ rest => ∀ value, (rest value).Steady
  | top rest => ∀ byte, (rest byte).Steady
  | test _ taken passed => taken.Steady ∧ passed.Steady
  | lower _ => False

/-- A script that changes nothing before its last access has changed no register when it
fails. -/
theorem Steady.leaves {script : Script} (steady : script.Steady) (registers : Registers)
    (memory : Memory) : Leaves registers (script.effect memory registers) := by
  induction script with
  | act width deed => exact deed.leaves registers memory width
  | operand distance rest inductionHypothesis =>
      refine (leaves_operandAt registers memory distance).bind ?_
      intro value _
      exact inductionHypothesis value (steady value)
  | read index rest inductionHypothesis =>
      refine (leaves_readFrom registers index).bind ?_
      intro value _
      exact inductionHypothesis value (steady value)
  | top rest inductionHypothesis =>
      refine (leaves_loadAt registers memory registers.stackPointer).bind ?_
      intro byte _
      exact inductionHypothesis byte (steady byte)
  | test condition taken passed takenHypothesis passedHypothesis =>
      rw [Script.effect]
      split
      · exact takenHypothesis steady.1
      · exact passedHypothesis steady.2
  | lower rest _ => exact steady.elim

end Script

namespace Operation

theorem steady_script {operation : Operation} (notPsh : operation ≠ .psh) :
    operation.script.Steady := by
  cases operation with
  | psh => exact absurd rfl notPsh
  | alu op =>
      rw [script]
      split <;> simp [Script.Steady]
  | _ => simp [script, Script.Steady]

variable (registers : Registers) (memory : Memory)

/-- An operation that is no push has changed no register when it fails. -/
theorem leaves_effect {operation : Operation} (notPsh : operation ≠ .psh) :
    Leaves registers (operation.effect registers memory) := by
  rw [effect_eq_script]
  exact (steady_script notPsh).leaves registers memory

/-- Once its operand is read, a push has lowered the stack pointer before it can
fail. -/
theorem leaves_psh_of_operand {byte : UInt8}
    (found : memory.byteAt? (registers.programCounter + 1) = some byte) :
    Leaves registers.lowered (psh.effect registers memory) := by
  have operand := (operandAt_eq_ok_iff registers memory 1 _).mpr ⟨byte, found, rfl⟩
  let rest : Script := .read (Byte.toInt byte) fun value => .act 2 (.store value)
  have steady : rest.Steady := fun _ => trivial
  unfold effect
  rw [operand]
  exact steady.leaves registers.lowered memory

theorem leaves_psh_of_missing
    (missing : memory.byteAt? (registers.programCounter + 1) = none) :
    Leaves registers (psh.effect registers memory) := by
  refine (leaves_operandAt registers memory 1).bind ?_
  intro value operand
  rcases (operandAt_eq_ok_iff registers memory 1 value).mp operand with ⟨byte, found, _⟩
  rw [missing] at found
  cases found

/-- The registers that an operation leaves when it fails. -/
theorem leaves (operation : Operation) :
    Leaves
      (if operation = .psh ∧ (memory.byteAt? (registers.programCounter + 1)).isSome = true
        then registers.lowered else registers)
      (operation.effect registers memory) := by
  by_cases push : operation = .psh
  · subst push
    cases found : memory.byteAt? (registers.programCounter + 1) with
    | some byte =>
        rw [if_pos ⟨rfl, rfl⟩]
        exact leaves_psh_of_operand registers memory found
    | none =>
        rw [if_neg (by simp)]
        exact leaves_psh_of_missing registers memory found
  · rw [if_neg (fun lowers => push lowers.1)]
    exact leaves_effect registers memory push

end Operation

namespace Machine

variable {wiring : Wiring} {machine after : Machine} {fault : Fault}

/-- The registers once the next opcode is fetched.  If there is none to fetch they
are as before. -/
def fetched (machine : Machine) : Registers :=
  { machine.registers with
    instructionRegister :=
      ((machine.memory.byteAt? machine.registers.programCounter).map Byte.toInt).getD
        machine.registers.instructionRegister }

/-- The next instruction is a push whose operand is there to be read. -/
def PushesOperand (wiring : Wiring) (machine : Machine) : Prop :=
  machine.executes wiring = some .psh ∧
    (machine.memory.byteAt? (machine.registers.programCounter + 1)).isSome = true

instance (wiring : Wiring) (machine : Machine) : Decidable (machine.PushesOperand wiring) :=
  inferInstanceAs (Decidable (_ ∧ _))

@[simp] theorem fetched_cell (machine : Machine) (slot : Fin 8) :
    machine.fetched.cell slot = machine.registers.cell slot :=
  rfl

@[simp] theorem fetched_stackPointer (machine : Machine) :
    machine.fetched.stackPointer = machine.registers.stackPointer :=
  rfl

theorem fetched_of_byteAt? {opcode : UInt8}
    (found : machine.memory.byteAt? machine.registers.programCounter = some opcode) :
    machine.fetched = { machine.registers with instructionRegister := Byte.toInt opcode } := by
  rw [fetched, found]
  rfl

theorem fetched_of_missing
    (missing : machine.memory.byteAt? machine.registers.programCounter = none) :
    machine.fetched = machine.registers := by
  rw [fetched, missing]
  rfl

theorem executes_of_find? (running : machine.halted = false) {opcode : UInt8}
    {instruction : Instruction}
    (found : machine.memory.byteAt? machine.registers.programCounter = some opcode)
    (bound : wiring.table.find? opcode = some instruction) :
    machine.executes wiring = some instruction.operation := by
  simp [executes, running, found, bound]

theorem not_pushesOperand_of_executes {operation : Option Operation}
    (executed : machine.executes wiring = operation) (notPsh : operation ≠ some .psh) :
    ¬ machine.PushesOperand wiring := by
  intro pushes
  exact notPsh (executed.symm.trans pushes.1)

/-- The registers of a plan that was refused. -/
theorem registers_of_failure (running : machine.halted = false) {failure : Failure}
    (planned : machine.plan wiring = .error failure) :
    failure.registers =
      if machine.PushesOperand wiring then machine.fetched.lowered else machine.fetched := by
  rcases InstructionTable.plan_eq_error planned with
    ⟨missing, _, registers⟩ |
    ⟨opcode, found, ⟨instruction, bound, failed⟩ | ⟨unbound, _, _, registers⟩⟩
  · have nothing : machine.executes wiring = none := by simp [executes, missing]
    rw [if_neg (not_pushesOperand_of_executes nothing (by simp)), fetched_of_missing missing]
    exact registers
  · have executed := executes_of_find? running found bound
    have left := Operation.leaves _ machine.memory instruction.operation failure failed
    rw [fetched_of_byteAt? found]
    simp only [PushesOperand, executed, Option.some.injEq]
    exact left
  · have nothing : machine.executes wiring = none := by simp [executes, found, unbound]
    rw [if_neg (not_pushesOperand_of_executes nothing (by simp)), fetched_of_byteAt? found]
    exact registers

/-- The device refuses only what a `prn` gives it, and by then nothing but the
fetch has been done. -/
theorem left_of_refused (running : machine.halted = false) {plan : Plan} {value : Int}
    (planned : machine.plan wiring = .ok plan) (emitted : plan.effect.emission = some value) :
    plan.effect.registers = machine.fetched ∧ plan.effect.memory = machine.memory ∧
      ¬ machine.PushesOperand wiring := by
  rcases InstructionTable.plan_eq_ok planned with
    ⟨opcode, found, ⟨instruction, bound, executed, _⟩ | ⟨_, _, effect_eq, _⟩⟩
  · rcases Operation.effect_of_emission executed emitted with ⟨printing, registers, memory⟩
    refine ⟨registers.trans (fetched_of_byteAt? found).symm, memory, ?_⟩
    apply not_pushesOperand_of_executes (executes_of_find? running found bound)
    simp [printing]
  · rw [effect_eq] at emitted
    cases emitted

/-- The registers and the memory after a cycle that has failed. -/
theorem left_of_cycle_eq_error (failed : cycle wiring machine = .error fault after) :
    after.registers =
        (if machine.PushesOperand wiring then machine.fetched.lowered else machine.fetched) ∧
      after.memory = machine.memory := by
  have running := running_of_cycle_eq_error failed
  rcases cycle_eq_error failed with
    ⟨failure, journal, planned, _, rfl⟩ | ⟨plan, journal, planned, refused, _, rfl⟩
  · exact ⟨registers_of_failure running planned, rfl⟩
  · rcases Option.isSome_iff_exists.mp (Bool.and_eq_true_iff.mp refused).1 with ⟨value, emitted⟩
    rcases left_of_refused running planned emitted with ⟨registers, memory, notPush⟩
    rw [if_neg notPush]
    exact ⟨registers, memory⟩

theorem trace_of_cycle_eq_error (failed : cycle wiring machine = .error fault after) :
    after.trace = machine.trace := by
  rcases cycle_eq_error failed with ⟨_, _, _, _, rfl⟩ | ⟨plan, _, _, _, _, rfl⟩
  · rfl
  · simp

/-- A trap halts the machine before anything was given to the device. -/
theorem halted_of_trap (failed : cycle wiring machine = .error fault after)
    (trap : fault ≠ .output) :
    after.status = .halted ∧ after.emissions = machine.emissions := by
  rcases cycle_eq_error failed with ⟨failure, _, _, rfl, rfl⟩ | ⟨_, _, _, _, output, _⟩
  · exact ⟨if_pos failure.isTrap, rfl⟩
  · exact absurd output trap

/-- A failure of the device does not halt the machine. -/
theorem running_of_refusal (failed : cycle wiring machine = .error .output after) :
    after.status = .running := by
  have running := running_of_cycle_eq_error failed
  rcases cycle_eq_error failed with ⟨failure, _, _, output, _⟩ | ⟨plan, _, _, _, _, rfl⟩
  · have isTrap := failure.isTrap
    rw [← output] at isTrap
    cases isTrap
  · simp [Fault.isTrap, status_of_running running]

/-- A machine after a cycle that has failed, compared with the machine before it. -/
structure Aftermath (wiring : Wiring) (machine : Machine) (fault : Fault) (after : Machine) :
    Prop where
  memory : after.memory = machine.memory
  programCounter : after.registers.programCounter = machine.registers.programCounter
  equalFlag : after.registers.equalFlag = machine.registers.equalFlag
  general : ∀ slot, slot ≠ Registers.stackSlot →
    after.registers.cell slot = machine.registers.cell slot
  stackPointer : after.registers.stackPointer =
    if machine.PushesOperand wiring then Byte.low (machine.registers.stackPointer - 1)
    else machine.registers.stackPointer
  instructionRegister : after.registers.instructionRegister =
    match machine.memory.byteAt? machine.registers.programCounter with
    | some opcode => Byte.toInt opcode
    | none => machine.registers.instructionRegister
  trace : after.trace = machine.trace
  cycles : after.cycles = machine.cycles + 1
  trapped : fault ≠ .output → after.status = .halted ∧ after.emissions = machine.emissions
  refused : fault = .output → after.status = .running

/-- A cycle that fails leaves the memory, the program counter, the flag and the
registers up to the stack pointer as they were, and what else it leaves is decided
by how far it has come. -/
theorem cycle_aftermath (failed : cycle wiring machine = .error fault after) :
    Aftermath wiring machine fault after := by
  rcases left_of_cycle_eq_error failed with ⟨registers, memory⟩
  constructor
  · exact memory
  · rw [registers]
    split <;> rfl
  · rw [registers]
    split <;> rfl
  · intro slot other
    rw [registers]
    split
    · simp [other]
    · rfl
  · rw [registers]
    split
    · simp
    · rfl
  · have held : after.registers.instructionRegister = machine.fetched.instructionRegister := by
      rw [registers]
      split <;> rfl
    rw [held, fetched]
    cases machine.memory.byteAt? machine.registers.programCounter <;> rfl
  · exact trace_of_cycle_eq_error failed
  · exact cycles_of_cycle_eq_error failed
  · exact halted_of_trap failed
  · rintro rfl
    exact running_of_refusal failed

/-- A machine that pushes a register there is none of, with the stack pointer at
zero. -/
def pushesNothing : Machine where
  memory := ⟨#[0x0A, 9], by decide⟩
  registers := Registers.powerOn.setCell Registers.stackSlot 0

/-- The push fails, and the stack pointer has gone around all the same. -/
theorem cycle_aftermath_pushesNothing :
    ∃ after, cycle {} pushesNothing = .error (.register ⟨9⟩) after ∧
      Aftermath {} pushesNothing (.register ⟨9⟩) after ∧
      after.registers.stackPointer = 255 := by
  have failed : cycle {} pushesNothing = .error (.register ⟨9⟩) (pushesNothing.next {}) :=
    (fault?_eq_some_iff {} pushesNothing _).mp (by decide +kernel)
  have aftermath := cycle_aftermath failed
  refine ⟨_, failed, aftermath, ?_⟩
  rw [aftermath.stackPointer]
  decide +kernel

end Machine
end EightBit
