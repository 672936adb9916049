import EightBit.Proofs.Aftermath
import EightBit.Proofs.Statements
import EightBit.Proofs.Writing

namespace EightBit

/-!
# Straight-line programs

A machine that stands at a program without jumps does what the statements mean, as long as
the stack stays away from the statements that are still to come.  `Machine.Loaded` is what
it needs for that.  One cycle executes the first statement and leaves a machine that is
loaded with the others (`Machine.Loaded.next`), and the rest is induction on the statements
that have been executed.
-/

namespace StraightLine

open InstructionSet

/-- Bytes that stand in memory from an address on. -/
def Placed (memory : Int → Option UInt8) (start : Int) (bytes : List UInt8) : Prop :=
  ∀ (index : Nat) (byte : UInt8), bytes[index]? = some byte → memory (start + index) = some byte

namespace Placed

variable {memory other : Int → Option UInt8} {start : Int} {bytes first second : List UInt8}

theorem left (placed : Placed memory start (first ++ second)) : Placed memory start first := by
  intro index byte found
  have inside := (List.getElem?_eq_some_iff.mp found).1
  apply placed
  rw [List.getElem?_append_left inside, found]

theorem right (placed : Placed memory start (first ++ second)) :
    Placed memory (start + first.length) second := by
  intro index byte found
  rw [Int.add_assoc, ← Int.natCast_add]
  apply placed
  rw [List.getElem?_append_right (Nat.le_add_right _ _), Nat.add_sub_cancel_left, found]

theorem head {byte : UInt8} (placed : Placed memory start (byte :: bytes)) :
    memory start = some byte := by
  rw [← Int.add_zero start]
  exact placed 0 byte rfl

/-- Bytes stay where nothing is written. -/
theorem of_same (placed : Placed memory start bytes)
    (same : ∀ address, start ≤ address → address < start + bytes.length →
      other address = memory address) : Placed other start bytes := by
  intro index byte found
  have inside := (List.getElem?_eq_some_iff.mp found).1
  rw [same (start + index) (by omega) (by omega)]
  exact placed index byte found

theorem iff_getElem (memory : Int → Option UInt8) (start : Int) (bytes : List UInt8) :
    Placed memory start bytes ↔
      ∀ index (inside : index < bytes.length), memory (start + index) = some bytes[index] := by
  constructor
  · intro placed index inside
    exact placed index _ (List.getElem?_eq_getElem inside)
  · intro each index byte found
    rcases List.getElem?_eq_some_iff.mp found with ⟨inside, rfl⟩
    exact each index inside

instance (memory : Int → Option UInt8) (start : Int) (bytes : List UInt8) :
    Decidable (Placed memory start bytes) :=
  decidable_of_iff' _ (iff_getElem memory start bytes)

end Placed

/-!
## One step
-/

/-- What statements see of a state. -/
def storeOf (state : State) : Store :=
  ⟨state.general, state.equal, state.memory, state.output⟩

/-- A state has gone on behind a statement, and has become what the statement means. -/
structure Behind (statement : Statement) (before after : State) : Prop where
  counter : after.programCounter = before.programCounter + statement.encode.length
  halted : after.halted = before.halted
  store : storeOf after = (storeOf before).interpret statement

section Execution

variable {state : State} {slot target source : Fin 8} {byte : UInt8} {rest : List UInt8}

theorem named_of_operand {distance : Int}
    (found : state.operand distance = some (registerByte slot)) :
    state.named distance = some slot := by
  rw [State.named, found, Option.bind_some, dif_pos (registerByte_lt slot)]
  exact congrArg some (Fin.ext (toNat_registerByte slot))

theorem operand_second
    (placed : Placed state.memory (state.programCounter + 1) (byte :: rest)) {second : UInt8}
    (found : rest[0]? = some second) : state.operand 2 = some second := by
  have there := placed 1 second found
  rw [Int.add_assoc] at there
  exact there

theorem named_first
    (placed : Placed state.memory (state.programCounter + 1) (registerByte slot :: rest)) :
    state.named 1 = some slot := by
  have there := placed 0 (registerByte slot) rfl
  rw [Int.add_assoc] at there
  exact named_of_operand there

theorem named_second
    (placed : Placed state.memory (state.programCounter + 1) (byte :: registerByte slot :: rest)) :
    state.named 2 = some slot :=
  named_of_operand (operand_second placed rfl)

theorem unary_of_placed
    (placed : Placed state.memory (state.programCounter + 1) [registerByte target])
    (compute : UInt8 → UInt8) :
    state.unary compute = some ((state.write target (compute (state.general target))).goOn 2) := by
  rw [State.unary, named_first placed]
  rfl

theorem binary_of_placed
    (placed : Placed state.memory (state.programCounter + 1)
      [registerByte target, registerByte source]) (compute : UInt8 → UInt8 → UInt8) :
    state.binary compute = some ((state.write target
      (compute (state.general target) (state.general source))).goOn 3) := by
  rw [State.binary, named_first placed, named_second placed]
  rfl

theorem execute_div
    (placed : Placed state.memory (state.programCounter + 1)
      [registerByte target, registerByte source]) :
    ∃ after, state.execute .div = some after ∧ Behind (.div target source) state after := by
  refine ⟨_, binary_of_placed placed fun first second =>
    if second = 0 then first else first / second, rfl, rfl, ?_⟩
  rw [Store.interpret_div]
  rfl

def lowered (state : State) : State :=
  state.write State.stackPointer (state.general State.stackPointer - 1)

/-- A state that has pushed a register and not gone on yet. -/
def stacked (state : State) (source : Fin 8) : State :=
  { lowered state with
    memory := Function.update state.memory
      (Byte.toInt ((lowered state).general State.stackPointer))
      (some ((lowered state).general source)) }

theorem execute_psh
    (placed : Placed state.memory (state.programCounter + 1) [registerByte source])
    (storable : ∀ address, (storeOf state).pushed? (.psh source) = some address →
      ∃ byte, state.memory address = some byte) :
    ∃ after, state.execute .psh = some after ∧ Behind (.psh source) state after := by
  have top : (lowered state).general State.stackPointer =
      state.general State.stackPointer - 1 := by
    simp only [lowered, State.write, Function.update_self]
  rcases storable _ rfl with ⟨old, found⟩
  change state.memory (Byte.toInt (state.general State.stackPointer - 1)) = some old at found
  rw [← top] at found
  have stored : (lowered state).store (Byte.toInt ((lowered state).general State.stackPointer))
      ((lowered state).general source) = some (stacked state source) :=
    Option.map_eq_some_iff.mpr ⟨old, found, rfl⟩
  refine ⟨(stacked state source).goOn 2, ?_, rfl, rfl, rfl⟩
  simp only [State.execute, named_first placed, Option.bind_eq_bind, Option.bind_some]
  rw [← lowered, stored]
  rfl

theorem execute_pop
    (placed : Placed state.memory (state.programCounter + 1) [registerByte target])
    (loadable : ∀ address, (storeOf state).popped? (.pop target) = some address →
      ∃ byte, state.memory address = some byte) :
    ∃ after, state.execute .pop = some after ∧ Behind (.pop target) state after := by
  rcases loadable _ rfl with ⟨value, found⟩
  have loaded : state.memory (Byte.toInt (state.general State.stackPointer)) = some value := found
  have same : ((storeOf state).memory (Byte.toInt
      ((storeOf state).general State.stackPointer))).getD 0 = value :=
    congrArg (Option.getD · 0) loaded
  refine ⟨((state.write target value).write State.stackPointer
    ((state.write target value).general State.stackPointer + 1)).goOn 2, ?_, rfl, rfl, ?_⟩
  · simp only [State.execute, named_first placed, loaded]
    rfl
  · rw [Store.interpret, same]
    rfl

/-- Executing the instruction of a statement, with the operands behind the opcode. -/
theorem execute_statement (statement : Statement)
    (placed : Placed state.memory (state.programCounter + 1) statement.operands)
    (storable : ∀ address, (storeOf state).pushed? statement = some address →
      ∃ byte, state.memory address = some byte)
    (loadable : ∀ address, (storeOf state).popped? statement = some address →
      ∃ byte, state.memory address = some byte) :
    ∃ after, state.execute statement.code = some after ∧ Behind statement state after := by
  cases statement with
  | nop => exact ⟨_, rfl, rfl, rfl, rfl⟩
  | ldi target value =>
      have loaded := operand_second placed rfl
      refine ⟨(state.write target value).goOn 3, ?_, rfl, rfl, rfl⟩
      simp only [Statement.code, State.execute, named_first placed, loaded]
      rfl
  | lds target source =>
      exact ⟨_, binary_of_placed placed fun _ second => second, rfl, rfl, rfl⟩
  | add target source => exact ⟨_, binary_of_placed placed (· + ·), rfl, rfl, rfl⟩
  | sub target source => exact ⟨_, binary_of_placed placed (· - ·), rfl, rfl, rfl⟩
  | mul target source => exact ⟨_, binary_of_placed placed (· * ·), rfl, rfl, rfl⟩
  | div target source => exact execute_div placed
  | inc target => exact ⟨_, unary_of_placed placed (· + 1), rfl, rfl, rfl⟩
  | dec target => exact ⟨_, unary_of_placed placed (· - 1), rfl, rfl, rfl⟩
  | cmp first second =>
      refine ⟨{ state.goOn 3 with equal := state.general first == state.general second }, ?_,
        rfl, rfl, rfl⟩
      simp only [Statement.code, State.execute, named_first placed, named_second placed]
      rfl
  | psh source => exact execute_psh placed storable
  | pop target => exact execute_pop placed loadable
  | prn source =>
      refine ⟨{ state.goOn 2 with
        output := state.output ++ [Byte.toInt (state.general source)] }, ?_, rfl, rfl, rfl⟩
      simp only [Statement.code, State.execute, named_first placed]
      rfl

/-- A state that has read an opcode and not executed it yet. -/
def fetched (state : State) (opcode : UInt8) : State :=
  { state with
    instructionRegister := Byte.toInt opcode
    cycles := state.cycles + 1 }

/-- A state that stands at a statement steps behind it. -/
theorem step_statement (statement : Statement)
    (placed : Placed state.memory state.programCounter statement.encode)
    (storable : ∀ address, (storeOf state).pushed? statement = some address →
      ∃ byte, state.memory address = some byte)
    (loadable : ∀ address, (storeOf state).popped? statement = some address →
      ∃ byte, state.memory address = some byte) :
    ∃ after, state.step = some after ∧ Behind statement state after := by
  have parts : Placed state.memory state.programCounter
      ([statement.opcode.byte] ++ statement.operands) := placed
  have opcode : state.memory state.programCounter = some statement.opcode.byte := placed.head
  have operands : Placed (fetched state statement.opcode.byte).memory
      ((fetched state statement.opcode.byte).programCounter + 1) statement.operands :=
    parts.right
  rcases execute_statement statement operands storable loadable with ⟨after, executed, behind⟩
  refine ⟨after, ?_, behind.counter, behind.halted, behind.store⟩
  simp only [State.step, opcode, Option.bind_eq_bind, Option.bind_some, statement.decode_byte]
  exact executed

end Execution
end StraightLine

namespace Machine

open InstructionSet StraightLine Statement

/-- What statements see of a machine. -/
def store (machine : Machine) : Store where
  general slot := Byte.ofInt (machine.registers.cell slot)
  equal := machine.registers.equalFlag
  memory := machine.memory.byteAt?
  output := machine.values

/-- A machine has the registers, the flag, the cells and the output of a store. -/
structure Holds (machine : Machine) (store : Store) : Prop where
  general : ∀ slot, machine.registers.cell slot = Byte.toInt (store.general slot)
  equal : machine.registers.equalFlag = store.equal
  memory : machine.memory.byteAt? = store.memory
  output : machine.values = store.output

/-- The stack when a machine comes to a statement of its program.  What is pushed and popped
is in memory, and nothing is pushed over the statements that are still to come. -/
structure Spares (machine : Machine) (program earlier : List Statement) (statement : Statement) :
    Prop where
  storable : ∀ address ∈ (machine.store.interpretAll earlier).pushed? statement,
    machine.memory.Contains address
  loadable : ∀ address ∈ (machine.store.interpretAll earlier).popped? statement,
    machine.memory.Contains address
  apart : ∀ address ∈ (machine.store.interpretAll earlier).pushed? statement,
    ¬ (machine.registers.programCounter + size (earlier ++ [statement]) ≤ address ∧
      address < machine.registers.programCounter + size program)

/-- A machine stands at the first statement of a program that is in its memory, and the
stack spares the program. -/
structure Loaded (machine : Machine) (program : List Statement) : Prop where
  running : machine.halted = false
  bounded : machine.registers.Bounded
  placed : Placed machine.memory.byteAt? machine.registers.programCounter (encodeAll program)
  spares : ∀ earlier statement later, program = earlier ++ statement :: later →
    machine.Spares program earlier statement

instance (machine : Machine) (program earlier : List Statement) (statement : Statement) :
    Decidable (machine.Spares program earlier statement) :=
  decidable_of_iff (_ ∧ _ ∧ _)
    ⟨fun ⟨storable, loadable, apart⟩ => ⟨storable, loadable, apart⟩,
      fun ⟨storable, loadable, apart⟩ => ⟨storable, loadable, apart⟩⟩

/-- A program is parted at its statements. -/
theorem forall_split_iff (program : List Statement)
    (property : List Statement → Statement → Prop) :
    (∀ earlier statement later, program = earlier ++ statement :: later →
      property earlier statement) ↔
    ∀ index (inside : index < program.length), property (program.take index) program[index] := by
  constructor
  · intro each index inside
    apply each _ _ (program.drop (index + 1))
    rw [← List.drop_eq_getElem_cons inside, List.take_append_drop]
  · rintro each earlier statement later rfl
    have inside : earlier.length < (earlier ++ statement :: later).length := by
      rw [List.length_append, List.length_cons]
      omega
    have here := each earlier.length inside
    rw [List.take_left, List.getElem_append_right (Nat.le_refl _)] at here
    simpa using here

instance (machine : Machine) (program : List Statement) : Decidable (machine.Loaded program) :=
  decidable_of_iff (_ ∧ _ ∧ _ ∧ ∀ index (inside : index < program.length),
      machine.Spares program (program.take index) program[index])
    ⟨fun ⟨running, bounded, placed, each⟩ =>
        ⟨running, bounded, placed, (forall_split_iff program (machine.Spares program)).mpr each⟩,
      fun ⟨running, bounded, placed, spares⟩ =>
        ⟨running, bounded, placed, (forall_split_iff program (machine.Spares program)).mp spares⟩⟩

theorem holds_store {machine : Machine} (bounded : machine.registers.Bounded) :
    machine.Holds machine.store := by
  refine ⟨?_, rfl, rfl, rfl⟩
  intro slot
  rw [store, Byte.toInt_ofInt, Byte.low_eq_self (bounded slot).1 (bounded slot).2]

section Cycle

variable {wiring : Wiring} {machine : Machine} {statement : Statement}
  {program earlier later : List Statement}

theorem Loaded.executes (standard : wiring.table = .standard)
    (loaded : machine.Loaded (statement :: later)) :
    machine.executes wiring = some statement.code.operation := by
  have opcode : machine.memory.byteAt? machine.registers.programCounter =
      some statement.opcode.byte := loaded.placed.head
  rcases statement.find?_byte with ⟨instruction, found, operation_eq⟩
  rw [← standard] at found
  rw [executes_of_find? loaded.running opcode found, operation_eq]

/-- The next cycle executes the first statement. -/
theorem Loaded.cycle (standard : wiring.table = .standard)
    (returns : ∀ index, (wiring.device index).fails = false)
    (loaded : machine.Loaded (statement :: later)) :
    Machine.cycle wiring machine = .ok true (machine.next wiring) ∧
      Behind statement machine.architecture (machine.next wiring).architecture := by
  have placed : Placed machine.memory.byteAt? machine.registers.programCounter
      (statement.encode ++ encodeAll later) := loaded.placed
  have spares := loaded.spares [] statement later rfl
  have defined : ∃ state, machine.architecture.step = some state ∧
      Behind statement machine.architecture state := by
    apply step_statement statement placed.left
    · intro address pushed
      exact Memory.byteAt?_of_contains (spares.storable address pushed)
    · intro address popped
      exact Memory.byteAt?_of_contains (spares.loadable address popped)
  rcases defined with ⟨state, step, behind⟩
  have known : machine.executes wiring ≠ none := by
    rw [loaded.executes standard]
    exact Option.some_ne_none _
  rcases cycle_of_step standard loaded.running loaded.bounded step (fun _ => known) (returns _) with
    ⟨alive, after, ok⟩
  have next_eq : machine.next wiring = after := by rw [Machine.next, ok]
  have same := (step_of_cycle standard loaded.running loaded.bounded ok).symm.trans step
  rw [Option.some.injEq] at same
  rcases cycle_eq_ok loaded.running ok with ⟨_, _, _, _, _, alive_eq⟩
  have halted : after.halted = false := by
    have kept := behind.halted
    rw [← same] at kept
    exact kept.trans loaded.running
  rw [next_eq, same, ok, alive_eq, halted]
  exact ⟨rfl, behind⟩

/-- A push of the first statement leaves the others where they are. -/
theorem Loaded.placed_behind (loaded : machine.Loaded (statement :: later)) :
    Placed (machine.store.interpret statement).memory
      (machine.registers.programCounter + statement.width) (encodeAll later) := by
  have parts : Placed machine.memory.byteAt? machine.registers.programCounter
      (statement.encode ++ encodeAll later) := loaded.placed
  have rest := parts.right
  rw [statement.length_encode] at rest
  apply rest.of_same
  intro address lower upper
  rw [length_encodeAll] at upper
  have elsewhere : machine.store.pushed? statement ≠ some address := by
    intro pushed
    apply (loaded.spares [] statement later rfl).apart address pushed
    simp only [List.nil_append, size_singleton, size]
    omega
  exact Store.memory_interpret elsewhere

/-- The stack that spares a program spares what is behind its first statement. -/
theorem Spares.behind {other : Machine} {target : Statement}
    (counter : other.registers.programCounter =
      machine.registers.programCounter + statement.width)
    (meaning : other.store = machine.store.interpret statement)
    (length : other.memory.length = machine.memory.length)
    (spares : machine.Spares (statement :: later) (statement :: earlier) target) :
    other.Spares later earlier target := by
  have inside_iff : ∀ address, other.memory.Contains address ↔
      machine.memory.Contains address := by
    intro address
    rw [Memory.Contains, Memory.Contains, length]
  rcases spares with ⟨storable, loadable, apart⟩
  constructor
  · intro address pushed
    rw [inside_iff]
    rw [meaning] at pushed
    exact storable address pushed
  · intro address popped
    rw [inside_iff]
    rw [meaning] at popped
    exact loadable address popped
  · intro address pushed
    rw [meaning] at pushed
    have away := apart address pushed
    rw [List.cons_append, size, size] at away
    rw [counter]
    omega

/-- Behind its first statement a machine is loaded with the others. -/
theorem Loaded.next (standard : wiring.table = .standard)
    (returns : ∀ index, (wiring.device index).fails = false)
    (loaded : machine.Loaded (statement :: later)) :
    (machine.next wiring).registers.programCounter =
        machine.registers.programCounter + statement.width ∧
      (machine.next wiring).store = machine.store.interpret statement ∧
      (machine.next wiring).Loaded later := by
  rcases loaded.cycle standard returns with ⟨ok, behind⟩
  have counter : (machine.next wiring).registers.programCounter =
      machine.registers.programCounter + statement.width := by
    rw [← statement.length_encode]
    exact behind.counter
  have meaning : (machine.next wiring).store = machine.store.interpret statement := behind.store
  refine ⟨counter, meaning, ?_⟩
  constructor
  · exact behind.halted.trans loaded.running
  · exact bounded_of_cycle_eq_ok loaded.bounded ok
  · have rest := loaded.placed_behind
    rw [← meaning, ← counter] at rest
    exact rest
  · intro earlier target last split
    exact (loaded.spares (statement :: earlier) target last (congrArg _ split)).behind
      counter meaning (length_next wiring machine)

/-- After the cycles of some statements a machine is loaded with the others. -/
theorem Loaded.after (standard : wiring.table = .standard)
    (returns : ∀ index, (wiring.device index).fails = false)
    (loaded : machine.Loaded (earlier ++ later)) :
    (machine.after wiring earlier.length).registers.programCounter =
        machine.registers.programCounter + size earlier ∧
      (machine.after wiring earlier.length).store = machine.store.interpretAll earlier ∧
      (machine.after wiring earlier.length).Loaded later := by
  induction earlier generalizing machine with
  | nil => exact ⟨(Int.add_zero _).symm, rfl, loaded⟩
  | cons statement earlier inductionHypothesis =>
      rcases loaded.next standard returns with ⟨counter, meaning, behind⟩
      have reached := inductionHypothesis behind
      rw [counter, meaning] at reached
      rw [List.length_cons, after_next, size, Int.natCast_add, ← Int.add_assoc]
      exact reached

/-- No cycle begins at an operand byte. -/
theorem Loaded.counter_ne_operand (standard : wiring.table = .standard)
    (returns : ∀ index, (wiring.device index).fails = false) (loaded : machine.Loaded program)
    (split : program = earlier ++ statement :: later) {time : Nat} (bound : time ≤ program.length)
    {distance : Nat} (positive : 0 < distance) (inside : distance < statement.width) :
    (machine.after wiring time).registers.programCounter ≠
      machine.registers.programCounter + size earlier + distance := by
  have parted : machine.Loaded (program.take time ++ program.drop time) := by
    rw [List.take_append_drop]
    exact loaded
  have counter := (parted.after standard returns).1
  rw [List.length_take_of_le bound] at counter
  rw [counter]
  rcases Nat.lt_or_ge earlier.length time with beyond | before
  · have longer : earlier ++ [statement] <+: program.take time := by
      apply List.prefix_of_prefix_length_le _ (List.take_prefix time program)
      · rw [List.length_take_of_le bound, List.length_append]
        exact beyond
      · exact ⟨later, by rw [split, List.append_assoc, List.singleton_append]⟩
    have more := size_le_of_prefix longer
    rw [size_append, size] at more
    omega
  · have shorter : program.take time <+: earlier := by
      apply List.prefix_of_prefix_length_le (List.take_prefix time program)
      · exact ⟨statement :: later, split.symm⟩
      · rw [List.length_take_of_le bound]
        exact before
    have less := size_le_of_prefix shorter
    omega

end Cycle

/-- Straight-line programs execute as written.  Cycle by cycle the machine executes the next
statement, at the address behind those before, and has what they mean without any bytes;
no cycle begins at an operand byte.  The statements are all that can be written. -/
theorem straightLine_executes {wiring : Wiring} {machine : Machine} {program : List Statement}
    (standard : wiring.table = .standard) (returns : ∀ index, (wiring.device index).fails = false)
    (loaded : machine.Loaded program) :
    (∀ earlier later, program = earlier ++ later →
      (machine.after wiring earlier.length).registers.programCounter =
          machine.registers.programCounter + size earlier ∧
        (machine.after wiring earlier.length).Holds (machine.store.interpretAll earlier)) ∧
    (∀ earlier statement later, program = earlier ++ statement :: later →
      Machine.cycle wiring (machine.after wiring earlier.length) =
          .ok true (machine.after wiring (earlier.length + 1)) ∧
        (machine.after wiring earlier.length).executes wiring = some statement.code.operation ∧
        ∀ time ≤ program.length, ∀ distance : Nat, 0 < distance → distance < statement.width →
          (machine.after wiring time).registers.programCounter ≠
            machine.registers.programCounter + size earlier + distance) ∧
    ∀ opcode operands, (∃ statement : Statement, statement.encode = opcode :: operands) ↔
      ∃ instruction, InstructionTable.standard.find? opcode = some instruction ∧
        isStraight instruction.operation = true ∧ Fits instruction operands := by
  refine ⟨?_, ?_, ?_⟩
  · rintro earlier later rfl
    rcases loaded.after standard returns with ⟨counter, meaning, reached⟩
    refine ⟨counter, ?_⟩
    rw [← meaning]
    exact holds_store reached.bounded
  · intro earlier statement later split
    have parted : machine.Loaded (earlier ++ statement :: later) := split ▸ loaded
    have reached := (parted.after standard returns).2.2
    refine ⟨(reached.cycle standard returns).1, reached.executes standard, ?_⟩
    intro time bound distance positive inside
    exact loaded.counter_ne_operand standard returns split bound positive inside
  · exact exists_encode_iff

/-- A program with an operand that would halt the machine.  It pushes over it after it has
been executed. -/
def printsPushed (kept printed : Fin 8) : List Statement :=
  [.ldi kept 0x1B, .inc kept, .psh kept, .pop printed, .prn printed]

/-- A machine that stands at the program, behind two cells. -/
def printsPushedLoaded : Machine where
  memory := ⟨#[1, 2, 0x04, 0, 0x1B, 0x17, 0, 0x0A, 0, 0x0B, 1, 0x06, 1], by decide⟩
  registers := { Registers.powerOn.setCell Registers.stackSlot 5 with programCounter := 2 }

theorem straightLine_executes_printsPushed :
    (printsPushedLoaded.after {} 5).registers.programCounter = 13 ∧
      (printsPushedLoaded.after {} 5).values = [0x1C] ∧
      (printsPushedLoaded.after {} 5).memory.byteAt? 4 = some 0x1C := by
  have loaded : printsPushedLoaded.Loaded (printsPushed ⟨0, by decide⟩ ⟨1, by decide⟩) := by
    decide +kernel
  have reached := (@straightLine_executes {} _ _ rfl (fun _ => rfl) loaded).1 _ []
    (List.append_nil _).symm
  refine ⟨?_, ?_, ?_⟩
  · exact reached.1
  · exact reached.2.output
  · exact congrFun reached.2.memory 4

end Machine
end EightBit
