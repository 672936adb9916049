import Mathlib.Data.Finset.Union
import EightBit.Proofs.Writing

namespace EightBit

/-!
# Cycles see few cells

A cycle looks at the bytes of its instruction and, if that is a push or a pop, at
one cell of the stack.  It does not look at the length of the memory.  A run that
does not fail therefore goes the same on every memory that holds the same bytes in
the cells that the run touches, be it longer or shorter, and it leaves the other
cells alone.

Which cells a run touches is known only when it has been executed, since it may
write its own instructions.  What is carried through the run is `ChangedAlike`:
wherever the two memories once held the same byte they still do.  An operation is
followed access by access for this, as everything that it reads comes out alike.
-/

namespace Memory

/-- Another memory has the given cells and holds the same bytes in them. -/
def AgreesOn (memory other : Memory) (cells : Finset Int) : Prop :=
  ∀ address ∈ cells,
    other.Contains address ∧ other.byteAt? address = memory.byteAt? address

/-- A memory that may be longer holds the same bytes as far as the other one reaches. -/
def Extends (longer memory : Memory) : Prop :=
  ∀ address, memory.Contains address → longer.byteAt? address = memory.byteAt? address

/-- A second memory has changed as a first one has: wherever the two held the same
they still do, and the second has changed in no other than the given cells. -/
structure ChangedAlike (cells : Finset Int) (memory after other otherAfter : Memory) :
    Prop where
  length : otherAfter.length = other.length
  together : ∀ address, other.byteAt? address = memory.byteAt? address →
    otherAfter.byteAt? address = after.byteAt? address
  elsewhere : ∀ address, address ∉ cells →
    otherAfter.byteAt? address = other.byteAt? address

theorem AgreesOn.mono {memory other : Memory} {cells more : Finset Int} (subset : cells ⊆ more)
    (agrees : memory.AgreesOn other more) : memory.AgreesOn other cells :=
  fun address member => agrees address (subset member)

/-- A memory that extends another one agrees with it wherever that one has cells. -/
theorem Extends.agreesOn {longer memory : Memory} {cells : Finset Int}
    (extends_ : longer.Extends memory) (inside : ∀ address ∈ cells, memory.Contains address) :
    memory.AgreesOn longer cells := by
  intro address member
  have same := extends_ address (inside address member)
  rcases byteAt?_of_contains (inside address member) with ⟨byte, found⟩
  exact ⟨contains_of_byteAt? (same.trans found), same⟩

namespace ChangedAlike

variable {cells more : Finset Int} {memory after later other otherAfter otherLater : Memory}

theorem refl (cells : Finset Int) (memory other : Memory) :
    ChangedAlike cells memory memory other other where
  length := rfl
  together := fun _ same => same
  elsewhere := fun _ _ => rfl

theorem mono (changed : ChangedAlike cells memory after other otherAfter)
    (subset : cells ⊆ more) : ChangedAlike more memory after other otherAfter where
  length := changed.length
  together := changed.together
  elsewhere := fun address absent => changed.elsewhere address (mt (@subset address) absent)

theorem trans (first : ChangedAlike cells memory after other otherAfter)
    (second : ChangedAlike cells after later otherAfter otherLater) :
    ChangedAlike cells memory later other otherLater where
  length := second.length.trans first.length
  together := fun address same => second.together address (first.together address same)
  elsewhere := fun address absent =>
    (second.elsewhere address absent).trans (first.elsewhere address absent)

/-- The same value stored at the same address. -/
theorem of_store {address value : Int} (stores : memory.store address value = .ok after)
    (otherStores : other.store address value = .ok otherAfter) :
    ChangedAlike {address} memory after other otherAfter where
  length := length_store otherStores
  together := by
    intro cell same
    grind
  elsewhere := by
    intro cell absent
    have apart : cell ≠ address := mt Finset.mem_singleton.mpr absent
    grind

theorem agreesOn (changed : ChangedAlike cells memory after other otherAfter)
    (agrees : memory.AgreesOn other more) : after.AgreesOn otherAfter more := by
  intro address member
  rcases agrees address member with ⟨inside, same⟩
  exact ⟨inside.of_length changed.length, changed.together address same⟩

end ChangedAlike
end Memory

namespace Effect

variable {registers : Registers} {memory other : Memory} {cells : Finset Int}

/-- What a computation gives when it succeeds, another one gives as well. -/
def Gives (first second : Except Failure α) : Prop :=
  ∀ value, first = .ok value → second = .ok value

/-- When an operation on one memory succeeds, its counterpart on another does so with
the same effect, up to what it makes of its own memory. -/
def Mimics (cells : Finset Int) (memory other : Memory)
    (first second : Except Failure Effect) : Prop :=
  ∀ effect, first = .ok effect →
    ∃ stored, second = .ok { effect with memory := stored } ∧
      Memory.ChangedAlike cells memory effect.memory other stored

theorem Gives.refl (access : Except Failure α) : Gives access access :=
  fun _ answered => answered

theorem Gives.bind {access answer : Except Failure α} {rest counterpart : α → Except Failure Effect}
    (gives : Gives access answer)
    (mimics : ∀ value, Mimics cells memory other (rest value) (counterpart value)) :
    Mimics cells memory other (access >>= rest) (answer >>= counterpart) := by
  intro effect succeeded
  rcases bind_eq_ok_iff.mp succeeded with ⟨value, answered, rested⟩
  rw [gives value answered]
  exact mimics value effect rested

theorem gives_loadAt {address : Int} (agrees : memory.AgreesOn other cells)
    (member : address ∈ cells) :
    Gives (loadAt registers memory address) (loadAt registers other address) := by
  intro byte loaded
  rw [loadAt_eq_ok_iff] at loaded ⊢
  rw [(agrees address member).2]
  exact loaded

theorem gives_operandAt {distance : Int} (agrees : memory.AgreesOn other cells)
    (member : registers.programCounter + distance ∈ cells) :
    Gives (operandAt registers memory distance) (operandAt registers other distance) := by
  intro value read
  rw [operandAt_eq_ok_iff] at read ⊢
  rw [(agrees _ member).2]
  exact read

theorem mimics_ok (cells : Finset Int) (memory other : Memory) (registers : Registers)
    (emission : Option Int) (outcome : Machine.Outcome) :
    Mimics cells memory other (.ok ⟨registers, memory, emission, outcome⟩)
      (.ok ⟨registers, other, emission, outcome⟩) := by
  intro effect succeeded
  cases succeeded
  exact ⟨other, rfl, .refl cells memory other⟩

theorem mimics_store (value width : Int) (agrees : memory.AgreesOn other cells)
    (member : registers.stackPointer ∈ cells) :
    Mimics cells memory other ((Deed.store value).effect registers memory width)
      ((Deed.store value).effect registers other width) := by
  intro effect succeeded
  simp only [Deed.effect, bind_eq_ok_iff, pure_eq_ok_iff, storeAt_eq_ok_iff] at succeeded
  rcases succeeded with ⟨stored, stores, rfl⟩
  rcases Memory.store_of_contains (agrees _ member).1 value with ⟨otherStored, otherStores⟩
  refine ⟨otherStored, ?_, ?_⟩
  · simp only [Deed.effect, bind_eq_ok_iff, pure_eq_ok_iff, storeAt_eq_ok_iff]
    exact ⟨otherStored, otherStores, rfl⟩
  · exact (Memory.ChangedAlike.of_store stores otherStores).mono
      (Finset.singleton_subset_iff.mpr member)

end Effect

open Effect

/-- The cell of memory that a deed uses is one of these. -/
def Deed.Within (cells : Finset Int) (registers : Registers) : Deed → Prop
  | .store _ => registers.stackPointer ∈ cells
  | _ => True

/-- The cells of memory that a script uses are among these. -/
def Script.Within (cells : Finset Int) : Script → Registers → Prop
  | act _ deed, registers => deed.Within cells registers
  | operand distance rest, registers =>
    registers.programCounter + distance ∈ cells ∧ ∀ value, (rest value).Within cells registers
  | read _ rest, registers => ∀ value, (rest value).Within cells registers
  | top rest, registers =>
    registers.stackPointer ∈ cells ∧ ∀ byte, (rest byte).Within cells registers
  | test _ taken passed, registers =>
    taken.Within cells registers ∧ passed.Within cells registers
  | lower rest, registers => rest.Within cells registers.lowered

section Within

variable {registers : Registers} {memory other : Memory} {cells : Finset Int}

theorem Deed.Within.mimics {deed : Deed} (within : deed.Within cells registers) (width : Int)
    (agrees : memory.AgreesOn other cells) :
    Mimics cells memory other (deed.effect registers memory width)
      (deed.effect registers other width) := by
  cases deed with
  | goOn => exact mimics_ok cells memory other registers none _
  | halt => exact mimics_ok cells memory other registers none _
  | goTo target => exact mimics_ok cells memory other registers none _
  | write index value =>
      exact (Gives.refl _).bind fun written => mimics_ok cells memory other written none _
  | writeResult index result =>
      exact (Gives.refl _).bind fun written => mimics_ok cells memory other written none _
  | unstack index byte =>
      exact (Gives.refl _).bind fun written => mimics_ok cells memory other written.raised none _
  | store value => exact mimics_store value width agrees within
  | emit value => exact mimics_ok cells memory other registers (some value) _

/-- A script that succeeds does the same on every memory that agrees in the cells that it
uses. -/
theorem Script.Within.mimics {script : Script} (within : script.Within cells registers)
    (agrees : memory.AgreesOn other cells) :
    Mimics cells memory other (script.effect memory registers)
      (script.effect other registers) := by
  induction script generalizing registers with
  | act width deed => exact Deed.Within.mimics within width agrees
  | operand distance rest inductionHypothesis =>
      refine (gives_operandAt agrees within.1).bind ?_
      intro value
      exact inductionHypothesis value (within.2 value)
  | read index rest inductionHypothesis =>
      refine (Gives.refl _).bind ?_
      intro value
      exact inductionHypothesis value (within value)
  | top rest inductionHypothesis =>
      refine (gives_loadAt agrees within.1).bind ?_
      intro byte
      exact inductionHypothesis byte (within.2 byte)
  | test condition taken passed takenHypothesis passedHypothesis =>
      rw [Script.effect, Script.effect]
      split
      · exact takenHypothesis within.1
      · exact passedHypothesis within.2
  | lower rest inductionHypothesis => exact inductionHypothesis within

end Within

namespace Operation

/-- The cell of the stack that an operation uses: a push the one below the top, a pop
the top. -/
def stackCells (registers : Registers) : Operation → Finset Int
  | .psh => {Byte.low (registers.stackPointer - 1)}
  | .pop => {registers.stackPointer}
  | _ => ∅

/-- The cells that an operation uses: those of its opcode and its operands, and the one
of the stack. -/
def cells (registers : Registers) (operation : Operation) : Finset Int :=
  (Finset.range (operation.operandCount + 1)).image
      (fun distance : Nat => registers.programCounter + distance) ∪
    operation.stackCells registers

variable {registers : Registers} {memory other : Memory}

theorem mem_cells_iff (registers : Registers) (operation : Operation) (address : Int) :
    address ∈ operation.cells registers ↔
      (registers.programCounter ≤ address ∧
        address ≤ registers.programCounter + operation.operandCount) ∨
      address ∈ operation.stackCells registers := by
  have own : (∃ distance, distance < operation.operandCount + 1 ∧
      registers.programCounter + (distance : Int) = address) ↔
      registers.programCounter ≤ address ∧
        address ≤ registers.programCounter + operation.operandCount := by
    constructor
    · rintro ⟨distance, bound, rfl⟩
      omega
    · rintro ⟨lower, upper⟩
      exact ⟨(address - registers.programCounter).toNat, by omega, by omega⟩
  simp only [cells, Finset.mem_union, Finset.mem_image, Finset.mem_range, own]

theorem operand_mem_cells (registers : Registers) {operation : Operation} {distance : Int}
    (lower : 0 ≤ distance) (upper : distance ≤ operation.operandCount) :
    registers.programCounter + distance ∈ operation.cells registers :=
  (mem_cells_iff registers operation _).mpr (Or.inl ⟨by omega, by omega⟩)

/-- The cells of memory that an operation uses are those of its operands and of the stack. -/
theorem within_script (registers : Registers) (operation : Operation) :
    operation.script.Within (operation.cells registers) registers := by
  have stack : ∀ address ∈ operation.stackCells registers,
      address ∈ operation.cells registers := fun address member =>
    (mem_cells_iff registers operation address).mpr (Or.inr member)
  cases operation with
  | nop => trivial
  | hlt => trivial
  | ldi =>
      refine ⟨operand_mem_cells registers (by decide) (by decide), fun index => ?_⟩
      exact ⟨operand_mem_cells registers (by decide) (by decide), fun value => trivial⟩
  | lds =>
      refine ⟨operand_mem_cells registers (by decide) (by decide), fun target => ?_⟩
      exact ⟨operand_mem_cells registers (by decide) (by decide), fun source value => trivial⟩
  | alu op =>
      rw [script]
      split
      · rename_i unary
        refine ⟨operand_mem_cells registers (by decide) ?_, fun index value => trivial⟩
        simp [operandCount, unary]
      · rename_i binary
        refine ⟨operand_mem_cells registers (by decide) ?_, fun first => ?_⟩
        · simp [operandCount, binary]
        · refine ⟨operand_mem_cells registers (by decide) ?_, fun second a b => trivial⟩
          simp [operandCount, binary]
  | jump condition =>
      refine ⟨operand_mem_cells registers (by decide) (le_refl 1), fun index => ?_⟩
      exact ⟨fun target => trivial, trivial⟩
  | psh =>
      refine ⟨operand_mem_cells registers (by decide) (by decide), fun index value => ?_⟩
      exact stack _ (Finset.mem_singleton.mpr (Registers.stackPointer_lowered registers))
  | pop =>
      refine ⟨operand_mem_cells registers (by decide) (by decide), fun index => ?_⟩
      exact ⟨stack _ (Finset.mem_singleton_self _), fun byte => trivial⟩
  | prn =>
      exact ⟨operand_mem_cells registers (by decide) (by decide), fun index value => trivial⟩

/-- An operation that succeeds does the same on every memory that agrees in the cells
that it uses. -/
theorem mimics_effect (operation : Operation)
    (agrees : memory.AgreesOn other (operation.cells registers)) :
    Mimics (operation.cells registers) memory other (operation.effect registers memory)
      (operation.effect registers other) := by
  rw [effect_eq_script, effect_eq_script]
  exact (operation.within_script registers).mimics agrees

theorem mem_stackCells_iff (registers : Registers) (operation : Operation) (address : Int) :
    address ∈ operation.stackCells registers ↔
      (operation = .psh ∧ address = Byte.low (registers.stackPointer - 1)) ∨
      (operation = .pop ∧ address = registers.stackPointer) := by
  cases operation <;> simp [stackCells]

/-- The cells that an operation has used are there. -/
theorem contains_of_mem_cells {operation : Operation} {effect : Effect} {address : Int}
    (opcode : memory.Contains registers.programCounter)
    (succeeded : operation.effect registers memory = .ok effect)
    (member : address ∈ operation.cells registers) : memory.Contains address := by
  rcases (mem_cells_iff registers operation address).mp member with ⟨lower, upper⟩ | stack
  · have last : memory.Contains (registers.programCounter + operation.operandCount) := by
      rcases next_of_effect opcode succeeded with ⟨_, _, rfl, _, named, _⟩ | ⟨_, last⟩
      · rcases (registers.named?_eq_some_iff memory 1 _).mp named with ⟨byte, found, _⟩
        exact Memory.contains_of_byteAt? found
      · exact last
    exact ⟨opcode.1.trans lower, upper.trans_lt last.2⟩
  · have changes := changes_of_effect succeeded
    rcases (mem_stackCells_iff registers operation address).mp stack with ⟨rfl, rfl⟩ | ⟨rfl, rfl⟩
    · cases changes with
      | nothing _ notPsh => exact absurd rfl notPsh
      | cell _ _ destination => cases destination
      | pushed _ _ stores =>
          rw [← Registers.stackPointer_lowered]
          exact Memory.contains_of_store stores
    · cases changes with
      | nothing _ _ notPop => exact absurd rfl notPop
      | cell _ _ _ _ notPop => exact absurd rfl notPop
      | popped _ _ loads => exact Memory.contains_of_byteAt? loads

end Operation

namespace Machine

/-- Two machines that differ in what their memories hold and in what only watches them. -/
structure AgreesBesideMemory (machine other : Machine) : Prop where
  registers : other.registers = machine.registers
  status : other.status = machine.status
  cycles : other.cycles = machine.cycles
  values : other.values = machine.values

/-- The cells that the next cycle touches: those that its instruction uses, or that of
a byte without instruction.  A machine that has halted touches none. -/
def touches (wiring : Wiring) (machine : Machine) : Finset Int :=
  if machine.halted then ∅
  else
    match machine.executes wiring with
    | some operation => operation.cells machine.registers
    | none => {machine.registers.programCounter}

/-- The cells that the next cycles touch. -/
def footprint (wiring : Wiring) (machine : Machine) (count : Nat) : Finset Int :=
  (Finset.range count).biUnion fun time => (machine.after wiring time).touches wiring

variable {wiring : Wiring} {machine other : Machine}

theorem touches_of_find? (running : machine.halted = false) {opcode : UInt8}
    {instruction : Instruction}
    (found : machine.memory.byteAt? machine.registers.programCounter = some opcode)
    (bound : wiring.table.find? opcode = some instruction) :
    machine.touches wiring = instruction.operation.cells machine.registers := by
  simp only [touches, running, Bool.false_eq_true, if_false,
    executes_of_find? running found bound]

theorem touches_of_missing (running : machine.halted = false) {opcode : UInt8}
    (found : machine.memory.byteAt? machine.registers.programCounter = some opcode)
    (missing : wiring.table.find? opcode = none) :
    machine.touches wiring = {machine.registers.programCounter} := by
  simp [touches, executes, running, found, missing]

/-- The opcode is among what an instruction uses. -/
theorem programCounter_mem_touches (running : machine.halted = false) :
    machine.registers.programCounter ∈ machine.touches wiring := by
  simp only [touches, running, Bool.false_eq_true, if_false]
  cases machine.executes wiring with
  | none => exact Finset.mem_singleton_self _
  | some operation =>
      exact (Operation.mem_cells_iff _ operation _).mpr (Or.inl ⟨Int.le_refl _, by omega⟩)

namespace AgreesBesideMemory

theorem halted_eq (beside : machine.AgreesBesideMemory other) : other.halted = machine.halted := by
  simp only [halted, beside.status]

/-- The devices of the two have seen as many values. -/
theorem size_eq (beside : machine.AgreesBesideMemory other) :
    other.emissions.size = machine.emissions.size := by
  rw [← length_values, ← length_values, beside.values]

theorem refuses_eq (beside : machine.AgreesBesideMemory other) (device : Nat → Reply)
    (emission : Option Int) : other.refuses device emission = machine.refuses device emission := by
  rw [refuses, refuses, beside.size_eq]

/-- A device asks both for a pause or neither. -/
theorem delivered_running_eq (beside : machine.AgreesBesideMemory other)
    (running : other.running = machine.running) (device : Nat → Reply) (emission : Option Int) :
    (other.delivered device emission).running = (machine.delivered device emission).running := by
  cases emission with
  | none => exact running
  | some value => simp only [delivered, emitted, running, beside.size_eq]

theorem goesOn_eq (beside : machine.AgreesBesideMemory other)
    (running : other.running = machine.running) (budget : Option Int) (executed : Nat) :
    other.goesOn budget executed = machine.goesOn budget executed := by
  rw [goesOn, goesOn, running, beside.halted_eq]

/-- The next cycle has the same plan on the other memory, up to what it makes of it.  Its fetch
changes no register that decides which cells are used. -/
theorem plan_eq (beside : machine.AgreesBesideMemory other) (running : machine.halted = false)
    {plan : Plan} (planned : machine.plan wiring = .ok plan)
    (agrees : machine.memory.AgreesOn other.memory (machine.touches wiring)) :
    ∃ stored,
      other.plan wiring = .ok { plan with effect := { plan.effect with memory := stored } } ∧
      Memory.ChangedAlike (machine.touches wiring) machine.memory plan.effect.memory
        other.memory stored := by
  have fetches := (agrees _ (programCounter_mem_touches running)).2
  rcases InstructionTable.plan_eq_ok planned with
    ⟨opcode, found, ⟨instruction, bound, executed, commit_eq⟩ |
      ⟨missing, lenient, effect_eq, commit_eq⟩⟩
  · rw [touches_of_find? running found bound] at agrees ⊢
    have held : machine.memory.AgreesOn other.memory (instruction.operation.cells
        { machine.registers with instructionRegister := Byte.toInt opcode }) := agrees
    rcases instruction.operation.mimics_effect held plan.effect executed with
      ⟨stored, executed', changed⟩
    refine ⟨stored, ?_, changed⟩
    rw [Machine.plan, beside.registers,
      InstructionTable.plan_of_effect wiring.strict (fetches.trans found) bound executed',
      commit_eq]
  · refine ⟨other.memory, ?_, ?_⟩
    · rw [Machine.plan, beside.registers,
        InstructionTable.plan_of_missing wiring.strict (fetches.trans found) missing, lenient,
        effect_eq, commit_eq]
      rfl
    · rw [effect_eq]
      exact .refl _ machine.memory other.memory

/-- The same effect, settled on both, with the value given to the same device. -/
theorem settle (beside : machine.AgreesBesideMemory other) (effect : Effect) (stored : Memory)
    (device : Nat → Reply) (journal noted : Journal) (commit : Commit) :
    AgreesBesideMemory ((machine.left device effect journal).settle commit)
      ((other.left device { effect with memory := stored } noted).settle commit) where
  registers := rfl
  status := by simp [beside.status]
  cycles := by simp [beside.cycles]
  values := by simp [beside.values]

/-- A cycle that succeeds does so on the other memory, and the two machines and their
memories go on alike. -/
theorem next (beside : machine.AgreesBesideMemory other)
    (succeeds : machine.succeeds wiring = true)
    (agrees : machine.memory.AgreesOn other.memory (machine.touches wiring)) :
    other.succeeds wiring = true ∧
      (machine.next wiring).AgreesBesideMemory (other.next wiring) ∧
      (other.running = machine.running →
        (other.next wiring).running = (machine.next wiring).running) ∧
      Memory.ChangedAlike (machine.touches wiring) machine.memory (machine.next wiring).memory
        other.memory (other.next wiring).memory := by
  rcases (succeeds_iff wiring machine).mp succeeds with ⟨alive, ok⟩
  cases halted : machine.halted with
  | true =>
      have stays := cycle_of_halted wiring machine halted
      have otherStays := cycle_of_halted wiring other (beside.halted_eq.trans halted)
      rw [Machine.succeeds, Machine.next, Machine.next, stays, otherStays]
      exact ⟨rfl, beside, id, .refl _ machine.memory other.memory⟩
  | false =>
      rcases cycle_eq_ok halted ok with ⟨plan, journal, planned, taken, next_eq, _⟩
      rcases beside.plan_eq halted planned agrees with ⟨stored, planned', changed⟩
      rcases cycle_of_taken wiring (beside.halted_eq.trans halted) planned'
          ((beside.refuses_eq wiring.device _).trans taken) with
        ⟨noted, cycle_eq⟩
      have other_next : other.next wiring =
          (other.left wiring.device { plan.effect with memory := stored } noted).settle
            plan.commit := by
        rw [Machine.next, cycle_eq]
      refine ⟨(succeeds_iff wiring other).mpr ⟨_, other_next ▸ cycle_eq⟩, ?_, ?_, ?_⟩
      · rw [other_next, next_eq]
        exact beside.settle plan.effect stored wiring.device journal noted plan.commit
      · intro running
        rw [other_next, next_eq]
        exact beside.delivered_running_eq running wiring.device plan.effect.emission
      · rw [other_next, next_eq]
        exact changed

/-- Cycles in a row go on alike as long as they touch no cell in which the memories may
differ. -/
theorem after (beside : machine.AgreesBesideMemory other) {cells : Finset Int}
    (agrees : machine.memory.AgreesOn other.memory cells) {count : Nat}
    (succeed : ∀ time < count, (machine.after wiring time).succeeds wiring = true)
    (within : ∀ time < count, (machine.after wiring time).touches wiring ⊆ cells) :
    (∀ time < count, (other.after wiring time).succeeds wiring = true) ∧
      (machine.after wiring count).AgreesBesideMemory (other.after wiring count) ∧
      (other.running = machine.running →
        (other.after wiring count).running = (machine.after wiring count).running) ∧
      Memory.ChangedAlike cells machine.memory (machine.after wiring count).memory
        other.memory (other.after wiring count).memory := by
  induction count with
  | zero =>
      refine ⟨?_, beside, id, .refl cells machine.memory other.memory⟩
      intro time impossible
      exact absurd impossible (Nat.not_lt_zero time)
  | succ count inductionHypothesis =>
      rcases inductionHypothesis (fun time before => succeed time (Nat.lt_succ_of_lt before))
          (fun time before => within time (Nat.lt_succ_of_lt before)) with
        ⟨earlier, beside', running', changed⟩
      have reached := (changed.agreesOn agrees).mono (within count (Nat.lt_succ_self count))
      rcases beside'.next (succeed count (Nat.lt_succ_self count)) reached with
        ⟨here, beside'', running'', changed'⟩
      refine ⟨?_, beside'', running'' ∘ running',
        changed.trans (changed'.mono (within count (Nat.lt_succ_self count)))⟩
      intro time bound
      rcases Nat.lt_succ_iff_lt_or_eq.mp bound with before | rfl
      · exact earlier time before
      · exact here

end AgreesBesideMemory

theorem touches_subset_footprint {count time : Nat} (before : time < count) :
    (machine.after wiring time).touches wiring ⊆ machine.footprint wiring count :=
  Finset.subset_biUnion_of_mem (fun time => (machine.after wiring time).touches wiring)
    (Finset.mem_range.mpr before)

/-- A cycle that succeeds has touched cells that are there. -/
theorem contains_of_mem_touches (succeeds : machine.succeeds wiring = true) {address : Int}
    (member : address ∈ machine.touches wiring) : machine.memory.Contains address := by
  rcases (succeeds_iff wiring machine).mp succeeds with ⟨alive, ok⟩
  cases halted : machine.halted with
  | true => simp [touches, halted] at member
  | false =>
      rcases cycle_eq_ok halted ok with ⟨plan, journal, planned, _, _, _⟩
      rcases InstructionTable.plan_eq_ok planned with
        ⟨opcode, found, ⟨instruction, bound, executed, _⟩ | ⟨missing, _⟩⟩
      · rw [touches_of_find? halted found bound] at member
        have held : address ∈ instruction.operation.cells
            { machine.registers with instructionRegister := Byte.toInt opcode } := member
        refine Operation.contains_of_mem_cells ?_ executed held
        exact Memory.contains_of_byteAt? found
      · rw [touches_of_missing halted found missing, Finset.mem_singleton] at member
        rw [member]
        exact Memory.contains_of_byteAt? found

/-!
## Whole runs
-/

/-- What one machine has done another one has done too.  The two are alike but for
their memories, these agree in the given cells, and the second one has changed in no
other cell. -/
structure Retraced (cells : Finset Int) (final other otherFinal : Machine) : Prop where
  beside : final.AgreesBesideMemory otherFinal
  agrees : final.memory.AgreesOn otherFinal.memory cells
  elsewhere : ∀ address, address ∉ cells →
    otherFinal.memory.byteAt? address = other.memory.byteAt? address

/-- The cells that were touched by cycles that have succeeded were there from the
beginning. -/
theorem contains_of_mem_footprint {count : Nat}
    (succeed : ∀ time < count, (machine.after wiring time).succeeds wiring = true) {address : Int}
    (member : address ∈ machine.footprint wiring count) : machine.memory.Contains address := by
  rcases Finset.mem_biUnion.mp member with ⟨time, before, touched⟩
  have before := Finset.mem_range.mp before
  exact (contains_of_mem_touches (succeed time before) touched).of_length
    (length_after wiring machine time).symm

theorem after_retraced {count : Nat} (beside : machine.AgreesBesideMemory other)
    (succeed : ∀ time < count, (machine.after wiring time).succeeds wiring = true)
    (agrees : machine.memory.AgreesOn other.memory (machine.footprint wiring count)) :
    (∀ time < count, (other.after wiring time).succeeds wiring = true) ∧
      Retraced (machine.footprint wiring count) (machine.after wiring count) other
        (other.after wiring count) ∧
      (other.memory.Extends machine.memory →
        (other.after wiring count).memory.Extends (machine.after wiring count).memory) := by
  rcases beside.after agrees succeed (fun _ before => touches_subset_footprint before) with
    ⟨otherSucceed, beside', _, changed⟩
  refine ⟨otherSucceed, ⟨beside', changed.agreesOn agrees, changed.elsewhere⟩, ?_⟩
  intro longer address inside
  have first := inside.of_length (length_after wiring machine count).symm
  exact changed.together address (longer address first)

/-- A run that returns after so many cycles does so on the other memory. -/
theorem run_retraced {count fuel : Nat} {budget : Option Int} {final : Machine}
    (beside : machine.AgreesBesideMemory other)
    (returned : machine.run wiring budget fuel = .returned count final)
    (agrees : machine.memory.AgreesOn other.memory (machine.started.footprint wiring count)) :
    ∃ otherFinal, other.run wiring budget fuel = .returned count otherFinal ∧
      Retraced (machine.started.footprint wiring count) final other otherFinal := by
  rcases run_eq_returned_iff.mp returned with ⟨bound, going, stays, rfl⟩
  have start : machine.started.AgreesBesideMemory other.started :=
    ⟨beside.registers, beside.status, beside.cycles, beside.values⟩
  have alike := fun time (within : time ≤ count) =>
    start.after agrees (fun _ before => (going _ (before.trans_le within)).2)
      (fun _ before => touches_subset_footprint (before.trans_le within))
  have goesOn : ∀ time ≤ count, ∀ executed,
      (other.started.after wiring time).goesOn budget executed =
        (machine.started.after wiring time).goesOn budget executed := by
    intro time within executed
    rcases alike time within with ⟨_, beside', running, _⟩
    exact beside'.goesOn_eq (running rfl) budget executed
  rcases alike count (Nat.le_refl count) with ⟨otherSucceed, final, _, changed⟩
  refine ⟨(other.started.after wiring count).conclude count,
    run_eq_returned_iff.mpr ⟨bound, ?_, ?_, rfl⟩, ?_⟩
  · intro time before
    rw [goesOn time before.le]
    exact ⟨(going time before).1, otherSucceed time before⟩
  · rw [goesOn count (Nat.le_refl count)]
    exact stays
  · exact ⟨⟨final.registers, final.status, final.cycles, final.values⟩,
      changed.agreesOn agrees, changed.elsewhere⟩

/-- A run sees its memory only in the cells that it touches.  On every memory that has
these cells, with the same bytes in them, it goes the same and leaves all other cells
alone.  A memory that was made longer is such a memory. -/
theorem run_local (beside : machine.AgreesBesideMemory other) :
    (∀ count, (∀ time < count, (machine.after wiring time).succeeds wiring = true) →
      let touched := machine.footprint wiring count
      (∀ address ∈ touched, machine.memory.Contains address) ∧
      (machine.memory.AgreesOn other.memory touched →
        (∀ time < count, (other.after wiring time).succeeds wiring = true) ∧
          Retraced touched (machine.after wiring count) other (other.after wiring count)) ∧
      (other.memory.Extends machine.memory →
        (∀ time < count, (other.after wiring time).succeeds wiring = true) ∧
          Retraced touched (machine.after wiring count) other (other.after wiring count) ∧
          (other.after wiring count).memory.Extends (machine.after wiring count).memory)) ∧
    ∀ budget fuel count final, machine.run wiring budget fuel = .returned count final →
      let touched := machine.started.footprint wiring count
      machine.memory.AgreesOn other.memory touched ∨ other.memory.Extends machine.memory →
        ∃ otherFinal, other.run wiring budget fuel = .returned count otherFinal ∧
          Retraced touched final other otherFinal := by
  constructor
  · intro count succeed touched
    have inside : ∀ address ∈ touched, machine.memory.Contains address :=
      fun address member => contains_of_mem_footprint succeed member
    refine ⟨inside, ?_, ?_⟩
    · intro agrees
      rcases after_retraced beside succeed agrees with ⟨otherSucceed, retraced, _⟩
      exact ⟨otherSucceed, retraced⟩
    · intro longer
      rcases after_retraced beside succeed (longer.agreesOn inside) with
        ⟨otherSucceed, retraced, extended⟩
      exact ⟨otherSucceed, retraced, extended longer⟩
  · intro budget fuel count final returned touched shared
    apply run_retraced beside returned
    rcases shared with agrees | longer
    · exact agrees
    · apply longer.agreesOn
      intro address member
      have going := (run_eq_returned_iff.mp returned).2.1
      exact contains_of_mem_footprint (fun time before => (going time before).2) member

/-- A machine that pushes `R0`, pops it into `R1` and prints that.  It does not look at
the cells behind its program but at one of them. -/
def printsPopped : Machine where
  memory := ⟨#[0x0A, 0, 0x0B, 1, 0x06, 1, 0x1B, 5, 6, 0, 0, 0], by decide⟩
  registers := { general := #v[65, 0, 0, 0, 0, 0, 0, 10] }

/-- Its memory may be shorter, and it may hold something else there. -/
theorem run_local_printsPopped :
    let other := { printsPopped with
      memory := ⟨#[0x0A, 0, 0x0B, 1, 0x06, 1, 0x1B, 77, 88, 0], by decide⟩ }
    printsPopped.footprint {} 4 = {0, 1, 2, 3, 4, 5, 6, 9} ∧
      Retraced (printsPopped.footprint {} 4) (printsPopped.after {} 4) other (other.after {} 4) ∧
      (other.after {} 4).values = [65] := by
  intro other
  have beside : printsPopped.AgreesBesideMemory other := ⟨rfl, rfl, rfl, rfl⟩
  have agrees : printsPopped.memory.AgreesOn other.memory (printsPopped.footprint {} 4) := by
    unfold Memory.AgreesOn
    decide +kernel
  have retraced := (((@run_local {} _ _ beside).1 4 (by decide +kernel)).2.1 agrees).2
  refine ⟨by decide +kernel, retraced, ?_⟩
  rw [retraced.beside.values]
  decide +kernel

end Machine
end EightBit
