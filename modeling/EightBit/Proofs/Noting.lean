import EightBit.Machine.Loading
import EightBit.Proofs.Reachability

namespace EightBit

/-!
# What is noted

A machine may note anything at any moment of a cycle.  Whatever it does, its journal goes on
by notes of the wanted categories and by no others, and nothing is torn out of it.  So a
journal that wants nothing stays as it is.
-/

/-- A journal goes on from another by notes that are wanted. -/
structure Journal.Continues (journal later : Journal) : Prop where
  selection : later.selection = journal.selection
  notes : ∃ more, later.notes = journal.notes ++ more ∧
    ∀ note ∈ more, journal.selection.includes note.category = true

namespace Journal.Continues

variable {journal later last : Journal}

theorem refl (journal : Journal) : journal.Continues journal :=
  ⟨rfl, #[], Array.append_empty.symm, fun _ member => absurd member (Array.not_mem_empty _)⟩

theorem trans (continues : journal.Continues later) (others : later.Continues last) :
    journal.Continues last := by
  rcases continues with ⟨selection, more, notes, wanted⟩
  rcases others with ⟨selection', more', notes', wanted'⟩
  refine ⟨selection'.trans selection, more ++ more', ?_, ?_⟩
  · rw [notes', notes, Array.append_assoc]
  · intro note member
    rcases Array.mem_append.mp member with first | second
    · exact wanted note first
    · exact selection ▸ wanted' note second

theorem add (journal : Journal) (note : Note) : journal.Continues (journal.add note) := by
  unfold Journal.add
  split
  · rename_i wanted
    refine ⟨rfl, #[note], Array.push_eq_append, ?_⟩
    intro other member
    rw [Array.mem_singleton.mp member]
    exact wanted
  · exact refl journal

/-- A journal that wants nothing stays as it is. -/
theorem eq_of_nothing (continues : journal.Continues later)
    (nothing : journal.selection = .nothing) : later = journal := by
  rcases continues with ⟨selection, more, notes, wanted⟩
  have empty : more = #[] := by
    refine Array.eq_empty_iff_forall_not_mem.mpr ?_
    intro note member
    have impossible := wanted note member
    rw [nothing] at impossible
    cases impossible
  rw [empty, Array.append_empty] at notes
  cases journal
  cases later
  simp only at selection notes
  rw [selection, notes]

end Journal.Continues

namespace Machine

/-- A computation that only makes notes that are wanted. -/
def Notes (computation : EStateM ε Machine α) : Prop :=
  ∀ machine : Machine, machine.journal.Continues (outcomeOf (computation machine)).journal

theorem Notes.bind {first : EStateM ε Machine α} {rest : α → EStateM ε Machine β}
    (notes : Notes first) (later : ∀ value, Notes (rest value)) : Notes (first >>= rest) := by
  intro machine
  have continues := notes machine
  simp only [Bind.bind, EStateM.bind]
  cases ended : first machine with
  | ok value after =>
      rw [ended] at continues
      exact continues.trans (later value after)
  | error error after =>
      rw [ended] at continues
      exact continues

theorem notes_pure (value : α) : Notes (pure value : EStateM ε Machine α) :=
  fun machine => .refl machine.journal

theorem notes_throw (error : ε) : Notes (throw error : EStateM ε Machine α) :=
  fun machine => .refl machine.journal

/-- Looking at the machine makes no notes. -/
theorem notes_get {rest : Machine → EStateM ε Machine β} (later : ∀ machine, Notes (rest machine)) :
    Notes (get >>= rest) :=
  fun machine => later machine machine

theorem notes_note (entry : Note) : Notes (note entry) :=
  fun machine => .add machine.journal entry

theorem notes_modifyRegisters (change : Registers → Registers) : Notes (modifyRegisters change) :=
  fun machine => .refl machine.journal

theorem notes_loadByte (address : Int) : Notes (loadByte address) := by
  intro machine
  rw [loadByte_eq]
  cases machine.memory.load address with
  | ok byte => exact .add machine.journal _
  | error error => exact .refl machine.journal

theorem notes_storeByte (address value : Int) : Notes (storeByte address value) := by
  intro machine
  rw [storeByte_eq]
  cases machine.memory.store address value with
  | ok memory => exact .add machine.journal _
  | error error => exact .refl machine.journal

theorem notes_readRegister (index : Int) : Notes (readRegister index) := by
  intro machine
  rw [readRegister_eq]
  cases machine.registers.get index <;> exact .refl machine.journal

theorem notes_writeRegister (index value : Int) : Notes (writeRegister index value) := by
  intro machine
  rw [writeRegister_eq]
  cases machine.registers.set index value <;> exact .refl machine.journal

theorem notes_operand (distance : Int) : Notes (operand distance) :=
  notes_get fun _ => (notes_loadByte _).bind fun _ => notes_pure _

theorem notes_advance (width : Int) : Notes (advance width) :=
  notes_get fun _ => notes_pure _

theorem notes_emit (device : Nat → Reply) (value : Int) : Notes (emit device value) := by
  intro machine
  rw [emit_eq]
  split <;> exact .refl machine.journal

theorem notes_writeResult (register : Int) (result : Alu.Result) :
    Notes (writeResult register result) := by
  rcases result with ⟨value, equal⟩
  cases value with
  | none =>
      cases equal with
      | none => exact notes_pure ()
      | some equal =>
          exact notes_modifyRegisters fun registers => { registers with equalFlag := equal }
  | some value =>
      cases equal with
      | none => exact (notes_writeRegister register value).bind fun _ => notes_pure ()
      | some equal =>
          exact (notes_writeRegister register value).bind fun _ =>
            notes_modifyRegisters fun registers => { registers with equalFlag := equal }

theorem notes_deed (device : Nat → Reply) (width : Int) (deed : Deed) :
    Notes (deed.execute device width) := by
  cases deed with
  | goOn => exact notes_advance width
  | halt => exact (notes_advance width).bind fun _ => notes_pure _
  | goTo target => exact notes_pure _
  | write index value => exact (notes_writeRegister index value).bind fun _ => notes_advance width
  | writeResult index result =>
      exact (notes_writeResult index result).bind fun _ => notes_advance width
  | unstack index byte =>
      exact (notes_writeRegister index _).bind fun _ =>
        (notes_modifyRegisters _).bind fun _ => notes_advance width
  | store value =>
      exact notes_get fun machine => (notes_storeByte _ value).bind fun _ => notes_advance width
  | emit value => exact (notes_emit device value).bind fun _ => notes_advance width

theorem notes_script (device : Nat → Reply) (script : Script) :
    Notes (script.execute device) := by
  induction script with
  | act width deed => exact notes_deed device width deed
  | operand distance rest inductionHypothesis =>
      exact (notes_operand distance).bind inductionHypothesis
  | read index rest inductionHypothesis =>
      exact (notes_readRegister index).bind inductionHypothesis
  | top rest inductionHypothesis =>
      exact notes_get fun machine => (notes_loadByte _).bind inductionHypothesis
  | test condition taken passed takenHypothesis passedHypothesis =>
      refine notes_get fun machine => ?_
      split
      · exact takenHypothesis
      · exact passedHypothesis
  | lower rest inductionHypothesis =>
      exact (notes_modifyRegisters _).bind fun _ => inductionHypothesis

theorem notes_execute (device : Nat → Reply) (operation : Operation) :
    Notes (execute device operation) := by
  rw [execute_eq_script]
  exact notes_script device operation.script

theorem notes_attempt (wiring : Wiring) : Notes (attempt wiring) := by
  refine notes_get fun machine => (notes_loadByte _).bind fun opcode =>
    (notes_modifyRegisters _).bind fun _ => ?_
  cases wiring.table.find? opcode with
  | some instruction =>
      exact (notes_note _).bind fun _ =>
        (notes_execute wiring.device instruction.operation).bind fun _ => notes_pure _
  | none =>
      cases wiring.strict with
      | true => exact (notes_throw _).bind fun _ => (notes_note _).bind fun _ => notes_pure _
      | false => exact (notes_note _).bind fun _ => notes_pure _

theorem notes_cycle (wiring : Wiring) : Notes (cycle wiring) := by
  intro machine
  have continues := notes_attempt wiring machine
  unfold cycle
  split
  · exact .refl machine.journal
  · cases ended : attempt wiring machine with
    | ok commit after =>
        rw [ended] at continues
        exact continues
    | error fault after =>
        rw [ended] at continues
        exact continues

end Machine
end EightBit
