import EightBit.InstructionTable

namespace EightBit
namespace InstructionTable

/-!
# Looking instructions up

Registering fills slots one after the other and never a filled one.  A table that
was built therefore finds for an opcode what a search through the list of its
instructions finds.
-/

variable {Handler : Type} {table after : InstructionTable Handler}
  {instruction : Instruction Handler} {instructions : List (Instruction Handler)}

@[simp] theorem find?_empty (opcode : UInt8) :
    (empty : InstructionTable Handler).find? opcode = none := by
  simp [find?, empty]

/-- What a registration needs, and what it changes. -/
theorem register_eq_ok (registered : table.register instruction = .ok after) :
    Opcode.reservedOfByte? instruction.opcode = none ∧
      table.find? instruction.opcode = none ∧
      ∀ opcode, after.find? opcode =
        if instruction.opcode = opcode then some instruction else table.find? opcode := by
  unfold register at registered
  split at registered
  · cases registered
  · rename_i allowed
    split at registered
    · cases registered
    · rename_i free
      cases registered
      refine ⟨allowed, free, ?_⟩
      intro opcode
      simp only [find?, Fin.getElem_fin, Vector.getElem_set, ← Fin.ext_iff, UInt8.toFin_inj]

/-- Instructions that are registered one after the other are found behind those
that were there before. -/
theorem find?_of_foldlM (registered : instructions.foldlM register table = .ok after)
    (opcode : UInt8) :
    after.find? opcode =
      (table.find? opcode).or (instructions.find? fun entry => entry.opcode == opcode) := by
  induction instructions generalizing table with
  | nil =>
      cases registered
      simp
  | cons first rest inductionHypothesis =>
      rw [List.foldlM_cons] at registered
      cases entered : table.register first with
      | error refusal =>
          rw [entered] at registered
          cases registered
      | ok next =>
          rw [entered] at registered
          rcases register_eq_ok entered with ⟨_, free, found⟩
          rw [inductionHypothesis registered, found, List.find?_cons]
          by_cases same : first.opcode = opcode
          · subst same
            simp [free]
          · have differs : (first.opcode == opcode) = false := beq_false_of_ne same
            rw [if_neg same, differs]

theorem find?_of_build (built : build instructions = .ok table) (opcode : UInt8) :
    table.find? opcode = instructions.find? fun entry => entry.opcode == opcode := by
  rw [find?_of_foldlM built, find?_empty, Option.none_or]

/-- The standard instructions are not refused. -/
theorem build_standardInstructions : build standardInstructions = .ok standard := by
  have accepted : (build standardInstructions).isOk = true := by decide +kernel
  unfold standard
  cases built : build standardInstructions with
  | ok table => rfl
  | error refusal =>
      rw [built] at accepted
      cases accepted

end InstructionTable
end EightBit
