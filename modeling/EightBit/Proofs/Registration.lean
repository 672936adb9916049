import Mathlib.Data.List.Induction
import EightBit.Proofs.InstructionTable

namespace EightBit

/-!
# Registering instructions

A table is built by registering instructions one after the other.  This succeeds for every
list that can be registered at all, in whatever order it is written down: no opcode is
reserved and none occurs twice.  What is refused is the first instruction that does not go
with those before it.

Both halves come from one step.  A table `Lists` the instructions that it was given, and an
instruction that is offered next is refused exactly if it does not go with these
(`register_eq_error_iff`).  Instructions that are offered to a table whatever becomes of
the others need no such list: the first one for an opcode keeps the slot.
-/

theorem Opcode.reservedOfByte?_eq_some_iff (byte : UInt8) (opcode : Opcode) :
    reservedOfByte? byte = some opcode ↔ opcode.byte = byte ∧ opcode.isReserved = true := by
  rw [reservedOfByte?, Option.filter_eq_some_iff]
  refine and_congr_left fun _ => ?_
  constructor
  · intro found
    have named := List.find?_some (p := fun opcode : Opcode => opcode.byte == byte) found
    exact eq_of_beq named
  · rintro rfl
    exact ofByte?_byte opcode

def Instruction.IsReserved {Handler : Type} (instruction : Instruction Handler) : Prop :=
  ∃ opcode : Opcode, opcode.byte = instruction.opcode ∧ opcode.isReserved = true

theorem Instruction.not_isReserved_iff {Handler : Type} (instruction : Instruction Handler) :
    ¬ instruction.IsReserved ↔ Opcode.reservedOfByte? instruction.opcode = none := by
  simp only [IsReserved, ← Opcode.reservedOfByte?_eq_some_iff, Option.eq_none_iff_forall_ne_some,
    not_exists, ne_eq]

namespace InstructionTable

variable {Handler : Type}

/-- Instructions that can be registered together: none of them is reserved, and no two have
the same opcode. -/
structure Registrable (instructions : List (Instruction Handler)) : Prop where
  allowed : ∀ instruction ∈ instructions, ¬ instruction.IsReserved
  distinct : (instructions.map Instruction.opcode).Nodup

/-- Why an instruction is refused after others: its opcode is reserved, or it repeats the
opcode of one of them. -/
inductive Refuses (before : List (Instruction Handler)) (instruction : Instruction Handler) :
    Refusal Handler → Prop where
  | reserved {opcode : Opcode} (same : opcode.byte = instruction.opcode)
      (isReserved : opcode.isReserved = true) : Refuses before instruction (.reserved opcode)
  | taken {holder : Instruction Handler} (allowed : ¬ instruction.IsReserved)
      (member : holder ∈ before) (same : holder.opcode = instruction.opcode) :
      Refuses before instruction (.taken instruction.opcode holder)

/-- A table with the given instructions, each in the slot of its opcode, and no others. -/
structure Lists (table : InstructionTable Handler) (instructions : List (Instruction Handler)) :
    Prop where
  length : table.slots.toList.length = 256
  slot : ∀ (index : Nat) (bound : index < 256) (entry : Instruction Handler),
    table.slots[index] = some entry ↔ entry ∈ instructions ∧ entry.opcode.toNat = index
  empty : ∀ (index : Nat) (bound : index < 256),
    table.slots[index] = none ↔ ∀ entry ∈ instructions, entry.opcode.toNat ≠ index

/-- The table after an instruction was offered to it, which may have been refused. -/
def offered (table : InstructionTable Handler) (instruction : Instruction Handler) :
    InstructionTable Handler :=
  match table.register instruction with
  | .ok after => after
  | .error _ => table

/-- The table after instructions were offered to it one by one.  One that is refused does not
keep the next from being offered. -/
def offeredAll (table : InstructionTable Handler) (instructions : List (Instruction Handler)) :
    InstructionTable Handler :=
  instructions.foldl offered table

variable {table after other : InstructionTable Handler} {instruction : Instruction Handler}
  {instructions before behind : List (Instruction Handler)} {refusal : Refusal Handler}

/-!
## Slots
-/

/-- Two tables that find the same are the same. -/
theorem eq_of_find? (same : ∀ opcode, table.find? opcode = other.find? opcode) :
    table = other := by
  rcases table with ⟨slots⟩
  rcases other with ⟨others⟩
  rw [InstructionTable.mk.injEq]
  apply Vector.ext
  intro index bound
  exact same (UInt8.ofFin ⟨index, bound⟩)

/-- In a list without repeated opcodes there is one instruction to be found for an opcode. -/
theorem find?_eq_some_iff_of_nodup (distinct : (instructions.map Instruction.opcode).Nodup)
    (opcode : UInt8) (entry : Instruction Handler) :
    (instructions.find? fun entry => entry.opcode == opcode) = some entry ↔
      entry ∈ instructions ∧ entry.opcode = opcode := by
  constructor
  · intro found
    have same : (entry.opcode == opcode) = true :=
      List.find?_some (p := fun entry : Instruction Handler => entry.opcode == opcode) found
    exact ⟨List.mem_of_find?_eq_some found, eq_of_beq same⟩
  · rintro ⟨member, rfl⟩
    induction instructions with
    | nil => cases member
    | cons first rest inductionHypothesis =>
        rw [List.map_cons, List.nodup_cons] at distinct
        rcases List.mem_cons.mp member with rfl | later
        · exact List.find?_cons_of_pos (beq_self_eq_true _)
        · have differs : first.opcode ≠ entry.opcode := by
            intro same
            exact distinct.1 (same ▸ List.mem_map_of_mem later)
          rw [List.find?_cons_of_neg (by simpa using differs)]
          exact inductionHypothesis distinct.2 later

theorem find?_eq_none_iff (instructions : List (Instruction Handler)) (opcode : UInt8) :
    (instructions.find? fun entry => entry.opcode == opcode) = none ↔
      ∀ entry ∈ instructions, entry.opcode ≠ opcode := by
  rw [List.find?_eq_none]
  simp only [beq_iff_eq, ne_eq]

theorem lists_of_build (distinct : (instructions.map Instruction.opcode).Nodup)
    (built : build instructions = .ok table) : Lists table instructions := by
  have slot_eq : ∀ (index : Nat) (bound : index < 256), table.slots[index] =
      instructions.find? fun entry => entry.opcode == UInt8.ofFin ⟨index, bound⟩ :=
    fun index bound => find?_of_build built (UInt8.ofFin ⟨index, bound⟩)
  have same : ∀ (index : Nat) (bound : index < 256) (entry : Instruction Handler),
      entry.opcode = UInt8.ofFin ⟨index, bound⟩ ↔ entry.opcode.toNat = index := by
    intro index bound entry
    exact UInt8.toNat_inj.symm
  constructor
  · exact table.slots.length_toList
  · intro index bound entry
    rw [slot_eq, find?_eq_some_iff_of_nodup distinct, same]
  · intro index bound
    simp only [slot_eq, find?_eq_none_iff, ne_eq, same]

/-!
## One registration
-/

/-- Another instruction goes with those before it if its own opcode is not reserved and is
none of theirs. -/
theorem registrable_append_singleton :
    Registrable (before ++ [instruction]) ↔
      Registrable before ∧ ¬ instruction.IsReserved ∧
        ∀ earlier ∈ before, earlier.opcode ≠ instruction.opcode := by
  have distinct_iff : ((before ++ [instruction]).map Instruction.opcode).Nodup ↔
      (before.map Instruction.opcode).Nodup ∧
        ∀ earlier ∈ before, earlier.opcode ≠ instruction.opcode := by
    simp [List.nodup_append]
  constructor
  · rintro ⟨allowed, distinct⟩
    rcases distinct_iff.mp distinct with ⟨earlierDistinct, apart⟩
    exact ⟨⟨fun earlier member => allowed earlier (List.mem_append_left _ member),
      earlierDistinct⟩, allowed instruction (by simp), apart⟩
  · rintro ⟨⟨allowed, distinct⟩, here, apart⟩
    refine ⟨?_, distinct_iff.mpr ⟨distinct, apart⟩⟩
    intro other member
    rcases List.mem_append.mp member with earlier | last
    · exact allowed other earlier
    · rw [List.mem_singleton.mp last]
      exact here

theorem refuses_iff :
    Refuses before instruction refusal ↔
      (∃ opcode : Opcode, (opcode.byte = instruction.opcode ∧ opcode.isReserved = true) ∧
        refusal = .reserved opcode) ∨
      (¬ instruction.IsReserved ∧
        ∃ holder, (holder ∈ before ∧ holder.opcode = instruction.opcode) ∧
          refusal = .taken instruction.opcode holder) := by
  constructor
  · intro refused
    cases refused with
    | reserved same isReserved => exact Or.inl ⟨_, ⟨same, isReserved⟩, rfl⟩
    | taken allowed member same => exact Or.inr ⟨allowed, _, ⟨member, same⟩, rfl⟩
  · rintro (⟨opcode, ⟨same, isReserved⟩, rfl⟩ | ⟨allowed, holder, ⟨member, same⟩, rfl⟩)
    · exact .reserved same isReserved
    · exact .taken allowed member same

/-- What a registration is refused for. -/
theorem register_eq_error_iff_find? :
    table.register instruction = .error refusal ↔
      (∃ opcode, Opcode.reservedOfByte? instruction.opcode = some opcode ∧
        refusal = .reserved opcode) ∨
      (Opcode.reservedOfByte? instruction.opcode = none ∧
        ∃ holder, table.find? instruction.opcode = some holder ∧
          refusal = .taken instruction.opcode holder) := by
  unfold register
  cases Opcode.reservedOfByte? instruction.opcode with
  | some opcode => simp [eq_comm]
  | none =>
      cases table.find? instruction.opcode with
      | some holder => simp [eq_comm]
      | none => simp

/-- A table that finds what was registered before refuses the next instruction if it does not
go with these. -/
theorem register_eq_error_iff (distinct : (before.map Instruction.opcode).Nodup)
    (finds : ∀ opcode, table.find? opcode = before.find? fun entry => entry.opcode == opcode) :
    table.register instruction = .error refusal ↔ Refuses before instruction refusal := by
  rw [register_eq_error_iff_find?, refuses_iff]
  simp only [finds, Opcode.reservedOfByte?_eq_some_iff, Instruction.not_isReserved_iff,
    find?_eq_some_iff_of_nodup distinct]

theorem exists_refuses_iff :
    (∃ refusal, Refuses before instruction refusal) ↔
      instruction.IsReserved ∨ ∃ earlier ∈ before, earlier.opcode = instruction.opcode := by
  constructor
  · rintro ⟨refusal, refused⟩
    cases refused with
    | reserved same isReserved => exact Or.inl ⟨_, same, isReserved⟩
    | taken _ member same => exact Or.inr ⟨_, member, same⟩
  · intro obstacle
    by_cases reserved : instruction.IsReserved
    · rcases reserved with ⟨opcode, same, isReserved⟩
      exact ⟨_, .reserved same isReserved⟩
    · rcases obstacle with impossible | ⟨earlier, member, same⟩
      · exact absurd impossible reserved
      · exact ⟨_, .taken reserved member same⟩

theorem register_eq_ok_iff (distinct : (before.map Instruction.opcode).Nodup)
    (finds : ∀ opcode, table.find? opcode = before.find? fun entry => entry.opcode == opcode) :
    (∃ after, table.register instruction = .ok after) ↔
      ¬ instruction.IsReserved ∧ ∀ earlier ∈ before, earlier.opcode ≠ instruction.opcode := by
  have refused_iff : (∃ refusal, table.register instruction = .error refusal) ↔
      instruction.IsReserved ∨ ∃ earlier ∈ before, earlier.opcode = instruction.opcode := by
    rw [← exists_refuses_iff]
    exact exists_congr fun refusal => register_eq_error_iff distinct finds
  have accepted_iff : (∃ after, table.register instruction = .ok after) ↔
      ¬ ∃ refusal, table.register instruction = .error refusal := by
    cases table.register instruction <;> simp
  rw [accepted_iff, refused_iff, not_or]
  simp only [not_exists, not_and, ne_eq]

/-!
## All of a list
-/

theorem build_append_singleton :
    build (before ++ [instruction]) = build before >>= fun table => table.register instruction := by
  simp [build, List.foldlM_append]

/-- A list is built exactly if it can be registered. -/
theorem build_eq_ok_iff : (∃ table, build instructions = .ok table) ↔ Registrable instructions := by
  induction instructions using List.reverseRecOn with
  | nil => exact iff_of_true ⟨empty, rfl⟩ ⟨nofun, List.nodup_nil⟩
  | append_singleton before instruction inductionHypothesis =>
      rw [build_append_singleton, registrable_append_singleton]
      cases built : build before with
      | error refusal =>
          have not : ¬ Registrable before := by
            rw [← inductionHypothesis, built]
            simp
          simp [Bind.bind, Except.bind, not]
      | ok table =>
          have registrable := inductionHypothesis.mp ⟨table, built⟩
          rw [and_iff_right registrable]
          exact register_eq_ok_iff registrable.distinct (find?_of_build built)

/-- Building stops at the first instruction that does not go with those before it. -/
theorem build_eq_error_iff :
    build instructions = .error refusal ↔
      ∃ before instruction behind, instructions = before ++ instruction :: behind ∧
        Registrable before ∧ Refuses before instruction refusal := by
  constructor
  · intro failed
    induction instructions using List.reverseRecOn with
    | nil => cases failed
    | append_singleton earlier last inductionHypothesis =>
        rw [build_append_singleton] at failed
        cases built : build earlier with
        | error cause =>
            rw [built] at failed
            cases failed
            rcases inductionHypothesis built with ⟨before, instruction, behind, rfl, found⟩
            exact ⟨before, instruction, behind ++ [last], by simp, found⟩
        | ok table =>
            rw [built] at failed
            have registrable := build_eq_ok_iff.mp ⟨table, built⟩
            have refused :=
              (register_eq_error_iff registrable.distinct (find?_of_build built)).mp failed
            exact ⟨earlier, last, [], rfl, registrable, refused⟩
  · rintro ⟨before, instruction, behind, rfl, registrable, refused⟩
    rcases build_eq_ok_iff.mpr registrable with ⟨table, built⟩
    have failed := (register_eq_error_iff registrable.distinct (find?_of_build built)).mpr refused
    unfold build at built ⊢
    rw [List.foldlM_append, built]
    simp only [Bind.bind, Except.bind, List.foldlM_cons, failed]

theorem Registrable.perm (registrable : Registrable instructions)
    {others : List (Instruction Handler)} (perm : others.Perm instructions) :
    Registrable others where
  allowed := fun other member => registrable.allowed other (perm.mem_iff.mp member)
  distinct := (perm.map Instruction.opcode).nodup_iff.mpr registrable.distinct

/-- The order of a list does not matter to its table. -/
theorem build_of_perm {others : List (Instruction Handler)} (perm : others.Perm instructions)
    (built : build instructions = .ok table) : build others = .ok table := by
  have registrable := build_eq_ok_iff.mp ⟨table, built⟩
  have distinct := (registrable.perm perm).distinct
  rcases build_eq_ok_iff.mpr (registrable.perm perm) with ⟨other, otherBuilt⟩
  have same : other = table := by
    apply eq_of_find?
    intro opcode
    apply Option.ext
    intro entry
    rw [find?_of_build otherBuilt, find?_of_build built, find?_eq_some_iff_of_nodup distinct,
      find?_eq_some_iff_of_nodup registrable.distinct, perm.mem_iff]
  rw [otherBuilt, same]

/-!
## Whatever becomes of the others
-/

/-- The instructions that can fill the slot of an opcode. -/
def fits (opcode : UInt8) (instruction : Instruction Handler) : Bool :=
  instruction.opcode == opcode && (Opcode.reservedOfByte? instruction.opcode).isNone

theorem fits_eq_true_iff (opcode : UInt8) (instruction : Instruction Handler) :
    fits opcode instruction = true ↔ instruction.opcode = opcode ∧ ¬ instruction.IsReserved := by
  rw [fits, Bool.and_eq_true, beq_iff_eq, Option.isNone_iff_eq_none,
    Instruction.not_isReserved_iff]

theorem offered_of_error (refused : table.register instruction = .error refusal) :
    table.offered instruction = table := by
  rw [offered, refused]

@[simp] theorem offeredAll_append_singleton (table : InstructionTable Handler) :
    table.offeredAll (before ++ [instruction]) = (table.offeredAll before).offered instruction := by
  rw [offeredAll, List.foldl_append]
  rfl

/-- An instruction that is offered goes into the slot of its opcode, if this is empty.  One that
is refused fits nowhere, or the one slot that it fits is filled. -/
theorem find?_offered (table : InstructionTable Handler) (instruction : Instruction Handler)
    (opcode : UInt8) :
    (table.offered instruction).find? opcode =
      (table.find? opcode).or (if fits opcode instruction then some instruction else none) := by
  unfold offered
  cases registered : table.register instruction with
  | ok after =>
      rcases register_eq_ok registered with ⟨allowed, free, found⟩
      simp only [found, fits, allowed, Option.isNone_none, Bool.and_true, beq_iff_eq]
      by_cases same : instruction.opcode = opcode
      · subst same
        simp [free]
      · simp [same]
  | error refusal =>
      by_cases fitting : fits opcode instruction = true
      · rcases (fits_eq_true_iff _ _).mp fitting with ⟨rfl, allowed⟩
        rw [Instruction.not_isReserved_iff] at allowed
        cases found : table.find? instruction.opcode with
        | some holder => rfl
        | none => simp [register, allowed, found] at registered
      · simp [fitting]

theorem find?_offeredAll (table : InstructionTable Handler)
    (instructions : List (Instruction Handler)) (opcode : UInt8) :
    (table.offeredAll instructions).find? opcode =
      (table.find? opcode).or (instructions.find? (fits opcode)) := by
  unfold offeredAll
  induction instructions generalizing table with
  | nil => simp
  | cons first rest inductionHypothesis =>
      rw [List.foldl_cons, inductionHypothesis, find?_offered, List.find?_cons, Option.or_assoc]
      cases fits opcode first <;> rfl

/-- The slot of an opcode goes to the first instruction that has the opcode and is not
reserved.  An earlier one with this opcode would not be reserved either. -/
theorem find?_offeredAll_empty_eq_some_iff (instructions : List (Instruction Handler))
    (opcode : UInt8) (entry : Instruction Handler) :
    (empty.offeredAll instructions).find? opcode = some entry ↔
      ∃ before behind, instructions = before ++ entry :: behind ∧ entry.opcode = opcode ∧
        ¬ entry.IsReserved ∧ ∀ earlier ∈ before, earlier.opcode ≠ opcode := by
  rw [find?_offeredAll, find?_empty, Option.none_or, List.find?_eq_some_iff_append]
  simp only [fits_eq_true_iff]
  constructor
  · rintro ⟨⟨rfl, allowed⟩, before, behind, split, unfit⟩
    refine ⟨before, behind, split, rfl, allowed, ?_⟩
    intro earlier member same
    have fitting : fits entry.opcode earlier = true := by
      rw [fits_eq_true_iff, Instruction.not_isReserved_iff, same,
        ← Instruction.not_isReserved_iff]
      exact ⟨rfl, allowed⟩
    have unfitting := unfit earlier member
    simp [fitting] at unfitting
  · rintro ⟨before, behind, split, rfl, allowed, apart⟩
    refine ⟨⟨rfl, allowed⟩, before, behind, split, ?_⟩
    intro earlier member
    simp [fits, apart earlier member]

/-- Building succeeds exactly for the lists that can be registered, with a table that lists
them in whatever order, and fails at the first instruction that does not go with those before
it.  Where the others are offered regardless, a refused one changes nothing, and a slot goes
to the first instruction for it. -/
theorem build_registers (instructions : List (Instruction Handler)) :
    ((∃ table, build instructions = .ok table) ↔ Registrable instructions) ∧
      (∀ table, build instructions = .ok table → Lists table instructions) ∧
      (∀ others : List (Instruction Handler), others.Perm instructions → ∀ table,
        build others = .ok table ↔ build instructions = .ok table) ∧
      (∀ refusal, build instructions = .error refusal ↔
        ∃ before instruction behind, instructions = before ++ instruction :: behind ∧
          Registrable before ∧ Refuses before instruction refusal) ∧
      (∀ instruction refusal,
        (empty.offeredAll instructions).register instruction = .error refusal →
          empty.offeredAll (instructions ++ [instruction]) = empty.offeredAll instructions) ∧
      ∀ opcode entry, (empty.offeredAll instructions).find? opcode = some entry ↔
        ∃ before behind, instructions = before ++ entry :: behind ∧ entry.opcode = opcode ∧
          ¬ entry.IsReserved ∧ ∀ earlier ∈ before, earlier.opcode ≠ opcode := by
  refine ⟨build_eq_ok_iff, ?_, ?_, fun refusal => build_eq_error_iff, ?_,
    find?_offeredAll_empty_eq_some_iff instructions⟩
  · intro table built
    exact lists_of_build (build_eq_ok_iff.mp ⟨table, built⟩).distinct built
  · intro others perm table
    exact ⟨build_of_perm perm.symm, build_of_perm perm⟩
  · intro instruction refusal refused
    rw [offeredAll_append_singleton, offered_of_error refused]

end InstructionTable
end EightBit
