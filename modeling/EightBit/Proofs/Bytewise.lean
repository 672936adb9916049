import EightBit.Proofs.MemoryHistory

namespace EightBit

/-!
# Bytes one by one and bytes at once

Writing bytes one by one and writing them as a block make the same of a memory that has
room for them.  The two differ when there are too many.  The block is refused as a whole,
with the address of its last byte.  The bytes are written as long as there are cells, and
the address that is refused is the first one behind the memory.

An overlay drops what would lie outside, so it is what the bytes leave in either case
(`storeBytes_from`).  It is also what the block leaves if it fits.
-/

namespace Memory

variable {memory stored : Memory}

/-- The first byte of a block can be written before the others. -/
theorem overlay_of_store {start : Nat} {byte : UInt8} {rest : List UInt8}
    (stores : memory.store start (Byte.toInt byte) = .ok stored) :
    stored.overlay rest.toArray (start + 1) = memory.overlay (byte :: rest).toArray start := by
  unfold store at stores
  split at stores
  case isFalse => cases stores
  case isTrue inside =>
    cases stores
    simp only [overlay, Memory.mk.injEq]
    apply Array.ext
    · simp
    intro index bound _
    simp only [Array.size_mapIdx, Array.size_set] at bound
    simp only [Array.getElem_mapIdx, Array.getElem_set, Byte.ofInt_toInt, Int.toNat_natCast]
    rcases Nat.lt_trichotomy index start with below | rfl | above
    · rw [if_neg (by omega), if_neg (by omega), if_neg (by omega)]
    · rw [if_neg (Nat.not_succ_le_self index), if_pos rfl, if_pos (Nat.le_refl index)]
      simp [Array.getD]
    · have place : index - start = index - (start + 1) + 1 := by omega
      rw [if_pos (by omega), if_neg (by omega), if_pos (by omega), place]
      simp [Array.getD]

/-- A block behind the memory leaves it as it is. -/
theorem overlay_of_length_le {start : Nat} (behind : memory.length ≤ start)
    (data : Array UInt8) : memory.overlay data start = memory := by
  rcases memory with ⟨cells, nonempty⟩
  simp only [overlay, Memory.mk.injEq]
  apply Array.ext
  · simp
  · intro index bound bound'
    have below : ¬ start ≤ index := by
      simp only [length] at behind
      omega
    simp [below]

/-- Of a block that is longer than the memory, the memory keeps the bytes that fit. -/
theorem snapshot_overlay_of_length_lt {data : List UInt8} (exceeds : memory.length < data.length) :
    (memory.overlay data.toArray 0).snapshot = data.take memory.length := by
  apply List.ext_getElem?
  intro index
  rw [getElem?_snapshot]
  by_cases below : index < memory.length
  · have inside : memory.Contains index := ⟨by omega, by omega⟩
    rw [memory.byteAt?_overlay _ 0 index inside, List.getElem?_take_of_lt below,
      if_pos ⟨by omega, by simp; omega⟩]
    simp
  · have outside : ¬ (memory.overlay data.toArray 0).Contains index := by
      rw [Contains, length_overlay]
      omega
    rw [(byteAt?_eq_none_iff _ _).mpr outside, List.getElem?_eq_none (by simp; omega)]

end Memory

namespace Machine

/-- Bytes that are written one by one, from an address of the memory on, are laid over it as
far as they fit.  The first that does not fit is refused, and its address is the one behind the
memory. -/
theorem storeBytes_from (data : List UInt8) (start : Nat) (machine : Machine)
    (reached : start ≤ machine.memory.length) :
    ∃ journal,
      ((data.zipIdx start).forM fun entry => storeByte entry.2 (Byte.toInt entry.1)) machine =
        if start + data.length ≤ machine.memory.length then
          .ok () { machine with memory := machine.memory.overlay data.toArray start, journal }
        else
          .error (.address ⟨machine.memory.length, machine.memory.length⟩)
            { machine with memory := machine.memory.overlay data.toArray start, journal } := by
  induction data generalizing start machine with
  | nil =>
      refine ⟨machine.journal, ?_⟩
      rw [machine.memory.overlay_of_isEmpty rfl, List.length_nil, Nat.add_zero,
        if_pos reached]
      rfl
  | cons byte rest inductionHypothesis =>
      simp only [List.zipIdx_cons, List.forM, bind, EStateM.bind, storeByte_eq]
      cases stores : machine.memory.store start (Byte.toInt byte) with
      | ok stored =>
          have inside := Memory.contains_of_store stores
          have size := Memory.length_store stores
          have next : start + 1 ≤ stored.length := by
            have := inside.2
            omega
          rcases inductionHypothesis (start + 1) { machine with
              memory := stored
              journal := machine.journal.add (.stored start (Byte.ofInt (Byte.toInt byte))) }
            next with ⟨journal, written⟩
          refine ⟨journal, ?_⟩
          have room : start + 1 + rest.length = start + (byte :: rest).length := by
            rw [List.length_cons]
            omega
          simp only [written, Memory.overlay_of_store stores, size, room]
      | error error =>
          rcases (Memory.store_eq_error_iff _ _ _ _).mp stores with ⟨outside, rfl⟩
          have behind : start = machine.memory.length := by
            rw [Memory.Contains] at outside
            omega
          refine ⟨machine.journal, ?_⟩
          rw [Memory.overlay_of_length_le (Nat.le_of_eq behind.symm), if_neg, behind]
          rw [List.length_cons]
          omega

theorem loadBytes_eq (data : List UInt8) (machine : Machine) :
    ∃ journal, loadBytes data machine =
      if data.length ≤ machine.memory.length then
        .ok () { machine with memory := machine.memory.overlay data.toArray 0, journal }
      else
        .error (.address ⟨machine.memory.length, machine.memory.length⟩)
          { machine with memory := machine.memory.overlay data.toArray 0, journal } := by
  have written := storeBytes_from data 0 machine (Nat.zero_le _)
  rw [Nat.zero_add] at written
  exact written

/-- Bytes that have room leave the same memory whether they are written one by one or as a
block.  Of too many, those that fit remain where they are written one by one, and the address
behind the memory is refused; as a block they leave everything as it was, and the address of
the last of them is refused.  Writing them changes the memory and the journal only. -/
theorem loadBytes_loadBlock (data : List UInt8) (machine : Machine) :
    (data.length ≤ machine.memory.length → ∃ memory journal,
      loadBytes data machine = .ok () { machine with memory, journal } ∧
        loadBlock data.toArray 0 machine = .ok () { machine with memory } ∧
        memory.snapshot = data ++ machine.memory.snapshot.drop data.length) ∧
      (machine.memory.length < data.length → ∃ memory journal,
        loadBytes data machine =
            .error (.address ⟨machine.memory.length, machine.memory.length⟩)
              { machine with memory, journal } ∧
          memory.snapshot = data.take machine.memory.length ∧
          loadBlock data.toArray 0 machine =
            .error (.address ⟨data.length - 1, machine.memory.length⟩) machine) := by
  rcases loadBytes_eq data machine with ⟨journal, written⟩
  constructor
  · intro fits
    rw [if_pos fits] at written
    refine ⟨_, journal, written, ?_, ?_⟩
    · rw [loadBlock_eq, Memory.loadImage_of_le (by simpa using fits)]
    · rw [Memory.snapshot_overlay _ _ (by simpa using fits)]
      simp
  · intro exceeds
    rw [if_neg (Nat.not_le.mpr exceeds)] at written
    refine ⟨_, journal, written, Memory.snapshot_overlay_of_length_lt exceeds, ?_⟩
    rw [loadBlock_eq, Memory.loadImage_of_lt (by simpa using exceeds)]
    simp

end Machine
end EightBit
