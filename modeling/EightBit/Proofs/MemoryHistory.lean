import Mathlib.Data.List.Basic
import Mathlib.Data.List.Induction
import EightBit.Proofs.Arithmetic
import EightBit.Proofs.Effect

namespace EightBit
namespace Memory

/-!
# A memory recalls what was written last

Whatever is asked of a memory, and in whatever order, it keeps its length, and each of its
cells holds what was written there last.  Only a write that is not refused counts, and a
cell that none has reached is zero.  So a memory is the map that its history describes.

The history is told without a memory: `Access.written?` looks at an access and the length
alone.  The proof compares the two for one access, and goes through a history from its
beginning.

A block of bytes replaces a part of the row of cells.  In a row that may grow and shrink
this would be `splice`, which reads a negative position from the end and makes the row
longer or shorter when the part and the block differ in length.  The two addresses that
are checked rule both out (`snapshot_of_loadImage`).
-/

/-- What can be asked of a memory. -/
inductive Access where
  | store (address value : Int)
  | loadImage (data : Array UInt8) (start : Int)
  | load (address : Int)
  | snapshot
deriving DecidableEq, Repr

/-- What an access that is not refused gives back. -/
inductive Answer where
  | done
  | byte (byte : UInt8)
  | bytes (row : List UInt8)
deriving DecidableEq, Repr

/-- The answer to an access with the memory after it, unless it is refused. -/
def serve (memory : Memory) : Access → Except AddressError (Answer × Memory)
  | .store address value => (memory.store address value).map fun after => (.done, after)
  | .loadImage data start => (memory.loadImage data start).map fun after => (.done, after)
  | .load address => (memory.load address).map fun byte => (.byte byte, memory)
  | .snapshot => .ok (.bytes memory.snapshot, memory)

def next (memory : Memory) (access : Access) : Memory :=
  match memory.serve access with
  | .ok (_, after) => after
  | .error _ => memory

/-- The memory after accesses in a row.  One that is refused does not keep the next from
being made. -/
def afterAll (memory : Memory) (history : List Access) : Memory :=
  history.foldl next memory

/-- The value that an access writes at an address, if it does and is not refused. -/
def Access.written? (length : Nat) (address : Int) : Access → Option Int
  | store target value =>
    if 0 ≤ target ∧ target < length ∧ address = target then some (value % 256) else none
  | loadImage data start =>
    if 0 ≤ start ∧ start + data.size ≤ length ∧ start ≤ address then
      data[(address - start).toNat]?.map Byte.toInt
    else none
  | load _ => none
  | snapshot => none

/-- The value that was written last at an address, or zero. -/
def lastWritten (length : Nat) (history : List Access) (address : Int) : Int :=
  (history.reverse.findSome? (Access.written? length address)).getD 0

/-- A position in a row, where a negative one counts from the end and one that lies outside
is moved to the nearer end. -/
def position (length : Nat) (index : Int) : Nat :=
  if index < 0 then (index + length).toNat else min index.toNat length

/-- A row with the part between two positions replaced by other bytes, however many. -/
def splice (row : List UInt8) (start stop : Int) (data : List UInt8) : List UInt8 :=
  let first := position row.length start
  row.take first ++ data ++ row.drop (max first (position row.length stop))

theorem lastWritten_append (length : Nat) (history : List Access) (access : Access)
    (address : Int) :
    lastWritten length (history ++ [access]) address =
      (access.written? length address).getD (lastWritten length history address) := by
  simp only [lastWritten, List.reverse_append, List.reverse_singleton, List.singleton_append,
    List.findSome?_cons]
  cases access.written? length address <;> rfl

/-!
## When an access is refused
-/

theorem contains_iff {memory : Memory} {length : Nat} (size : memory.length = length)
    (address : Int) : memory.Contains address ↔ 0 ≤ address ∧ address < length := by
  rw [Contains, size]

theorem store_eq_error_iff (memory : Memory) (address value : Int) (error : AddressError) :
    memory.store address value = .error error ↔
      ¬ memory.Contains address ∧ error = ⟨address, memory.length⟩ := by
  unfold store
  split
  case isTrue inside => simp [inside]
  case isFalse outside =>
    simp only [Except.error.injEq, outside, not_false_eq_true, true_and]
    exact eq_comm

@[simp] theorem loadImage_empty (memory : Memory) (start : Int) :
    memory.loadImage #[] start = .ok memory := by
  simp [loadImage]

/-- A block that is not empty fits if its first and its last byte do. -/
theorem loadImage_of_ne_empty (memory : Memory) {data : Array UInt8} (nonempty : data ≠ #[])
    (start : Int) :
    memory.loadImage data start =
      if 0 ≤ start ∧ start + data.size ≤ memory.length then
        .ok (memory.overlay data start.toNat)
      else
        .error ⟨if memory.Contains start then start + data.size - 1 else start,
          memory.length⟩ := by
  have positive : 0 < data.size := Array.size_pos_iff.mpr nonempty
  have full : data.isEmpty = false := Array.isEmpty_eq_false_iff.mpr nonempty
  simp only [loadImage, full, Bool.false_eq_true, if_false]
  by_cases first : memory.Contains start
  · by_cases last : memory.Contains (start + data.size - 1)
    · have fits : 0 ≤ start ∧ start + data.size ≤ memory.length := by
        constructor
        · exact first.1
        · have := last.2
          omega
      rw [if_neg (not_not.mpr first), if_neg (not_not.mpr last), if_pos fits]
    · have exceeds : ¬ (0 ≤ start ∧ start + data.size ≤ memory.length) := by
        rintro ⟨lower, upper⟩
        exact last ⟨by omega, by omega⟩
      rw [if_neg (not_not.mpr first), if_pos last, if_neg exceeds, if_pos first]
  · have outside : ¬ (0 ≤ start ∧ start + data.size ≤ memory.length) := by
      rintro ⟨lower, upper⟩
      exact first ⟨lower, by omega⟩
    rw [if_pos first, if_neg outside, if_neg first]

theorem loadImage_eq_error_iff (memory : Memory) {data : Array UInt8} (nonempty : data ≠ #[])
    (start : Int) (error : AddressError) :
    memory.loadImage data start = .error error ↔
      (start < 0 ∨ memory.length < start + data.size) ∧
      error = ⟨if memory.Contains start then start + data.size - 1 else start,
        memory.length⟩ := by
  rw [memory.loadImage_of_ne_empty nonempty]
  split
  case isTrue fits =>
    simp only [reduceCtorEq, false_iff, not_and]
    intro exceeds
    omega
  case isFalse exceeds =>
    have outside : start < 0 ∨ memory.length < start + data.size := by omega
    simp only [Except.error.injEq, outside, true_and]
    exact eq_comm

/-!
## What an access makes of the cells
-/

/-- The number that the cell at an address holds, if there is one. -/
def valueAt? (memory : Memory) (address : Int) : Option Int :=
  (memory.byteAt? address).map Byte.toInt

theorem valueAt?_store {memory after : Memory} {target value : Int}
    (stored : memory.store target value = .ok after) (address : Int) :
    after.valueAt? address =
      if address = target then some (value % 256) else memory.valueAt? address := by
  by_cases same : address = target <;> simp [valueAt?, byteAt?_store stored, same, Byte.low]

theorem valueAt?_overlay (memory : Memory) (data : Array UInt8) {start : Int} (lower : 0 ≤ start)
    {address : Int} (inside : memory.Contains address) :
    (memory.overlay data start.toNat).valueAt? address =
      if start ≤ address ∧ address < start + data.size then
        data[(address - start).toNat]?.map Byte.toInt
      else memory.valueAt? address := by
  have place : address.toNat - start.toNat = (address - start).toNat := by omega
  rw [valueAt?, memory.byteAt?_overlay data start.toNat address inside, place,
    Int.toNat_of_nonneg lower]
  split <;> rfl

/-- A write that is not refused writes what its history says. -/
theorem valueAt?_of_store {memory after : Memory} {target value : Int}
    (stored : memory.store target value = .ok after) (address : Int) :
    after.valueAt? address =
      ((Access.store target value).written? memory.length address).or
        (memory.valueAt? address) := by
  have inside := contains_of_store stored
  rw [valueAt?_store stored, Access.written?]
  by_cases same : address = target
  · rw [if_pos same, if_pos ⟨inside.1, inside.2, same⟩]
    rfl
  · rw [if_neg same, if_neg fun written => same written.2.2]
    rfl

theorem valueAt?_of_loadImage {memory after : Memory} {data : Array UInt8} {start : Int}
    (placed : memory.loadImage data start = .ok after) {address : Int}
    (inside : memory.Contains address) :
    after.valueAt? address =
      ((Access.loadImage data start).written? memory.length address).or
        (memory.valueAt? address) := by
  by_cases empty : data = #[]
  · subst empty
    rw [loadImage_empty] at placed
    cases placed
    simp [Access.written?]
  · rw [memory.loadImage_of_ne_empty empty] at placed
    split at placed
    case isFalse => cases placed
    case isTrue fits =>
      cases placed
      rw [memory.valueAt?_overlay data fits.1 inside, Access.written?]
      by_cases reached : start ≤ address
      · rw [if_pos (c := 0 ≤ start ∧ _ ∧ _) ⟨fits.1, fits.2, reached⟩]
        by_cases covered : address < start + data.size
        · have place : (address - start).toNat < data.size := by omega
          rw [if_pos ⟨reached, covered⟩, Array.getElem?_eq_getElem place]
          rfl
        · have beyond : data.size ≤ (address - start).toNat := by omega
          rw [if_neg fun both => covered both.2, Array.getElem?_eq_none beyond]
          rfl
      · rw [if_neg fun both => reached both.1, if_neg fun written => reached written.2.2]
        rfl

theorem written?_of_refused {memory : Memory} {access : Access} {error : AddressError}
    (refused : memory.serve access = .error error) (address : Int) :
    access.written? memory.length address = none := by
  cases access with
  | load target => rfl
  | snapshot => rfl
  | store target value =>
      apply if_neg
      rintro ⟨lower, upper, _⟩
      rcases store_of_contains ⟨lower, upper⟩ value with ⟨after, stored⟩
      rw [serve, stored] at refused
      cases refused
  | loadImage data start =>
      apply if_neg
      rintro ⟨lower, upper, _⟩
      by_cases empty : data = #[]
      · subst empty
        rw [serve, loadImage_empty] at refused
        cases refused
      · rw [serve, memory.loadImage_of_ne_empty empty, if_pos ⟨lower, upper⟩] at refused
        cases refused

/-- An access that is not refused keeps the length, and writes what its history says. -/
theorem valueAt?_of_serve {memory after : Memory} {access : Access} {answer : Answer}
    (served : memory.serve access = .ok (answer, after)) :
    after.length = memory.length ∧
      ∀ address, memory.Contains address → after.valueAt? address =
        (access.written? memory.length address).or (memory.valueAt? address) := by
  cases access with
  | snapshot =>
      cases served
      exact ⟨rfl, fun _ _ => rfl⟩
  | load target =>
      rw [serve] at served
      cases loaded : memory.load target <;> rw [loaded] at served <;> cases served
      exact ⟨rfl, fun _ _ => rfl⟩
  | store target value =>
      rw [serve] at served
      cases stored : memory.store target value <;> rw [stored] at served <;> cases served
      exact ⟨length_store stored, fun address _ => valueAt?_of_store stored address⟩
  | loadImage data start =>
      rw [serve] at served
      cases placed : memory.loadImage data start <;> rw [placed] at served <;> cases served
      exact ⟨length_loadImage placed, fun address => valueAt?_of_loadImage placed⟩

@[simp] theorem length_next (memory : Memory) (access : Access) :
    (memory.next access).length = memory.length := by
  unfold next
  cases served : memory.serve access with
  | ok result => exact (valueAt?_of_serve served).1
  | error error => rfl

theorem valueAt?_next (memory : Memory) (access : Access) {address : Int}
    (inside : memory.Contains address) :
    (memory.next access).valueAt? address =
      (access.written? memory.length address).or (memory.valueAt? address) := by
  unfold next
  cases served : memory.serve access with
  | ok result => exact (valueAt?_of_serve served).2 address inside
  | error error =>
      rw [written?_of_refused served address]
      rfl

/-!
## What a history makes of them
-/

@[simp] theorem length_afterAll (memory : Memory) (history : List Access) :
    (memory.afterAll history).length = memory.length := by
  induction history generalizing memory with
  | nil => rfl
  | cons access rest inductionHypothesis =>
      simpa [afterAll] using inductionHypothesis (memory.next access)

theorem valueAt?_zeroed {length : Nat} (positive : 0 < length) {address : Int}
    (inside : (zeroed length positive).Contains address) :
    (zeroed length positive).valueAt? address = some 0 := by
  have bound := inside.toNat_lt
  simp only [zeroed, Array.size_replicate] at bound
  simp [valueAt?, byteAt?, inside.1, zeroed, bound, Byte.toInt]

/-- Every cell holds what was written there last. -/
theorem valueAt?_afterAll {length : Nat} (positive : 0 < length) (history : List Access)
    {address : Int} (lower : 0 ≤ address) (upper : address < length) :
    ((zeroed length positive).afterAll history).valueAt? address =
      some (lastWritten length history address) := by
  induction history using List.reverseRecOn with
  | nil =>
      apply valueAt?_zeroed positive
      rw [Contains, length_zeroed]
      exact ⟨lower, upper⟩
  | append_singleton history access inductionHypothesis =>
      have size : ((zeroed length positive).afterAll history).length = length := by
        simp
      have stays : (zeroed length positive).afterAll (history ++ [access]) =
          ((zeroed length positive).afterAll history).next access := List.foldl_append ..
      rw [stays, valueAt?_next _ access ((contains_iff size address).mpr ⟨lower, upper⟩), size,
        inductionHypothesis, lastWritten_append]
      cases access.written? length address <;> rfl

@[simp] theorem getElem?_snapshot (memory : Memory) (address : Nat) :
    memory.snapshot[address]? = memory.byteAt? address := by
  simp [snapshot, byteAt?]

/-- A memory is told by its bytes. -/
theorem snapshot_injective {memory other : Memory} (same : memory.snapshot = other.snapshot) :
    memory = other := by
  rcases memory with ⟨cells, nonempty⟩
  rcases other with ⟨others, nonempty'⟩
  have equal : cells = others := Array.toList_inj.mp same
  subst equal
  rfl

@[simp] theorem length_snapshot (memory : Memory) : memory.snapshot.length = memory.length := by
  simp [snapshot, length]

theorem snapshot_overlay (memory : Memory) (data : Array UInt8) {start : Nat}
    (fits : start + data.size ≤ memory.length) :
    (memory.overlay data start).snapshot =
      memory.snapshot.take start ++ data.toList ++ memory.snapshot.drop (start + data.size) := by
  have size : memory.snapshot.length = memory.length := memory.length_snapshot
  apply List.ext_getElem?
  intro index
  by_cases below : index < memory.length
  · have inside : memory.Contains index := ⟨by omega, by omega⟩
    rw [getElem?_snapshot, memory.byteAt?_overlay data start index inside, ← getElem?_snapshot]
    grind
  · have size' : (memory.overlay data start).snapshot.length = memory.length :=
      (length_snapshot _).trans (memory.length_overlay data start)
    grind

/-- A block that fits replaces a part of the row of cells that is as long as the block. -/
theorem snapshot_of_loadImage {memory after : Memory} {data : Array UInt8} {start : Int}
    (placed : memory.loadImage data start = .ok after) :
    after.snapshot = splice memory.snapshot start (start + data.size) data.toList := by
  by_cases empty : data = #[]
  · subst empty
    rw [loadImage_empty] at placed
    cases placed
    simp [splice]
  · rw [memory.loadImage_of_ne_empty empty] at placed
    split at placed
    case isFalse => cases placed
    case isTrue fits =>
      cases placed
      have first : position memory.snapshot.length start = start.toNat := by
        rw [position, if_neg (by omega), length_snapshot]
        omega
      have last : position memory.snapshot.length (start + data.size) =
          start.toNat + data.size := by
        rw [position, if_neg (by omega), length_snapshot]
        omega
      have later : max start.toNat (start.toNat + data.size) = start.toNat + data.size := by
        omega
      rw [splice, first, last, later]
      apply snapshot_overlay
      omega

/-!
## Memories and their histories
-/

/-- A memory of the given length is the map that a history of accesses describes, and it
answers the next access as this map tells. -/
structure Recalls (length : Nat) (history : List Access) (memory : Memory) : Prop where
  snapshot : memory.snapshot.map Byte.toInt =
    (List.range length).map fun address : Nat => lastWritten length history address
  load : ∀ address byte, memory.load address = .ok byte ↔
    0 ≤ address ∧ address < length ∧ Byte.toInt byte = lastWritten length history address
  load_refused : ∀ address error, memory.load address = .error error ↔
    ¬ (0 ≤ address ∧ address < length) ∧ error = ⟨address, length⟩
  store_refused : ∀ address value error, memory.store address value = .error error ↔
    ¬ (0 ≤ address ∧ address < length) ∧ error = ⟨address, length⟩
  loadImage_refused : ∀ data start error, data ≠ #[] →
    (memory.loadImage data start = .error error ↔
      (start < 0 ∨ length < start + data.size) ∧
      error =
        ⟨if 0 ≤ start ∧ start < length then start + data.size - 1 else start, length⟩)
  loadImage_empty : ∀ start, memory.loadImage #[] start = .ok memory
  loadImage_placed : ∀ data start after, memory.loadImage data start = .ok after →
    after.snapshot = splice memory.snapshot start (start + data.size) data.toList
  refused : ∀ access error, memory.serve access = .error error → memory.next access = memory

theorem map_snapshot {memory : Memory} {length : Nat} {values : Int → Int}
    (size : memory.length = length)
    (holds : ∀ address : Int, 0 ≤ address → address < length →
      memory.valueAt? address = some (values address)) :
    memory.snapshot.map Byte.toInt =
      (List.range length).map fun address : Nat => values address := by
  apply List.ext_getElem?
  intro index
  rw [List.getElem?_map, List.getElem?_map, getElem?_snapshot]
  by_cases below : index < length
  · rw [List.getElem?_range below]
    exact holds index (by omega) (by omega)
  · have outside : memory.byteAt? index = none := by
      rw [byteAt?_eq_none_iff, contains_iff size]
      omega
    rw [outside, List.getElem?_eq_none (by simpa using below)]
    rfl

/-- Whatever was asked of a memory of zeros, it is the map that the history describes. -/
theorem afterAll_recalls (length : Nat) (positive : 0 < length) (history : List Access) :
    (∀ limit : Extent.Limit, (length : Int) ≤ limit.greatest →
      create length limit = .ok (zeroed length positive)) ∧
    Recalls length history ((zeroed length positive).afterAll history) := by
  have size : ((zeroed length positive).afterAll history).length = length := by simp
  have holds : ∀ address : Int, 0 ≤ address → address < length →
      ((zeroed length positive).afterAll history).valueAt? address =
        some (lastWritten length history address) :=
    fun _ => valueAt?_afterAll positive history
  generalize (zeroed length positive).afterAll history = memory at size holds
  constructor
  · intro limit fits
    have excess := (limit.excess?_eq_none_iff length).mpr fits
    rw [create, dif_pos (by omega), excess]
    rfl
  · constructor
    · exact map_snapshot size holds
    · intro address byte
      rw [load_eq_ok_iff]
      constructor
      · intro found
        have inside := (contains_iff size address).mp (contains_of_byteAt? found)
        have value := holds address inside.1 inside.2
        rw [valueAt?, found] at value
        exact ⟨inside.1, inside.2, Option.some.inj value⟩
      · rintro ⟨lower, upper, value⟩
        rcases byteAt?_of_contains ((contains_iff size address).mpr ⟨lower, upper⟩) with
          ⟨other, found⟩
        have held := holds address lower upper
        rw [valueAt?, found, ← value] at held
        rw [found, Byte.toInt_inj (Option.some.inj held)]
    · intro address error
      rw [load_eq_error_iff, contains_iff size, size]
    · intro address value error
      rw [store_eq_error_iff, contains_iff size, size]
    · intro data start error nonempty
      rw [memory.loadImage_eq_error_iff nonempty, size]
      simp only [contains_iff size]
    · exact memory.loadImage_empty
    · intro data start after placed
      exact snapshot_of_loadImage placed
    · intro access error refused
      rw [next, refused]

/-- Writes that are cut to a byte, writes that are refused, a block that would reach behind
the last cell, and an empty one in front of the first. -/
def mixedHistory : List Access :=
  [.store 1 511, .loadImage #[1, 2, 3] 2, .loadImage #[] (-5), .store (-1) 7,
    .loadImage #[9, 8] 2, .store 3 (-1), .store 4 5, .snapshot]

theorem afterAll_recalls_mixedHistory :
    let memory := (zeroed 4 (by decide)).afterAll mixedHistory
    Recalls 4 mixedHistory memory ∧
      memory.snapshot.map Byte.toInt = [0, 255, 9, 255] ∧
      memory.loadImage #[1, 2, 3] 2 = .error ⟨4, 4⟩ := by
  intro memory
  have recalls := (afterAll_recalls 4 (by decide) mixedHistory).2
  refine ⟨recalls, ?_, ?_⟩
  · rw [recalls.snapshot]
    decide +kernel
  · exact (recalls.loadImage_refused _ _ _ (by decide)).mpr (by decide)

end Memory
end EightBit
