import EightBit.Byte
import EightBit.Extent
import EightBit.Numeral

namespace EightBit

/-!
# Memory

The memory is a row of byte cells, numbered from zero and never empty.  An
address is any whole number; one outside the row is refused and changes
nothing.
-/

/-- A row of byte cells, all of them reachable by their addresses. -/
structure Memory where
  cells : Array UInt8
  nonempty : 0 < cells.size
deriving DecidableEq, Repr

namespace Memory

/-- The length a memory has when none is asked for. -/
def defaultLength : Int := 256

/-- An address that lies outside a memory of the given length. -/
structure AddressError where
  address : Int
  length : Nat
deriving DecidableEq, Repr

/-- The message names the address and the last address there is. -/
def AddressError.message (error : AddressError) : String :=
  "address " ++ Numeral.Layout.address.write error.address ++ " outside memory 0x00-" ++
    Numeral.Layout.address.write (error.length - 1)

/-- Why there is no memory of an asked length. -/
inductive LengthError where
  | notPositive
  | excess (cause : Extent.Excess)
deriving DecidableEq, Repr

def LengthError.message : LengthError → String
  | notPositive => "memory must have a positive length"
  | excess cause => cause.message

def length (memory : Memory) : Nat :=
  memory.cells.size

def zeroed (length : Nat) (positive : 0 < length) : Memory where
  cells := Array.replicate length 0
  nonempty := by simpa using positive

/-- A memory of the asked length, all cells zero. -/
def create (length : Int) (limit : Extent.Limit := .usual) : Except LengthError Memory :=
  if positive : 0 < length then
    match limit.excess? length with
    | some cause => .error (.excess cause)
    | none => .ok (zeroed length.toNat (Extent.toNat_pos positive))
  else .error .notPositive

def Contains (memory : Memory) (address : Int) : Prop :=
  0 ≤ address ∧ address < memory.length

instance (memory : Memory) (address : Int) : Decidable (memory.Contains address) :=
  inferInstanceAs (Decidable (_ ∧ _))

theorem Contains.toNat_lt {memory : Memory} {address : Int} (inside : memory.Contains address) :
    address.toNat < memory.cells.size := by
  obtain ⟨lower, upper⟩ := inside
  simp only [length] at upper
  omega

/-- The byte at an address, if the address names a cell. -/
def byteAt? (memory : Memory) (address : Int) : Option UInt8 :=
  if 0 ≤ address then memory.cells[address.toNat]? else none

def load (memory : Memory) (address : Int) : Except AddressError UInt8 :=
  match memory.byteAt? address with
  | some byte => .ok byte
  | none => .error ⟨address, memory.length⟩

def store (memory : Memory) (address value : Int) : Except AddressError Memory :=
  if inside : memory.Contains address then
    .ok ⟨memory.cells.set address.toNat (Byte.ofInt value) inside.toNat_lt,
      by simpa using memory.nonempty⟩
  else .error ⟨address, memory.length⟩

/-- The cells after a block of bytes was laid over them from a position on.
What would lie outside is dropped. -/
def overlay (memory : Memory) (data : Array UInt8) (start : Nat) : Memory where
  cells := memory.cells.mapIdx fun index old =>
    if start ≤ index then data.getD (index - start) old else old
  nonempty := by simpa using memory.nonempty

/-- Writes a block of bytes from an address on.  The first and the last address
are checked before any cell is written, so a block either fits or changes
nothing.  An empty block fits everywhere. -/
def loadImage (memory : Memory) (data : Array UInt8) (start : Int) :
    Except AddressError Memory :=
  if data.isEmpty then .ok memory
  else if ¬ memory.Contains start then .error ⟨start, memory.length⟩
  else if ¬ memory.Contains (start + data.size - 1) then
    .error ⟨start + data.size - 1, memory.length⟩
  else .ok (memory.overlay data start.toNat)

/-- All bytes in the order of their addresses. -/
def snapshot (memory : Memory) : List UInt8 :=
  memory.cells.toList

/-!
## What each operation does to the cells

The bytes are told through `byteAt?`, which has none outside the row.
-/

theorem byteAt?_eq_none_iff (memory : Memory) (address : Int) :
    memory.byteAt? address = none ↔ ¬ memory.Contains address := by
  by_cases lower : 0 ≤ address
  · simp only [byteAt?, if_pos lower, Array.getElem?_eq_none_iff, Contains, length]
    omega
  · simp [byteAt?, Contains, lower]

theorem load_eq_error_iff (memory : Memory) (address : Int) (error : AddressError) :
    memory.load address = .error error ↔
      ¬ memory.Contains address ∧ error = ⟨address, memory.length⟩ := by
  rw [← byteAt?_eq_none_iff, load]
  cases memory.byteAt? address with
  | none =>
    simp only [Except.error.injEq, true_and]
    exact eq_comm
  | some byte => simp

@[simp] theorem load_eq_ok_iff (memory : Memory) (address : Int) (byte : UInt8) :
    memory.load address = .ok byte ↔ memory.byteAt? address = some byte := by
  rw [load]
  cases memory.byteAt? address with
  | none => simp
  | some found => simp

@[simp] theorem length_zeroed (length : Nat) (positive : 0 < length) :
    (zeroed length positive).length = length := by
  simp [zeroed, Memory.length]

@[grind =>] theorem length_store {memory after : Memory} {address value : Int}
    (stored : memory.store address value = .ok after) : after.length = memory.length := by
  unfold store at stored
  split at stored
  · cases stored
    simp [length]
  · cases stored

/-- After a write the address has the low bits of the value and every other
address what it had before. -/
@[grind =>] theorem byteAt?_store {memory after : Memory} {address value : Int}
    (stored : memory.store address value = .ok after) (other : Int) :
    after.byteAt? other =
      if other = address then some (Byte.ofInt value) else memory.byteAt? other := by
  unfold store at stored
  split at stored
  case isFalse => cases stored
  case isTrue inside =>
    cases stored
    by_cases same : other = address
    · subst same
      simp [byteAt?, inside.1, inside.toNat_lt]
    · by_cases lower : 0 ≤ other
      · have apart : address.toNat ≠ other.toNat := by
          have := inside.1
          omega
        simp [byteAt?, lower, same, apart]
      · simp [byteAt?, lower, same]

@[simp] theorem length_overlay (memory : Memory) (data : Array UInt8) (start : Nat) :
    (memory.overlay data start).length = memory.length := by
  simp [overlay, length]

/-- A block that fits leaves as many cells as there were. -/
theorem length_loadImage {memory after : Memory} {data : Array UInt8} {start : Int}
    (placed : memory.loadImage data start = .ok after) : after.length = memory.length := by
  unfold loadImage at placed
  split at placed
  · cases placed
    rfl
  · split at placed
    · cases placed
    · split at placed
      · cases placed
      · cases placed
        exact length_overlay memory data start.toNat

/-- Under a block an address has the byte of the block, elsewhere what it had
before. -/
theorem byteAt?_overlay (memory : Memory) (data : Array UInt8) (start : Nat) (address : Int)
    (inside : memory.Contains address) :
    (memory.overlay data start).byteAt? address =
      if start ≤ address ∧ address < start + data.size then data[address.toNat - start]?
      else memory.byteAt? address := by
  have lower := inside.1
  have bound := inside.toNat_lt
  simp only [byteAt?, overlay, if_pos lower, Array.getElem?_mapIdx,
    Array.getElem?_eq_getElem bound, Option.map_some]
  by_cases covered : start ≤ address ∧ address < start + data.size
  · have reached : start ≤ address.toNat := by omega
    have within : address.toNat - start < data.size := by omega
    simp [covered, reached, Array.getD, within]
  · rw [if_neg covered]
    by_cases reached : start ≤ address.toNat
    · have beyond : ¬ address.toNat - start < data.size := by omega
      simp [reached, Array.getD, beyond]
    · simp [reached]

/-- An empty block covers nothing. -/
theorem overlay_of_isEmpty (memory : Memory) {data : Array UInt8} (empty : data.isEmpty = true)
    (start : Nat) : memory.overlay data start = memory := by
  have nothing : data = #[] := Array.isEmpty_iff.mp empty
  rcases memory with ⟨cells, nonempty⟩
  simp only [overlay, nothing, Memory.mk.injEq]
  ext index old
  · simp
  · simp

/-- A block that is no longer than the memory fits from address zero on. -/
theorem loadImage_of_le {memory : Memory} {data : Array UInt8} (fits : data.size ≤ memory.length) :
    memory.loadImage data 0 = .ok (memory.overlay data 0) := by
  unfold loadImage
  cases empty : data.isEmpty with
  | true => rw [if_pos rfl, memory.overlay_of_isEmpty empty]
  | false =>
    have positive : 0 < data.size := by
      rw [Array.isEmpty_eq_false_iff_exists_mem] at empty
      obtain ⟨byte, member⟩ := empty
      exact Array.size_pos_of_mem member
    have first : memory.Contains 0 := ⟨Int.le_refl 0, by omega⟩
    have last : memory.Contains (0 + data.size - 1) := ⟨by omega, by omega⟩
    simp only [Bool.false_eq_true, if_false, first, last, not_true]
    rfl

/-- A longer block does not fit, and the address of its last byte is the one that is
refused. -/
theorem loadImage_of_lt {memory : Memory} {data : Array UInt8}
    (exceeds : memory.length < data.size) :
    memory.loadImage data 0 = .error ⟨data.size - 1, memory.length⟩ := by
  have nonempty : data.isEmpty = false := by
    rw [Array.isEmpty_eq_false_iff]
    rintro rfl
    exact absurd exceeds (Nat.not_lt_zero _)
  have first : memory.Contains 0 := ⟨Int.le_refl 0, Int.ofNat_lt.mpr memory.nonempty⟩
  have last : ¬ memory.Contains (data.size - 1) := by
    rintro ⟨_, upper⟩
    omega
  simp only [loadImage, nonempty, Bool.false_eq_true, if_false, first, last, not_true,
    not_false_eq_true, if_true, Int.zero_add]

end Memory
end EightBit
