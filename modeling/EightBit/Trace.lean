import EightBit.Byte
import EightBit.Diagnostics
import EightBit.Extent
import EightBit.Numeral

namespace EightBit

/-!
# Execution traces

A trace keeps what the machine looked like after each of its latest cycles.
It is a ring: once it is full, a new entry takes the place of the oldest.  The
ring grows with its entries, so a trace of great capacity costs nothing until
it is filled.
-/

/-- One cycle: where it began, what was fetched, and the general registers, the
equal flag and the status after it. -/
structure TraceEntry where
  pc : Int
  opcode : Option UInt8
  mnemonic : String
  registers : List UInt8
  equal : Bool
  halted : Bool
  note : String
deriving DecidableEq, Repr

namespace TraceEntry

/-- Addresses and registers are shown with two capital hexadecimal digits. -/
def hexLayout : Numeral.Layout where
  base := 16
  width := 2
  capitals := true

/-- The opcode is shown with eight binary digits. -/
def opcodeLayout : Numeral.Layout where
  base := 2
  width := 8

/-- A mnemonic in a column of at least three characters.  A missing one is
shown as a question mark. -/
def mnemonicColumn (mnemonic : String) : String :=
  let shown := if mnemonic.isEmpty then "?" else mnemonic
  shown ++ String.ofList (List.replicate (3 - shown.length) ' ')

/-- The flags of an entry and its note, or a dash when there is none. -/
def flagColumn (entry : TraceEntry) : String :=
  let flags := (if entry.equal then ["EQ"] else []) ++ (if entry.halted then ["HALT"] else []) ++
    (if entry.note.isEmpty then [] else [entry.note])
  if flags.isEmpty then "-" else ",".intercalate flags

def registerColumn (value : UInt8) (index : Nat) : String :=
  "R" ++ Numeral.decimal index ++ "=" ++ hexLayout.write (Byte.toInt value)

def line (entry : TraceEntry) : String :=
  let opcode := match entry.opcode with
    | some byte => opcodeLayout.write (Byte.toInt byte)
    | none => "--"
  let registers := " ".intercalate (entry.registers.zipIdx.map fun (value, index) =>
    registerColumn value index)
  "pc=" ++ hexLayout.write entry.pc ++ " opcode=" ++ opcode ++ " " ++
    mnemonicColumn entry.mnemonic ++ " " ++ registers ++ " flags=" ++ entry.flagColumn

end TraceEntry

/-- A ring of entries.  While there is room the next entry goes behind the
last; after that it goes where the oldest one is. -/
structure Trace where
  capacity : Nat
  positive : 0 < capacity
  ring : Array TraceEntry
  next : Nat
  size_le : ring.size ≤ capacity
  next_lt : next < capacity
  next_eq : ring.size < capacity → next = ring.size

namespace Trace

/-- Why there is no trace of an asked capacity. -/
inductive CapacityError where
  | notPositive
  | excess (cause : Extent.Excess)
deriving DecidableEq, Repr

def CapacityError.message : CapacityError → String
  | notPositive => "capacity must be positive"
  | excess cause => cause.message

def empty (capacity : Nat) (positive : 0 < capacity) : Trace where
  capacity
  positive
  ring := #[]
  next := 0
  size_le := Nat.zero_le _
  next_lt := positive
  next_eq := fun _ => rfl

def create (capacity : Int) (limit : Extent.Limit := .usual) : Except CapacityError Trace :=
  if positive : 0 < capacity then
    match limit.excess? capacity with
    | some cause => .error (.excess cause)
    | none => .ok (empty capacity.toNat (Extent.toNat_pos positive))
  else .error .notPositive

def size (trace : Trace) : Nat :=
  trace.ring.size

/-- Appends an entry, in place of the oldest when the ring is full. -/
def append (trace : Trace) (entry : TraceEntry) : Trace :=
  if room : trace.ring.size < trace.capacity then
    { capacity := trace.capacity
      positive := trace.positive
      ring := trace.ring.push entry
      next := (trace.next + 1) % trace.capacity
      size_le := by simp only [Array.size_push]; omega
      next_lt := Nat.mod_lt _ trace.positive
      next_eq := by
        intro more
        simp only [Array.size_push] at more ⊢
        rw [trace.next_eq room, Nat.mod_eq_of_lt more] }
  else
    have full : trace.next < trace.ring.size := by
      have := trace.next_lt
      omega
    { capacity := trace.capacity
      positive := trace.positive
      ring := trace.ring.set trace.next entry
      next := (trace.next + 1) % trace.capacity
      size_le := by simpa only [Array.size_set] using trace.size_le
      next_lt := Nat.mod_lt _ trace.positive
      next_eq := by
        intro more
        simp only [Array.size_set] at more
        exact absurd more room }

/-- The entries from the oldest to the latest: those from the place of the next
entry on, then those before it. -/
def toList (trace : Trace) : List TraceEntry :=
  trace.ring.toList.drop trace.next ++ trace.ring.toList.take trace.next

@[simp] theorem toList_empty (capacity : Nat) (positive : 0 < capacity) :
    (empty capacity positive).toList = [] := by
  simp [toList, empty]

@[simp] theorem length_toList (trace : Trace) : trace.toList.length = trace.size := by
  simp only [toList, List.length_append, List.length_drop, List.length_take, size,
    Array.length_toList]
  omega

/-- While there is room the ring lies in order. -/
theorem toList_eq_ring (trace : Trace) (room : trace.ring.size < trace.capacity) :
    trace.toList = trace.ring.toList := by
  have reached := trace.next_eq room
  have whole : trace.ring.toList.length ≤ trace.next := by
    rw [Array.length_toList]
    omega
  rw [toList, List.drop_eq_nil_of_le whole, List.take_of_length_le whole, List.nil_append]

/-- An entry is appended behind the others while there is room. -/
theorem toList_append_of_room (trace : Trace) (entry : TraceEntry)
    (room : trace.ring.size < trace.capacity) :
    (trace.append entry).toList = trace.toList ++ [entry] := by
  rw [toList_eq_ring trace room]
  have reached := trace.next_eq room
  simp only [append, dif_pos room, toList, Array.toList_push]
  by_cases more : trace.next + 1 < trace.capacity
  · have whole : (trace.ring.toList ++ [entry]).length ≤ trace.next + 1 := by
      simp only [List.length_append, Array.length_toList, List.length_singleton]
      omega
    rw [Nat.mod_eq_of_lt more, List.drop_eq_nil_of_le whole, List.take_of_length_le whole,
      List.nil_append]
  · have full : trace.next + 1 = trace.capacity := by omega
    rw [full, Nat.mod_self, List.drop_zero, List.take_zero, List.append_nil]

/-- A full ring gives up its oldest entry for a new one. -/
theorem toList_append_of_full (trace : Trace) (entry : TraceEntry)
    (full : ¬ trace.ring.size < trace.capacity) :
    (trace.append entry).toList = trace.toList.tail ++ [entry] := by
  have size_eq : trace.ring.toList.length = trace.capacity := by
    have := trace.size_le
    rw [Array.length_toList]
    omega
  have bound : trace.next < trace.ring.toList.length := by
    have := trace.next_lt
    omega
  have old : trace.toList.tail =
      trace.ring.toList.drop (trace.next + 1) ++ trace.ring.toList.take trace.next := by
    rw [toList, List.drop_eq_getElem_cons bound]
    rfl
  rw [old]
  simp only [append, dif_neg full, toList, Array.toList_set]
  by_cases more : trace.next + 1 < trace.capacity
  · rw [Nat.mod_eq_of_lt more, List.drop_set_of_lt (Nat.lt_succ_self _),
      List.append_assoc]
    congr 1
    rw [List.take_succ_eq_append_getElem (by simpa using bound),
      List.take_set_of_le (Nat.le_refl _)]
    simp
  · have last : trace.next + 1 = trace.capacity := by
      have := trace.next_lt
      omega
    have beyond : trace.ring.toList.length ≤ trace.next + 1 := by omega
    rw [last, Nat.mod_self, List.drop_zero, List.take_zero, List.append_nil, ← last,
      List.drop_eq_nil_of_le beyond, List.nil_append, List.set_eq_take_append_cons_drop,
      if_pos bound, List.drop_eq_nil_of_le beyond]

/-- Records a cycle.  Register cells and opcode are cut to eight bits. -/
def record (trace : Trace) (cells : List Int) (equal : Bool) (pc : Int) (opcode : Option Int)
    (halted : Bool) (mnemonic note : String) : Trace :=
  trace.append {
    pc
    opcode := opcode.map Byte.ofInt
    mnemonic
    registers := cells.map Byte.ofInt
    equal
    halted
    note }

/-- How many entries a limit leaves.  A negative limit leaves none. -/
def shown (trace : Trace) (limit : Option Int) : Nat :=
  match limit with
  | none => trace.size
  | some limit => min trace.size limit.toNat

/-- The latest entries, oldest first, at most as many as the limit says. -/
def entries (trace : Trace) (limit : Option Int) : List TraceEntry :=
  let count := trace.shown limit
  (List.range count).filterMap fun offset =>
    trace.ring[(trace.next + trace.capacity - count + offset) % trace.capacity]?

def last? (trace : Trace) : Option TraceEntry :=
  if trace.size = 0 then none
  else trace.ring[(trace.next + trace.capacity - 1) % trace.capacity]?

/-- The lines of the latest entries. -/
def lines (trace : Trace) (limit : Option Int) : List String :=
  (trace.entries limit).map TraceEntry.line

/-- The diagnostic messages that show the latest entries, if their category is
wanted. -/
def dump (trace : Trace) (selection : Diagnostics.Selection) (category : String)
    (limit : Option Int) : Except Text.Template.Overflow (List String) := do
  let messages ← (trace.lines limit).mapM fun text => Diagnostics.log selection category text []
  .ok (messages.filterMap id)

end Trace
end EightBit
