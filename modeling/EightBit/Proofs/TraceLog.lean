import Mathlib.Data.List.DropRight
import Mathlib.Data.List.Induction
import EightBit.Trace

namespace EightBit
namespace Trace

/-!
# The trace is the end of a log

Imagine a log that is never cut, with an entry for each step that was recorded.  What a
trace shows is the end of this log, as far as its ring reaches and no further than the
limit lets it.

The ring is read in order by `toList`: recording changes this list as it changes the end
of the log.  `getElem?_toList` then says where in the ring its entries are, before and
after the ring has come round, and this is where `entries` and `last?` look for them.
-/

/-- What a trace is told of a step. -/
structure Step where
  cells : List Int
  equal : Bool
  pc : Int
  opcode : Option Int
  halted : Bool
  mnemonic : String := ""
  note : String := ""
deriving DecidableEq, Repr

def Step.entry (step : Step) : TraceEntry where
  pc := step.pc
  opcode := step.opcode.map Byte.ofInt
  mnemonic := step.mnemonic
  registers := step.cells.map Byte.ofInt
  equal := step.equal
  halted := step.halted
  note := step.note

/-- An entry tells of a step.  Opcode and registers are told modulo 256. -/
structure Step.Shows (step : Step) (entry : TraceEntry) : Prop where
  pc : entry.pc = step.pc
  opcode : entry.opcode.map Byte.toInt = step.opcode.map (· % 256)
  mnemonic : entry.mnemonic = step.mnemonic
  registers : entry.registers.map Byte.toInt = step.cells.map (· % 256)
  equal : entry.equal = step.equal
  halted : entry.halted = step.halted
  note : entry.note = step.note

def recordStep (trace : Trace) (step : Step) : Trace :=
  trace.record step.cells step.equal step.pc step.opcode step.halted step.mnemonic step.note

def recordAll (trace : Trace) (steps : List Step) : Trace :=
  steps.foldl recordStep trace

theorem Step.shows_entry (step : Step) : step.Shows step.entry where
  pc := rfl
  opcode := by
    rw [entry, Option.map_map]
    exact congrArg step.opcode.map (funext Byte.toInt_ofInt)
  mnemonic := rfl
  registers := by
    rw [entry, List.map_map]
    exact congrArg step.cells.map (funext Byte.toInt_ofInt)
  equal := rfl
  halted := rfl
  note := rfl

/-!
## The ring in order
-/

@[simp] theorem capacity_append (trace : Trace) (entry : TraceEntry) :
    (trace.append entry).capacity = trace.capacity := by
  unfold append
  split <;> rfl

def appendAll (trace : Trace) (entries : List TraceEntry) : Trace :=
  entries.foldl append trace

theorem recordAll_eq (trace : Trace) (steps : List Step) :
    trace.recordAll steps = trace.appendAll (steps.map Step.entry) := by
  rw [recordAll, appendAll, List.foldl_map]
  rfl

theorem appendAll_append (trace : Trace) (entries later : List TraceEntry) :
    trace.appendAll (entries ++ later) = (trace.appendAll entries).appendAll later :=
  List.foldl_append

@[simp] theorem capacity_appendAll (trace : Trace) (entries : List TraceEntry) :
    (trace.appendAll entries).capacity = trace.capacity := by
  induction entries generalizing trace with
  | nil => rfl
  | cons entry rest inductionHypothesis =>
      simpa [appendAll] using inductionHypothesis (trace.append entry)

/-- A ring that holds the end of a log still does when the same is appended to both.  While there
is room the end is the whole log; after that the oldest entry of the ring is the one that falls
out of it. -/
theorem toList_append_of_rtake {trace : Trace} {log : List TraceEntry}
    (held : trace.toList = log.rtake trace.capacity) (entry : TraceEntry) :
    (trace.append entry).toList = (log ++ [entry]).rtake trace.capacity := by
  have size_eq : trace.ring.size = log.length - (log.length - trace.capacity) := by
    rw [← List.length_drop, ← List.rtake, ← held]
    exact (length_toList trace).symm
  have positive := trace.positive
  by_cases room : trace.ring.size < trace.capacity
  · have short : log.length + 1 ≤ trace.capacity := by omega
    rw [toList_append_of_room trace entry room, held, List.rtake, List.rtake, List.length_append,
      List.length_singleton, Nat.sub_eq_zero_of_le short, Nat.sub_eq_zero_of_le (by omega),
      List.drop_zero, List.drop_zero]
  · have long : trace.capacity ≤ log.length := by omega
    rw [toList_append_of_full trace entry room, held, List.rtake, List.rtake, List.tail_drop,
      List.length_append, List.length_singleton, Nat.sub_add_comm long,
      List.drop_append_of_le_length (by omega)]

/-- The ring of a trace that was empty holds the end of the log. -/
theorem toList_appendAll (capacity : Nat) (positive : 0 < capacity)
    (entries : List TraceEntry) :
    ((empty capacity positive).appendAll entries).toList = entries.rtake capacity := by
  induction entries using List.reverseRecOn with
  | nil =>
      simp [appendAll]
  | append_singleton entries entry inductionHypothesis =>
      have kept := capacity_appendAll (empty capacity positive) entries
      have held : ((empty capacity positive).appendAll entries).toList =
          entries.rtake ((empty capacity positive).appendAll entries).capacity := by
        rw [inductionHypothesis, kept]
        rfl
      rw [appendAll_append]
      exact (toList_append_of_rtake held entry).trans (congrArg _ kept)

theorem toList_recordAll (capacity : Nat) (positive : 0 < capacity) (steps : List Step) :
    ((empty capacity positive).recordAll steps).toList =
      (steps.map Step.entry).rtake capacity := by
  rw [recordAll_eq, toList_appendAll]

/-- The oldest entry lies as far behind the place of the next one as there are entries,
counted around the ring, and the others follow it around: a full ring is read from the place of
the next entry to its end, and then from its beginning. -/
theorem getElem?_toList (trace : Trace) {index : Nat} (bound : index < trace.size) :
    trace.toList[index]? =
      trace.ring[(trace.next + trace.capacity - trace.size + index) % trace.capacity]? := by
  have fits := trace.size_le
  have next_lt := trace.next_lt
  simp only [size] at bound ⊢
  by_cases room : trace.ring.size < trace.capacity
  · have place : trace.next + trace.capacity - trace.ring.size + index =
        trace.capacity + index := by
      rw [trace.next_eq room]
      omega
    rw [toList_eq_ring trace room, place, Nat.add_mod_left, Nat.mod_eq_of_lt (by omega),
      Array.getElem?_toList]
  · have place : trace.next + trace.capacity - trace.ring.size + index = trace.next + index := by
      omega
    rw [place, toList]
    by_cases behind : trace.next + index < trace.capacity
    · rw [List.getElem?_append_left (by simp; omega), List.getElem?_drop, Nat.mod_eq_of_lt behind,
        Array.getElem?_toList]
    · have around : index - (trace.ring.toList.drop trace.next).length =
          trace.next + index - trace.capacity := by
        rw [List.length_drop, Array.length_toList]
        omega
      rw [List.getElem?_append_right (by simp; omega), around,
        List.getElem?_take_of_lt (by omega), Nat.mod_eq_sub_mod (by omega),
        Nat.mod_eq_of_lt (by omega), Array.getElem?_toList]

/-!
## What a trace shows
-/

theorem filterMap_getElem?_range (list : List α) (count : Nat) :
    (List.range count).filterMap (fun index => list[index]?) = list.take count := by
  induction count with
  | zero => rfl
  | succ count inductionHypothesis =>
      rw [List.range_succ, List.filterMap_append, inductionHypothesis, List.take_add_one]
      cases found : list[count]? <;> simp [found]

theorem shown_le_size (trace : Trace) (limit : Option Int) : trace.shown limit ≤ trace.size := by
  cases limit with
  | none => exact Nat.le_refl _
  | some limit => exact Nat.min_le_left _ _

theorem entries_eq_rtake (trace : Trace) (limit : Option Int) :
    trace.entries limit = trace.toList.rtake (trace.shown limit) := by
  have within := trace.shown_le_size limit
  have place : ∀ offset ∈ List.range (trace.shown limit),
      trace.ring[(trace.next + trace.capacity - trace.shown limit + offset) % trace.capacity]? =
        (trace.toList.rtake (trace.shown limit))[offset]? := by
    intro offset member
    have before := List.mem_range.mp member
    have bound : trace.size - trace.shown limit + offset < trace.size := by omega
    have fits : trace.size ≤ trace.capacity := trace.size_le
    rw [List.rtake, length_toList, List.getElem?_drop, getElem?_toList trace bound]
    congr 2
    omega
  rw [entries, List.filterMap_congr place, filterMap_getElem?_range]
  apply List.take_of_length_le
  rw [List.rtake, List.length_drop, length_toList]
  omega

@[simp] theorem rtake_map (f : α → β) (list : List α) (count : Nat) :
    (list.map f).rtake count = (list.rtake count).map f := by
  rw [List.rtake, List.rtake, List.map_drop, List.length_map]

/-- The lines of a ring that is asked for as many entries as it can hold. -/
theorem lines_appendAll {limit : Int} (positive : 0 < limit.toNat) (entries : List TraceEntry) :
    ((empty limit.toNat positive).appendAll entries).lines (some limit) =
      (entries.map TraceEntry.line).rtake limit.toNat := by
  have bound := ((empty limit.toNat positive).appendAll entries).size_le
  rw [capacity_appendAll] at bound
  have all : ((empty limit.toNat positive).appendAll entries).shown (some limit) =
      ((empty limit.toNat positive).appendAll entries).toList.length := by
    rw [length_toList]
    exact Nat.min_eq_left bound
  rw [lines, entries_eq_rtake, all, List.rtake, Nat.sub_self, List.drop_zero, toList_appendAll,
    rtake_map]

theorem last?_eq_getLast? (trace : Trace) : trace.last? = trace.toList.getLast? := by
  rw [last?, List.getLast?_eq_getElem?, length_toList]
  by_cases nothing : trace.size = 0
  · have no_entry : trace.toList = [] :=
      List.length_eq_zero_iff.mp (trace.length_toList.trans nothing)
    rw [if_pos nothing, no_entry]
    rfl
  · have bound : trace.size - 1 < trace.size := by omega
    have fits : trace.size ≤ trace.capacity := trace.size_le
    rw [if_neg nothing, getElem?_toList trace bound]
    congr 2
    omega

/-- A line is shown as it is, also where it would be a template. -/
theorem dump_eq (trace : Trace) (selection : Diagnostics.Selection) (category : String)
    (limit : Option Int) :
    trace.dump selection category limit =
      .ok (if selection.wants (some category) then
        (trace.lines limit).map (Diagnostics.line category) else []) := by
  have logged : ∀ text, Diagnostics.log selection category text [] =
      .ok (if selection.wants (some category) then some (Diagnostics.line category text)
        else none) := by
    intro text
    rw [Diagnostics.log]
    split <;> rfl
  have messages : (trace.lines limit).mapM
        (fun text => Diagnostics.log selection category text []) =
      .ok ((trace.lines limit).map fun text =>
        if selection.wants (some category) then some (Diagnostics.line category text)
        else none) := by
    simp only [logged]
    exact List.mapM_pure
  rw [dump, messages]
  refine congrArg Except.ok ?_
  rw [List.filterMap_map]
  split
  · simp
  · exact List.filterMap_eq_nil_iff.mpr fun _ _ => rfl

/-- How many of the steps that were recorded a trace shows. -/
def visible (recorded capacity : Nat) (limit : Option Int) : Nat :=
  match limit with
  | none => min recorded capacity
  | some limit => min (min recorded capacity) (max limit 0).toNat

theorem create_eq_ok {capacity : Nat} (positive : 0 < capacity) {limit : Extent.Limit}
    (fits : (capacity : Int) ≤ limit.greatest) :
    create capacity limit = .ok (empty capacity positive) := by
  rw [create, dif_pos (by omega), (limit.excess?_eq_none_iff _).mpr fits]
  rfl

theorem visible_le (recorded capacity : Nat) (limit : Option Int) :
    visible recorded capacity limit ≤ min recorded capacity := by
  cases limit with
  | none => exact Nat.le_refl _
  | some limit => exact Nat.min_le_left _ _

@[simp] theorem length_rtake (list : List α) (count : Nat) :
    (list.rtake count).length = min list.length count := by
  rw [List.rtake, List.length_drop]
  omega

theorem rtake_rtake (list : List α) {count more : Nat} (le : count ≤ more) :
    (list.rtake more).rtake count = list.rtake count := by
  rw [List.rtake, List.rtake, List.rtake, List.drop_drop, List.length_drop]
  congr 1
  omega

theorem getLast?_rtake (list : List α) {count : Nat} (positive : 0 < count) :
    (list.rtake count).getLast? = list.getLast? := by
  rw [List.rtake, List.getLast?_drop]
  split
  · have nothing : list = [] := List.length_eq_zero_iff.mp (by omega)
    rw [nothing]
    rfl
  · rfl

/-- A trace shows the end of the log of all steps that it was told of. -/
theorem recordAll_shows (capacity : Nat) (positive : 0 < capacity) (steps : List Step) :
    let trace := (empty capacity positive).recordAll steps
    (∀ limit : Extent.Limit, (capacity : Int) ≤ limit.greatest →
      create capacity limit = .ok (empty capacity positive)) ∧
    trace.size = min steps.length capacity ∧
    (∀ limit,
      let latest := steps.rtake (visible steps.length capacity limit)
      latest.length = visible steps.length capacity limit ∧
      trace.entries limit = latest.map Step.entry ∧
      trace.lines limit = latest.map (fun step => step.entry.line) ∧
      ∀ selection category, trace.dump selection category limit =
        .ok (if selection.wants (some category) then
          latest.map fun step => "[LS8][" ++ category ++ "] " ++ step.entry.line else [])) ∧
    trace.last? = steps.getLast?.map Step.entry ∧
    ∀ step ∈ steps, step.Shows step.entry := by
  intro trace
  have log : trace.toList = (steps.rtake capacity).map Step.entry := by
    rw [toList_recordAll, rtake_map]
  have size_eq : trace.size = min steps.length capacity := by
    rw [← length_toList, log, List.length_map, length_rtake]
  have shown_eq : ∀ limit, trace.shown limit = visible steps.length capacity limit := by
    intro limit
    cases limit with
    | none => exact size_eq
    | some limit =>
        rw [shown, visible, size_eq]
        omega
  refine ⟨fun _ => create_eq_ok positive, size_eq, ?_, ?_, fun step _ => step.shows_entry⟩
  · intro limit latest
    have bound := visible_le steps.length capacity limit
    have shows : trace.entries limit = latest.map Step.entry := by
      rw [entries_eq_rtake, shown_eq, log, rtake_map, rtake_rtake steps (by omega)]
    have lines_eq : trace.lines limit = latest.map fun step => step.entry.line := by
      rw [lines, shows, List.map_map]
      rfl
    refine ⟨?_, shows, lines_eq, ?_⟩
    · rw [length_rtake]
      omega
    · intro selection category
      rw [dump_eq, lines_eq, List.map_map]
      rfl
  · rw [last?_eq_getLast?, log, List.getLast?_map, getLast?_rtake steps positive]

/-- Three steps, the last with a note that could be taken for a template. -/
def threeSteps : List Step := [
  { cells := [1], equal := false, pc := 0, opcode := some 4, halted := false, mnemonic := "LDI" },
  { cells := [257], equal := false, pc := 3, opcode := some 4, halted := false, mnemonic := "LDI" },
  { cells := [-1], equal := true, pc := 6, opcode := none, halted := true, note := "50%s" }]

/-- A ring for two has lost the first of them. -/
theorem recordAll_shows_threeSteps :
    let trace := (empty 2 (by decide)).recordAll threeSteps
    trace.size = 2 ∧ trace.entries none = threeSteps.tail.map Step.entry ∧
      trace.dump { categories := [.all] } "cpu" (some 1) =
        .ok ["[LS8][cpu] pc=06 opcode=-- ?   R0=FF flags=EQ,HALT,50%s"] := by
  intro trace
  rcases recordAll_shows 2 (by decide) threeSteps with ⟨_, size_eq, shows, _⟩
  refine ⟨size_eq, (shows none).2.1, ?_⟩
  refine ((shows (some 1)).2.2.2 { categories := [.all] } "cpu").trans ?_
  decide +kernel

end Trace
end EightBit
