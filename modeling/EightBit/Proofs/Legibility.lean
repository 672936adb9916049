import EightBit.Proofs.Arithmetic
import EightBit.Proofs.InstructionTable
import EightBit.Proofs.Numerals
import EightBit.Proofs.Recording

namespace EightBit

/-!
# What a line of a trace tells

A line of a trace tells everything of its entry.  Its columns are separated by blanks, and
the mnemonic is filled with blanks, so the columns are the words of the line
(`words_line`); no column has a blank in it as long as the mnemonic has none.  Each column
tells its part of the entry: numbers are told by their numerals, the mnemonic as it is, and
the flags by the names that are listed.
-/

namespace Text

/-- The words of a text, which blanks separate. -/
def words (text : List Char) : List (List Char) :=
  (text.splitOn ' ').filter fun word => !word.isEmpty

/-- A text that is one word. -/
structure IsWord (text : List Char) : Prop where
  ne_nil : text ≠ []
  solid : ' ' ∉ text

theorem words_append_blank (first rest : List Char) :
    words (first ++ ' ' :: rest) = words first ++ words rest := by
  rw [words, List.splitOn_append_cons_self, List.filter_append]
  rfl

theorem IsWord.words {text : List Char} (isWord : IsWord text) : words text = [text] := by
  have shown : (!text.isEmpty) = true := by
    simpa only [Bool.not_eq_true', List.isEmpty_eq_false_iff] using isWord.ne_nil
  rw [Text.words, List.splitOn_eq_singleton isWord.solid, List.filter_cons, if_pos shown]
  rfl

theorem words_append_replicate (text : List Char) (count : Nat) :
    words (text ++ List.replicate count ' ') = words text := by
  induction count with
  | zero => rw [List.replicate_zero, List.append_nil]
  | succ count inductionHypothesis =>
      rw [List.replicate_succ', ← List.append_assoc, words_append_blank, inductionHypothesis]
      exact List.append_nil _

theorem words_intercalate {texts : List (List Char)} (areWords : ∀ text ∈ texts, IsWord text) :
    words ([' '].intercalate texts) = texts := by
  induction texts with
  | nil => rfl
  | cons first rest inductionHypothesis =>
      have isWord := areWords first List.mem_cons_self
      have later := inductionHypothesis fun text member =>
        areWords text (List.mem_cons_of_mem _ member)
      cases rest with
      | nil => exact (congrArg words (List.append_nil first)).trans isWord.words
      | cons second rest =>
          rw [List.intercalate_cons_cons, List.append_assoc, List.singleton_append,
            words_append_blank, isWord.words, later]
          rfl

end Text

namespace TraceEntry

def shownOpcode (opcode : Option UInt8) : String :=
  match opcode with
  | some byte => opcodeLayout.write (Byte.toInt byte)
  | none => "--"

/-- What the column of the mnemonic shows, without the blanks that fill it. -/
def shownMnemonic (mnemonic : String) : String :=
  if mnemonic.isEmpty then "?" else mnemonic

def registerColumns (start : Nat) (registers : List UInt8) : List String :=
  (registers.zipIdx start).map fun (value, index) => registerColumn value index

def columns (entry : TraceEntry) : List String :=
  ("pc=" ++ hexLayout.write entry.pc) :: ("opcode=" ++ shownOpcode entry.opcode) ::
    shownMnemonic entry.mnemonic ::
      (registerColumns 0 entry.registers ++ ["flags=" ++ entry.flagColumn])

/-- An entry as machines with the standard instructions record them. -/
structure Standard (entry : TraceEntry) : Prop where
  pc : 0 ≤ entry.pc
  opcode : ∃ byte, entry.opcode = some byte
  registers : entry.registers.length = 8
  kind :
    (entry.mnemonic ∈ InstructionTable.standardInstructions.map Instruction.mnemonic ∧
      entry.note = "") ∨
    (entry.mnemonic = "" ∧ entry.note = "illegal")

variable {entry : TraceEntry}

theorem positional_hexLayout : Numeral.Positional hexLayout.base :=
  ⟨by decide, by decide⟩

theorem positional_opcodeLayout : Numeral.Positional opcodeLayout.base :=
  ⟨by decide, by decide⟩

/-!
## The columns are the words
-/

theorem blank_not_mem_write {layout : Numeral.Layout}
    (positional : Numeral.Positional layout.base) (unmarked : layout.marker = []) (number : Int) :
    ' ' ∉ (layout.write number).toList := by
  rw [Numeral.Layout.write, String.toList_ofList]
  refine Numeral.Layout.not_mem_chars positional (by decide) ?_ (by decide) number
  rw [unmarked]
  exact List.not_mem_nil

theorem isWord_append {first second : String} (named : Text.IsWord first.toList)
    (solid : ' ' ∉ second.toList) : Text.IsWord (first ++ second).toList := by
  rw [String.toList_append]
  constructor
  · exact List.append_ne_nil_of_left_ne_nil named.ne_nil _
  · rw [List.mem_append, not_or]
    exact ⟨named.solid, solid⟩

theorem isWord_registerColumn (value : UInt8) (index : Nat) :
    Text.IsWord (registerColumn value index).toList := by
  have number : ' ' ∉ (Numeral.decimal index).toList :=
    blank_not_mem_write ⟨by decide, by decide⟩ rfl index
  have sign : ' ' ∉ "=".toList := by decide
  rw [registerColumn]
  refine isWord_append (isWord_append (isWord_append ⟨?_, ?_⟩ number) sign) ?_
  · decide
  · decide
  · exact blank_not_mem_write positional_hexLayout rfl _

theorem blank_not_mem_shownOpcode (opcode : Option UInt8) :
    ' ' ∉ (shownOpcode opcode).toList := by
  cases opcode with
  | none => decide
  | some byte => exact blank_not_mem_write positional_opcodeLayout rfl _

theorem mnemonicColumn_toList (mnemonic : String) : ∃ filled,
    (mnemonicColumn mnemonic).toList =
      (shownMnemonic mnemonic).toList ++ List.replicate filled ' ' :=
  ⟨_, (String.toList_append).trans (congrArg _ String.toList_ofList)⟩

/-- What the column of the flags looks at. -/
def flagsOnly (equal halted : Bool) (note : String) : TraceEntry where
  pc := 0
  opcode := none
  mnemonic := ""
  registers := []
  equal
  halted
  note

theorem flagColumn_eq (entry : TraceEntry) :
    entry.flagColumn = (flagsOnly entry.equal entry.halted entry.note).flagColumn :=
  rfl

theorem flagColumn_flagsOnly : ∀ note ∈ ["", "illegal"], ∀ equal halted,
    ' ' ∉ (flagsOnly equal halted note).flagColumn.toList ∧
    ∀ other ∈ ["", "illegal"], ∀ equal' halted',
      (flagsOnly equal halted note).flagColumn = (flagsOnly equal' halted' other).flagColumn →
        equal = equal' ∧ halted = halted' ∧ note = other := by
  decide +kernel

theorem mnemonics_solid :
    ∀ mnemonic ∈ InstructionTable.standardInstructions.map Instruction.mnemonic,
      ' ' ∉ mnemonic.toList ∧ mnemonic ≠ "?" ∧ mnemonic ≠ "" := by
  decide +kernel

namespace Standard

theorem note_mem (standard : entry.Standard) : entry.note ∈ ["", "illegal"] := by
  rcases standard.kind with ⟨_, note⟩ | ⟨_, note⟩
  · rw [note]
    exact List.mem_cons_self
  · rw [note]
    exact List.mem_cons_of_mem _ List.mem_cons_self

theorem mnemonic_ne (standard : entry.Standard) : entry.mnemonic ≠ "?" := by
  rcases standard.kind with ⟨known, _⟩ | ⟨missing, _⟩
  · exact (mnemonics_solid _ known).2.1
  · rw [missing]
    decide

theorem isWord_shownMnemonic (standard : entry.Standard) :
    Text.IsWord (shownMnemonic entry.mnemonic).toList := by
  rcases standard.kind with ⟨known, _⟩ | ⟨missing, _⟩
  · rcases mnemonics_solid _ known with ⟨solid, _, present⟩
    have shown : shownMnemonic entry.mnemonic = entry.mnemonic :=
      if_neg (by rwa [String.isEmpty_iff])
    rw [shown]
    exact ⟨by rwa [Ne, String.toList_eq_nil_iff], solid⟩
  · rw [missing]
    exact ⟨by decide, by decide⟩

theorem areWords_columns (standard : entry.Standard) :
    ∀ column ∈ entry.columns, Text.IsWord column.toList := by
  have flags := (flagColumn_flagsOnly entry.note standard.note_mem entry.equal entry.halted).1
  intro column member
  rcases List.mem_cons.mp member with rfl | member
  · exact isWord_append ⟨by decide, by decide⟩ (blank_not_mem_write positional_hexLayout rfl _)
  rcases List.mem_cons.mp member with rfl | member
  · exact isWord_append ⟨by decide, by decide⟩ (blank_not_mem_shownOpcode _)
  rcases List.mem_cons.mp member with rfl | member
  · exact standard.isWord_shownMnemonic
  rcases List.mem_append.mp member with register | last
  · rcases List.mem_map.mp register with ⟨⟨value, index⟩, _, rfl⟩
    exact isWord_registerColumn value index
  · rw [List.mem_singleton.mp last, flagColumn_eq]
    exact isWord_append ⟨by decide, by decide⟩ flags

end Standard

/-- The line, with the columns marked out. -/
theorem line_toList (entry : TraceEntry) : ∃ filled, entry.line.toList =
    ("pc=" ++ hexLayout.write entry.pc).toList ++ ' ' ::
      (("opcode=" ++ shownOpcode entry.opcode).toList ++ ' ' ::
        ((shownMnemonic entry.mnemonic).toList ++ List.replicate filled ' ' ++ ' ' ::
          ([' '].intercalate ((registerColumns 0 entry.registers).map String.toList) ++ ' ' ::
            ("flags=" ++ entry.flagColumn).toList))) := by
  rcases mnemonicColumn_toList entry.mnemonic with ⟨filled, column⟩
  refine ⟨filled, ?_⟩
  have opcode : " opcode=".toList = ' ' :: "opcode=".toList := by decide
  have flags : " flags=".toList = ' ' :: "flags=".toList := by decide
  have blank : " ".toList = [' '] := by decide
  simp only [line, String.toList_append, String.toList_intercalate, opcode, flags, blank, column,
    List.append_assoc, List.cons_append, List.nil_append]
  rfl

/-- The words of a line are the columns of its entry. -/
theorem words_line (standard : entry.Standard) :
    Text.words entry.line.toList = entry.columns.map String.toList := by
  have areWords := standard.areWords_columns
  simp only [columns, List.forall_mem_cons, List.forall_mem_append] at areWords
  rcases areWords with ⟨pc, opcode, mnemonic, registers, flags, _⟩
  rcases entry.line_toList with ⟨filled, written⟩
  have apart := Text.words_append_blank
  rw [written, apart, apart, apart, apart, Text.words_append_replicate, pc.words, opcode.words,
    mnemonic.words, flags.words, Text.words_intercalate (List.forall_mem_map.mpr registers)]
  simp only [columns, List.map_cons, List.map_append, List.map_nil, List.cons_append,
    List.nil_append]

/-!
## The columns tell the entry
-/

theorem registerColumn_inj {first second : UInt8} {index : Nat}
    (same : registerColumn first index = registerColumn second index) : first = second := by
  have numerals := String.append_right_inj _ |>.mp same
  exact Byte.toInt_inj (Numeral.Layout.write_injective positional_hexLayout numerals)

theorem registerColumns_inj {first second : List UInt8} {start : Nat}
    (same : registerColumns start first = registerColumns start second) : first = second := by
  induction first generalizing second start with
  | nil =>
      cases second with
      | nil => rfl
      | cons value rest => cases same
  | cons value rest inductionHypothesis =>
      cases second with
      | nil => cases same
      | cons other others =>
          rcases List.cons.inj same with ⟨here, later⟩
          rw [registerColumn_inj here, inductionHypothesis later]

theorem shownMnemonic_inj {first second : String} (shows : first ≠ "?") (shows' : second ≠ "?")
    (same : shownMnemonic first = shownMnemonic second) : first = second := by
  unfold shownMnemonic at same
  split at same <;> split at same
  · rename_i missing missing'
    rw [String.isEmpty_iff.mp missing, String.isEmpty_iff.mp missing']
  · exact absurd same.symm shows'
  · exact absurd same shows
  · exact same

theorem eq_of_columns_eq {first second : TraceEntry} (standard : first.Standard)
    (standard' : second.Standard) (same : first.columns = second.columns) : first = second := by
  rcases standard.opcode with ⟨byte, opcode⟩
  rcases standard'.opcode with ⟨byte', opcode'⟩
  rcases List.cons.inj same with ⟨pcs, same⟩
  rcases List.cons.inj same with ⟨opcodes, same⟩
  rcases List.cons.inj same with ⟨mnemonics, same⟩
  rcases List.append_inj' same rfl with ⟨registers, flags⟩
  have pc_eq := Numeral.Layout.write_injective positional_hexLayout
    ((String.append_right_inj _).mp pcs)
  have opcode_eq : first.opcode = second.opcode := by
    rw [opcode, opcode'] at opcodes ⊢
    exact congrArg some (Byte.toInt_inj (Numeral.Layout.write_injective positional_opcodeLayout
      ((String.append_right_inj _).mp opcodes)))
  have mnemonic_eq := shownMnemonic_inj standard.mnemonic_ne standard'.mnemonic_ne mnemonics
  have registers_eq := registerColumns_inj registers
  have flags_eq := (String.append_right_inj _).mp (List.singleton_inj.mp flags)
  rcases (flagColumn_flagsOnly _ standard.note_mem _ _).2 _ standard'.note_mem _ _ flags_eq with
    ⟨equal_eq, halted_eq, note_eq⟩
  cases first
  cases second
  rw [TraceEntry.mk.injEq]
  exact ⟨pc_eq, opcode_eq, mnemonic_eq, registers_eq, equal_eq, halted_eq, note_eq⟩

/-- Entries that are written alike are the same. -/
theorem eq_of_line_eq {first second : TraceEntry} (standard : first.Standard)
    (standard' : second.Standard) (same : first.line = second.line) : first = second := by
  have columns := congrArg (Text.words ∘ String.toList) same
  simp only [Function.comp_apply, words_line standard, words_line standard'] at columns
  exact eq_of_columns_eq standard standard'
    (List.map_injective_iff.mpr (fun _ _ => String.toList_inj.mp) columns)

end TraceEntry

/-!
## What is recorded
-/

/-- The trace of a machine with the standard instructions that had an empty one, after
anything was done to it. -/
def Trace.Recorded (trace : Trace) : Prop :=
  ∃ (wiring : Wiring) (fuel : Nat) (actions : List Machine.Action) (machine : Machine)
    (capacity : Nat) (positive : 0 < capacity),
    wiring.table = .standard ∧ machine.trace = some (.empty capacity positive) ∧
      (machine.course wiring fuel actions).machine.trace = some trace

namespace Machine

variable {wiring : Wiring} {machine : Machine}

theorem standard_entry (standard : wiring.table = .standard) (running : machine.halted = false)
    (succeeds : machine.succeeds wiring = true) : (machine.entry wiring).Standard := by
  rcases fetched_of_succeeds running succeeds with ⟨opcode, fetched⟩
  have inside := Memory.contains_of_byteAt? fetched
  constructor
  · exact inside.1
  · exact ⟨opcode, fetched⟩
  · exact (List.length_map _).trans Vector.length_toList
  · simp only [entry, fetched, Option.bind_some, standard]
    cases found : InstructionTable.standard.find? opcode with
    | none => exact Or.inr ⟨rfl, rfl⟩
    | some instruction =>
        rw [InstructionTable.find?_of_build InstructionTable.build_standardInstructions] at found
        exact Or.inl ⟨List.mem_map_of_mem (List.mem_of_find?_eq_some found), rfl⟩

theorem standard_of_mem_recorded {trace : Trace} (recorded : trace.Recorded)
    {entry : TraceEntry} (member : entry ∈ trace.toList) : entry.Standard := by
  rcases recorded with
    ⟨wiring, fuel, actions, machine, capacity, positive, standard, empty, traced⟩
  have leads := leads_of_course wiring fuel actions machine
  have told := leads.trace
  rw [empty, traced] at told
  rw [Option.some.inj told, Trace.toList_appendAll] at member
  rcases List.mem_map.mp (List.mem_of_mem_drop member) with ⟨before, passes, rfl⟩
  rcases List.mem_filter.mp passes with ⟨begins, succeeds⟩
  exact standard_entry standard (leads.running before begins) succeeds

end Machine

/-- What a trace shows as a line is one of its entries. -/
theorem Trace.entry_of_line {trace : Trace} {limit : Option Int} {index : Nat} {text : String}
    (shown : (trace.lines limit)[index]? = some text) :
    ∃ entry ∈ trace.toList, (trace.entries limit)[index]? = some entry ∧ entry.line = text := by
  rw [lines, List.getElem?_map] at shown
  rcases Option.map_eq_some_iff.mp shown with ⟨entry, found, rfl⟩
  have member := List.mem_of_getElem? found
  rw [entries_eq_rtake] at member
  exact ⟨entry, List.mem_of_mem_drop member, found, rfl⟩

/-- A line tells everything of its entry.  Wherever traces of machines with the standard
instructions show the same line, they show the same entry. -/
theorem Trace.lines_identify :
    (∀ first second : TraceEntry, first.Standard → second.Standard →
      (first.line = second.line ↔ first = second)) ∧
    ∀ trace other : Trace, trace.Recorded → other.Recorded →
      ∀ (limit limit' : Option Int) (index index' : Nat) (text : String),
        (trace.lines limit)[index]? = some text → (other.lines limit')[index']? = some text →
          ∃ entry : TraceEntry, entry.Standard ∧ entry.line = text ∧
            (trace.entries limit)[index]? = some entry ∧
            (other.entries limit')[index']? = some entry := by
  constructor
  · intro first second standard standard'
    exact ⟨TraceEntry.eq_of_line_eq standard standard', congrArg TraceEntry.line⟩
  · intro trace other recorded recorded' limit limit' index index' text shown shown'
    rcases entry_of_line shown with ⟨entry, member, found, written⟩
    rcases entry_of_line shown' with ⟨entry', member', found', written'⟩
    have standard := Machine.standard_of_mem_recorded recorded member
    have standard' := Machine.standard_of_mem_recorded recorded' member'
    have same := TraceEntry.eq_of_line_eq standard standard' (written.trans written'.symm)
    exact ⟨entry, standard, written, found, same ▸ found'⟩

/-- The machine that pushes over its own opcode, with a device that fails at the first value.
Its last cycle is shown behind others, and on its own when no more is asked for. -/
theorem Trace.lines_identify_writesOverItself :
    let wiring : Wiring := { device := fun index => { fails := index = 0 } }
    let run : Machine.Action := .request (.call (.run none))
    let actions := [run, run, run, .request .reset, run]
    ∃ trace, (Machine.writesOverItself.course wiring 9 actions).machine.trace = some trace ∧
      ∃ entry : TraceEntry, entry.Standard ∧
        (trace.entries none)[2]? = some entry ∧ (trace.entries (some 1))[0]? = some entry ∧
        entry.line = "pc=00 opcode=01000011 ?   R0=00 R1=00 R2=00 R3=00 R4=00 R5=00 R6=00 " ++
          "R7=F8 flags=HALT,illegal" := by
  intro wiring run actions
  let final := (Machine.writesOverItself.course wiring 9 actions).machine
  have shown : ∃ trace ∈ final.trace, (trace.lines none)[2]? = some (
      "pc=00 opcode=01000011 ?   R0=00 R1=00 R2=00 R3=00 R4=00 R5=00 R6=00 " ++
        "R7=F8 flags=HALT,illegal") ∧
      (trace.lines (some 1))[0]? = (trace.lines none)[2]? := by
    decide +kernel
  rcases shown with ⟨trace, traced, last, alone⟩
  have recorded : trace.Recorded :=
    ⟨wiring, 9, actions, _, 3, by decide, rfl, rfl, traced⟩
  rcases lines_identify.2 trace trace recorded recorded none (some 1) 2 0 _ last
    (alone.trans last) with ⟨entry, standard, written, found, found'⟩
  exact ⟨trace, traced, entry, standard, found, found', written⟩

end EightBit
