import EightBit.Machine.Loading
import EightBit.Proofs.MemoryHistory

namespace EightBit
namespace Machine

/-!
# Programs are loaded as a whole or not at all

The text of a program comes from a stream or from a file, which has to be decoded first.
Whatever the source, the program is known in full and has been compared with the memory
before a cell is written.  `Source.offer` makes this order visible: it tells without any
machine what a source has for a memory of some length, and `Source.load_eq` says that
loading asks for this offer and then either puts the program into memory or does nothing.

So the lines that can be read before a wrong one leave no bytes behind, and neither does a
program that is one byte too long.
-/

/-- Where the text of a program comes from. -/
inductive Source where
  /-- A text whose line ends stay as they are. -/
  | stream (text : String)
  /-- The content of a file. -/
  | file (encoding : Text.Encoding) (bytes : ByteArray)

namespace Source

/-- The text of a source.  A file is decoded as a whole, and its line ends are then brought to
a single form. -/
def text : Source → Except Text.Undecodable String
  | stream text => .ok text
  | file encoding bytes =>
    (encoding.decode bytes).map fun text => String.ofList (Text.unixLineEnds text.toList)

def load (name : String) : Source → Loading Program
  | stream text => loadText name text
  | file encoding bytes => loadFile name encoding bytes

/-- The program that a source has for a memory of some length, or why it has none. -/
def offer (name : String) (length : Nat) (source : Source) : Except LoadError Program :=
  match source.text with
  | .error error => .error (.undecodable error)
  | .ok text =>
    match Program.parse name text with
    | .error error => .error (.format error)
    | .ok program =>
      if program.bytes.size ≤ length then .ok program
      else .error (.address ⟨program.bytes.size - 1, length⟩)

end Source

/-- A machine with a program in its memory, from address zero on. -/
def holding (machine : Machine) (program : Program) : Machine :=
  { machine with
    memory := machine.memory.overlay program.bytes 0
    journal := machine.journal.add (.placed program.name program.bytes.size) }

namespace Source

variable {name : String} {length : Nat} {source : Source}

/-- What can become of a source: its text cannot be decoded, or it cannot be parsed, or the
program has more bytes than there are cells, or the program is offered. -/
theorem offer_cases (name : String) (length : Nat) (source : Source) :
    (∃ error, source.text = .error error ∧
      source.offer name length = .error (.undecodable error)) ∨
    (∃ text error, source.text = .ok text ∧ Program.parse name text = .error error ∧
      source.offer name length = .error (.format error)) ∨
    (∃ text program, source.text = .ok text ∧ Program.parse name text = .ok program ∧
      length < program.bytes.size ∧
      source.offer name length = .error (.address ⟨program.bytes.size - 1, length⟩)) ∨
    ∃ text program, source.text = .ok text ∧ Program.parse name text = .ok program ∧
      program.bytes.size ≤ length ∧ source.offer name length = .ok program := by
  cases decoded : source.text with
  | error error => exact .inl ⟨error, rfl, by simp only [offer, decoded]⟩
  | ok text =>
      cases parsed : Program.parse name text with
      | error error =>
          exact .inr (.inl ⟨text, error, rfl, parsed, by simp only [offer, decoded, parsed]⟩)
      | ok program =>
          by_cases fits : program.bytes.size ≤ length
          · exact .inr (.inr (.inr ⟨text, program, rfl, parsed, fits,
              by simp only [offer, decoded, parsed, if_pos fits]⟩))
          · exact .inr (.inr (.inl ⟨text, program, rfl, parsed, Nat.lt_of_not_le fits,
              by simp only [offer, decoded, parsed, if_neg fits]⟩))

theorem offer_eq_ok_iff {program : Program} :
    source.offer name length = .ok program ↔
      ∃ text, source.text = .ok text ∧ Program.parse name text = .ok program ∧
        program.bytes.size ≤ length := by
  rcases source.offer_cases name length with ⟨error, decoded, offered⟩ |
    ⟨text, error, decoded, parsed, offered⟩ | ⟨text, found, decoded, parsed, exceeds, offered⟩ |
    ⟨text, found, decoded, parsed, fits, offered⟩
  · simp [decoded, offered]
  · simp [decoded, parsed, offered]
  · simp only [decoded, parsed, offered, reduceCtorEq, Except.ok.injEq, exists_eq_left', false_iff,
      not_and, Nat.not_le]
    rintro rfl
    exact exceeds
  · simp only [decoded, parsed, offered, Except.ok.injEq, exists_eq_left', iff_self_and]
    rintro rfl
    exact fits

theorem offer_eq_undecodable_iff {error : Text.Undecodable} :
    source.offer name length = .error (.undecodable error) ↔ source.text = .error error := by
  rcases source.offer_cases name length with ⟨found, decoded, offered⟩ |
    ⟨text, found, decoded, parsed, offered⟩ | ⟨text, found, decoded, parsed, exceeds, offered⟩ |
    ⟨text, found, decoded, parsed, fits, offered⟩
  all_goals simp [decoded, offered]

theorem offer_eq_format_iff {error : Program.FormatError} :
    source.offer name length = .error (.format error) ↔
      ∃ text, source.text = .ok text ∧ Program.parse name text = .error error := by
  rcases source.offer_cases name length with ⟨found, decoded, offered⟩ |
    ⟨text, found, decoded, parsed, offered⟩ | ⟨text, found, decoded, parsed, exceeds, offered⟩ |
    ⟨text, found, decoded, parsed, fits, offered⟩
  · simp [decoded, offered]
  · simp [decoded, parsed, offered]
  · simp [decoded, parsed, offered]
  · simp [decoded, parsed, offered]

/-- The address of the last byte is the one that is refused. -/
theorem offer_eq_address_iff {error : Memory.AddressError} :
    source.offer name length = .error (.address error) ↔
      ∃ text program, source.text = .ok text ∧ Program.parse name text = .ok program ∧
        length < program.bytes.size ∧ error = ⟨program.bytes.size - 1, length⟩ := by
  rcases source.offer_cases name length with ⟨found, decoded, offered⟩ |
    ⟨text, found, decoded, parsed, offered⟩ | ⟨text, found, decoded, parsed, exceeds, offered⟩ |
    ⟨text, found, decoded, parsed, fits, offered⟩
  · simp [decoded, offered]
  · simp [decoded, parsed, offered]
  · simp [decoded, parsed, offered, exceeds, eq_comm]
  · simp [decoded, parsed, offered, Nat.not_lt.mpr fits]

/-- Loading is asking the source for its offer and then putting all of the program into
memory or leaving the machine alone. -/
theorem load_eq (name : String) (source : Source) (machine : Machine) :
    source.load name machine =
      match source.offer name machine.memory.length with
      | .ok program => .ok program (machine.holding program)
      | .error error => .error error machine := by
  have ofText : ∀ text, loadText name text machine =
      match (Source.stream text).offer name machine.memory.length with
      | .ok program => .ok program (machine.holding program)
      | .error error => .error error machine := by
    intro text
    rw [loadText_eq]
    simp only [offer, Source.text]
    cases Program.parse name text with
    | error error => rfl
    | ok program =>
        dsimp only
        rw [place_eq]
        by_cases fits : program.bytes.size ≤ machine.memory.length
        · rw [Memory.loadImage_of_le fits, if_pos fits]
          rfl
        · rw [Memory.loadImage_of_lt (Nat.lt_of_not_le fits), if_neg fits]
  cases source with
  | stream text => exact ofText text
  | file encoding bytes =>
      show loadFile name encoding bytes machine = _
      unfold loadFile
      cases decoded : encoding.decode bytes with
      | error error => simp only [offer, text, decoded]; rfl
      | ok text =>
          refine (ofText _).trans ?_
          simp only [offer, Source.text, decoded, Except.map]

theorem load_eq_ok_iff {machine after : Machine} {program : Program} :
    source.load name machine = .ok program after ↔
      source.offer name machine.memory.length = .ok program ∧ after = machine.holding program := by
  rw [load_eq]
  cases source.offer name machine.memory.length with
  | error error => simp
  | ok found =>
      simp only [EStateM.Result.ok.injEq, Except.ok.injEq]
      constructor
      · rintro ⟨rfl, rfl⟩
        exact ⟨rfl, rfl⟩
      · rintro ⟨rfl, rfl⟩
        exact ⟨rfl, rfl⟩

theorem load_eq_error_iff {machine after : Machine} {error : LoadError} :
    source.load name machine = .error error after ↔
      source.offer name machine.memory.length = .error error ∧ after = machine := by
  rw [load_eq]
  cases source.offer name machine.memory.length with
  | ok found => simp
  | error found => simp [eq_comm]

end Source

theorem snapshot_holding {machine : Machine} {program : Program}
    (fits : program.bytes.size ≤ machine.memory.length) :
    (machine.holding program).memory.snapshot =
      program.bytes.toList ++ machine.memory.snapshot.drop program.bytes.size := by
  have covered : 0 + program.bytes.size ≤ machine.memory.length := by omega
  simpa [holding] using Memory.snapshot_overlay machine.memory program.bytes covered

/-- The memory of a machine that holds a program is told by its bytes. -/
theorem eq_holding_iff {machine after : Machine} {program : Program}
    (fits : program.bytes.size ≤ machine.memory.length) :
    after = machine.holding program ↔
      after.memory.snapshot =
        program.bytes.toList ++ machine.memory.snapshot.drop program.bytes.size ∧
      after = { machine with
        memory := after.memory
        journal := machine.journal.add (.placed program.name program.bytes.size) } := by
  constructor
  · rintro rfl
    exact ⟨snapshot_holding fits, rfl⟩
  · rintro ⟨bytes, rest⟩
    have memory : after.memory = (machine.holding program).memory :=
      Memory.snapshot_injective (bytes.trans (snapshot_holding fits).symm)
    rw [rest, memory]
    rfl

namespace Source

/-- A program is loaded as a whole or not at all, from a stream as from a file, whatever was
in memory before.

It is loaded exactly if the text can be decoded and parsed and the program has no more bytes
than the memory has cells.  Its bytes are then in the first cells, the other cells have what
they had, and the program that is returned is the one that the text is parsed to.  Otherwise
the machine is the one it was, after bytes that cannot be decoded, after a wrong line
whatever lines stand before it, and after a program that is too long, which is refused at
the address of its last byte. -/
theorem load_whole_or_nothing (name : String) (source : Source) (machine : Machine) :
    (∀ program after, source.load name machine = .ok program after ↔
      (∃ text, source.text = .ok text ∧ Program.parse name text = .ok program) ∧
      program.bytes.size ≤ machine.memory.length ∧
      after.memory.snapshot =
        program.bytes.toList ++ machine.memory.snapshot.drop program.bytes.size ∧
      after = { machine with
        memory := after.memory
        journal := machine.journal.add (.placed program.name program.bytes.size) }) ∧
    (∀ error after, source.load name machine = .error (.address error) after ↔
      (∃ text program, source.text = .ok text ∧ Program.parse name text = .ok program ∧
        machine.memory.length < program.bytes.size ∧
        error = ⟨program.bytes.size - 1, machine.memory.length⟩) ∧
      after = machine) ∧
    (∀ error after, source.load name machine = .error (.format error) after ↔
      (∃ text, source.text = .ok text ∧ Program.parse name text = .error error) ∧
      after = machine) ∧
    (∀ error after, source.load name machine = .error (.undecodable error) after ↔
      source.text = .error error ∧ after = machine) := by
  refine ⟨fun program after => ?_, fun error after => ?_, fun error after => ?_,
    fun error after => ?_⟩
  · rw [load_eq_ok_iff, offer_eq_ok_iff]
    constructor
    · rintro ⟨⟨text, decoded, parsed, fits⟩, held⟩
      exact ⟨⟨text, decoded, parsed⟩, fits, (eq_holding_iff fits).mp held⟩
    · rintro ⟨⟨text, decoded, parsed⟩, fits, held⟩
      exact ⟨⟨text, decoded, parsed, fits⟩, (eq_holding_iff fits).mpr held⟩
  · rw [load_eq_error_iff, offer_eq_address_iff]
  · rw [load_eq_error_iff, offer_eq_format_iff]
  · rw [load_eq_error_iff, offer_eq_undecodable_iff]

end Source
end Machine
end EightBit
