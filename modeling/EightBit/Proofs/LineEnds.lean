import EightBit.Proofs.Loading
import EightBit.Proofs.ProgramText

namespace EightBit

/-!
# Line ends of either kind

A line of a program file may end with a line feed, or with a carriage return and a line feed,
and a file may have both kinds.  Reading a file brings them to line feeds before anything
else is done; a stream comes as it is.  The program that is read, or the error, is the same.

The carriage returns of a stream go unseen: the reader cuts at line feeds, so a return is
one more blank character of its line, or a part of its comment (`remainder_return`).  As
long as a line feed follows it, turning it into one makes no line either
(`map_remainder_splitOn_unixLineEnds`).
-/

namespace Text

/-- Behind every carriage return there is a line feed. -/
def ReturnsFed (text : List Char) : Prop :=
  ∀ index, text[index]? = some '\r' → text[index + 1]? = some '\n'

theorem returnsFed_iff (text : List Char) :
    ReturnsFed text ↔
      ∀ index < text.length, text[index]? = some '\r' → text[index + 1]? = some '\n' := by
  constructor
  · exact fun fed index _ => fed index
  · intro fed index returned
    exact fed index (List.getElem?_eq_some_iff.mp returned).1 returned

instance (text : List Char) : Decidable (ReturnsFed text) :=
  decidable_of_iff _ (returnsFed_iff text).symm

theorem ReturnsFed.tail {char : Char} {rest : List Char} (fed : ReturnsFed (char :: rest)) :
    ReturnsFed rest :=
  fun index returned => fed (index + 1) returned

theorem ReturnsFed.exists_cons {rest : List Char} (fed : ReturnsFed ('\r' :: rest)) :
    ∃ more, rest = '\n' :: more := by
  have feed : rest[0]? = some '\n' := fed 0 rfl
  cases rest with
  | nil => cases feed
  | cons char more => exact ⟨more, congrArg (· :: more) (Option.some.inj feed)⟩

end Text

namespace Program

/-!
## Lines
-/

/-- What is left of a line is known from its first character and what is left of the others. -/
theorem remainder_cons (char : Char) (line : List Char) :
    remainder (char :: line) =
      if char = '#' then [] else if Text.isBlank char then remainder line
      else char :: remainder line := by
  by_cases mark : char = '#'
  · simp [remainder, mark]
  · cases blank : Text.isBlank char <;> simp [remainder, mark, blank]

@[simp] theorem remainder_return (line : List Char) :
    remainder ('\r' :: line) = remainder line := by
  have blank : Text.isBlank '\r' = true := by decide
  rw [remainder_cons, if_neg (by decide), if_pos blank]

/-- A character in front of two texts whose lines leave the same. -/
theorem map_remainder_modifyHead {lines others : List (List Char)} (char : Char)
    (same : lines.map remainder = others.map remainder) :
    (lines.modifyHead (char :: ·)).map remainder =
      (others.modifyHead (char :: ·)).map remainder := by
  cases lines with
  | nil =>
      rw [List.map_nil, eq_comm, List.map_eq_nil_iff] at same
      rw [same]
  | cons line rest =>
      cases others with
      | nil => cases same
      | cons other others =>
          rw [List.map_cons, List.map_cons, List.cons.injEq] at same
          simp only [List.modifyHead_cons, List.map_cons, remainder_cons, same.1, same.2]

/-- A carriage return in front of a text is not seen in any of its lines. -/
theorem map_remainder_splitOn_return (text : List Char) :
    (('\r' :: text).splitOn '\n').map remainder = (text.splitOn '\n').map remainder := by
  rw [List.splitOn_cons_eq_if_modifyHead, if_neg (by decide)]
  cases text.splitOn '\n' with
  | nil => rfl
  | cons line rest => rw [List.modifyHead_cons, List.map_cons, remainder_return, List.map_cons]

/-- Line ends of either kind cut a text into lines that leave the same: a line feed makes the
line end, with or without the return in front of it. -/
theorem map_remainder_splitOn_unixLineEnds {text : List Char} (fed : Text.ReturnsFed text) :
    ((Text.unixLineEnds text).splitOn '\n').map remainder = (text.splitOn '\n').map remainder := by
  induction text with
  | nil => rfl
  | cons char rest inductionHypothesis =>
      have same := inductionHypothesis fed.tail
      by_cases returned : char = '\r'
      · subst returned
        rcases fed.exists_cons with ⟨more, rfl⟩
        have feed : Text.unixLineEnds ('\n' :: more) = '\n' :: Text.unixLineEnds more :=
          Text.unixLineEnds_cons_of_ne '\n' more (by decide)
        rw [Text.unixLineEnds_return_feed, ← feed, same, map_remainder_splitOn_return]
      · rw [Text.unixLineEnds_cons_of_ne char rest returned, List.splitOn_cons_eq_if_modifyHead,
          List.splitOn_cons_eq_if_modifyHead]
        split
        · rw [List.map_cons, List.map_cons, same]
        · exact map_remainder_modifyHead char same

theorem entries_unixLineEnds {text : String} (fed : Text.ReturnsFed text.toList) :
    entries (String.ofList (Text.unixLineEnds text.toList)) = entries text := by
  rw [entries, entries, String.toList_ofList, map_remainder_splitOn_unixLineEnds fed]

/-- The name has no part in what is read from a text. -/
theorem parse_named (name other text : String) :
    parse other text = (parse name text).map fun program => { program with name := other } := by
  rw [parse_eq_judged, parse_eq_judged name, judged, judged]
  cases (entries text).find? fun entry => (readByte? entry.1).isNone <;> rfl

theorem parse_unixLineEnds (name : String) {text : String}
    (fed : Text.ReturnsFed text.toList) :
    parse name (String.ofList (Text.unixLineEnds text.toList)) = parse name text := by
  rw [parse_eq_judged, parse_eq_judged, entries_unixLineEnds fed]

end Program

namespace Machine
namespace Source

/-!
## Files and streams
-/

theorem text_file_toUTF8 (text : String) :
    (file .utf8 text.toUTF8).text = .ok (String.ofList (Text.unixLineEnds text.toList)) := by
  rw [Source.text, Text.Encoding.decode_toUTF8]
  rfl

/-- A file offers the program that a stream of the same text offers, under its own name. -/
theorem offer_file {text : String} (fed : Text.ReturnsFed text.toList)
    (fileName streamName : String) (length : Nat) :
    (file .utf8 text.toUTF8).offer fileName length =
      ((stream text).offer streamName length).map fun program =>
        { program with name := fileName } := by
  have read := Program.parse_unixLineEnds fileName fed
  rw [Program.parse_named streamName fileName text] at read
  rw [offer, text_file_toUTF8, offer, Source.text]
  simp only [read]
  cases Program.parse streamName text with
  | error error => rfl
  | ok program =>
      simp only [Except.map]
      split <;> rfl

/-- A program that is kept in a file is loaded as it is from a stream of the same text, as
long as each of its carriage returns is followed by a line feed.

Both give the same bytes with the numbers of their lines and leave the same machine, but for
the name of the program and the note that mentions it; or both are refused with the same
error, be it a wrong line or a program that is too long, and leave the machine alone. -/
theorem load_file_eq_load_stream {text : String} (fed : Text.ReturnsFed text.toList)
    (fileName streamName : String) (machine : Machine) :
    let fromFile := (file .utf8 text.toUTF8).load fileName machine
    let fromStream := (stream text).load streamName machine
    (∃ program after, fromStream = .ok program after ∧
      fromFile = .ok { program with name := fileName } { after with
        journal := machine.journal.add (.placed fileName program.bytes.size) }) ∨
    ∃ error, fromStream = .error error machine ∧ fromFile = .error error machine := by
  intro fromFile fromStream
  have offered := offer_file fed fileName streamName machine.memory.length
  have file_eq : fromFile = _ := load_eq fileName (file .utf8 text.toUTF8) machine
  have stream_eq : fromStream = _ := load_eq streamName (stream text) machine
  rw [offered] at file_eq
  cases found : (stream text).offer streamName machine.memory.length with
  | error error =>
      rw [found] at file_eq stream_eq
      exact Or.inr ⟨error, stream_eq, file_eq⟩
  | ok program =>
      rw [found] at file_eq stream_eq
      exact Or.inl ⟨program, machine.holding program, stream_eq, file_eq⟩

/-- A program whose lines end in both ways, the first of them behind a comment. -/
def mixedEnds : String :=
  "0000 0110 # print\r\n\r\n00000001\n"

theorem load_file_eq_load_stream_mixedEnds :
    let machine : Machine := { memory := .zeroed 3 (by decide) }
    Text.ReturnsFed mixedEnds.toList ∧
      ∃ after, (file .utf8 mixedEnds.toUTF8).load "print.ls8" machine =
          .ok ⟨"print.ls8", #[6, 1], #[1, 3]⟩ after ∧
        after.memory.snapshot = [6, 1, 0] := by
  intro machine
  have fed : Text.ReturnsFed mixedEnds.toList := by decide +kernel
  have offered : (stream mixedEnds).offer "" 3 = .ok ⟨"", #[6, 1], #[1, 3]⟩ := by decide +kernel
  refine ⟨fed, ?_⟩
  rcases load_file_eq_load_stream fed "print.ls8" "" machine with
    ⟨program, after, streamed, filed⟩ | ⟨error, streamed, _⟩
  · rcases load_eq_ok_iff.mp streamed with ⟨found, rfl⟩
    cases found.symm.trans offered
    exact ⟨_, filed, by decide +kernel⟩
  · cases (load_eq_error_iff.mp streamed).1.symm.trans offered

/-- A return alone would part a line of the file and not of the stream. -/
example :
    ¬ Text.ReturnsFed "0000\r0110".toList ∧
      (stream "0000\r0110").offer "" 3 = .ok ⟨"", #[6], #[1]⟩ ∧
      (file .utf8 "0000\r0110".toUTF8).offer "" 3 = .error (.format ⟨1, "0000"⟩) := by
  decide +kernel

end Source
end Machine
end EightBit
