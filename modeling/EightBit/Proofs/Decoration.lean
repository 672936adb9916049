import Mathlib.Data.Set.List
import EightBit.Proofs.ProgramText

namespace EightBit
namespace Program

/-!
# Decorated texts

A byte is written as its eight binary digits on a line of its own.  Whoever writes a program
may then decorate it: put in blank characters wherever they like, also between the digits,
end any line with a comment, put in lines that have nothing else, and end the text with a
line feed or without.  A `Decoration` is a text that was made in this way, with the bytes
that its lines carry.

Reading a decorated text gives the bytes back, each with the number of the line that carries
it, and every text that can be read is a decoration of its own bytes.  Both halves come down
to single lines: what is left of a decorated line are the digits that it carries
(`DecoratedLine.remainder_chars`), and a line with nothing or a byte left of it is a decorated
one (`exists_decoratedLine`).
-/

/-!
## Digits
-/

/-- So many binary digits of a number, the highest first. -/
def binaryDigits : (count number : Nat) → List Char
  | 0, _ => []
  | count + 1, number =>
    binaryDigits count (number / 2) ++ [if number % 2 = 1 then '1' else '0']

def digitsOf (byte : UInt8) : List Char :=
  binaryDigits 8 byte.toNat

@[simp] theorem length_binaryDigits (count number : Nat) :
    (binaryDigits count number).length = count := by
  induction count generalizing number with
  | zero => rfl
  | succ count inductionHypothesis =>
      rw [binaryDigits, List.length_append, inductionHypothesis, List.length_singleton]

theorem mem_binaryDigits {count number : Nat} {char : Char}
    (member : char ∈ binaryDigits count number) : char = '0' ∨ char = '1' := by
  induction count generalizing number with
  | zero => cases member
  | succ count inductionHypothesis =>
      rw [binaryDigits, List.mem_append, List.mem_singleton] at member
      rcases member with early | rfl
      · exact inductionHypothesis early
      · split
        · exact Or.inr rfl
        · exact Or.inl rfl

/-- Digits stand for the number that they were taken from, if there are enough of them. -/
theorem binaryValue_binaryDigits {count number : Nat} (fits : number < 2 ^ count) :
    binaryValue (binaryDigits count number) = number := by
  induction count generalizing number with
  | zero =>
      rw [Nat.pow_zero, Nat.lt_one_iff] at fits
      rw [fits]
      rfl
  | succ count inductionHypothesis =>
      rw [Nat.pow_succ] at fits
      have half : number / 2 < 2 ^ count := by omega
      rw [binaryDigits, binaryValue_append, inductionHypothesis half]
      split <;> simp <;> omega

/-- Digits are taken from the number that they stand for. -/
theorem binaryDigits_binaryValue {digits : List Char}
    (binary : ∀ char ∈ digits, char = '0' ∨ char = '1') :
    binaryDigits digits.length (binaryValue digits) = digits := by
  induction digits using List.reverseRecOn with
  | nil => rfl
  | append_singleton digits digit inductionHypothesis =>
      have earlier : ∀ char ∈ digits, char = '0' ∨ char = '1' :=
        fun char member => binary char (List.mem_append_left _ member)
      have half : ((if digit = '1' then 1 else 0) + 2 * binaryValue digits) / 2 =
          binaryValue digits := by
        split <;> omega
      rw [List.length_append, List.length_singleton, binaryDigits, binaryValue_append, half,
        inductionHypothesis earlier]
      rcases binary digit (by simp) with rfl | rfl <;> simp

theorem isByte_digitsOf (byte : UInt8) : IsByte (digitsOf byte) :=
  ⟨length_binaryDigits 8 byte.toNat, fun _ => mem_binaryDigits⟩

@[simp] theorem byteOfBits_digitsOf (byte : UInt8) : byteOfBits (digitsOf byte) = byte := by
  apply UInt8.toNat_inj.mp
  rw [toNat_byteOfBits_of_isByte (isByte_digitsOf byte)]
  exact binaryValue_binaryDigits byte.toNat_lt

@[simp] theorem digitsOf_byteOfBits {found : List Char} (isByte : IsByte found) :
    digitsOf (byteOfBits found) = found := by
  rw [digitsOf, toNat_byteOfBits_of_isByte isByte, ← isByte.1]
  exact binaryDigits_binaryValue isByte.2

/-!
## Lines
-/

/-- Blank characters were put into a text, at any places, but no line feeds. -/
inductive Spaced : (plain spaced : List Char) → Prop where
  | nil : Spaced [] []
  | keep {plain spaced : List Char} (char : Char) (rest : Spaced plain spaced) :
      Spaced (char :: plain) (char :: spaced)
  | insert {plain spaced : List Char} {char : Char} (blank : Text.isBlank char = true)
      (inLine : char ≠ '\n') (rest : Spaced plain spaced) : Spaced plain (char :: spaced)

namespace Spaced

variable {plain spaced : List Char}

/-- A character that is neither written nor put in is not there. -/
theorem not_mem {mark : Char} (spaces : Spaced plain spaced) (notPlain : mark ∉ plain)
    (notPut : Text.isBlank mark = true → mark = '\n') : mark ∉ spaced := by
  induction spaces with
  | nil => exact notPlain
  | keep char rest inductionHypothesis =>
      rw [List.mem_cons, not_or] at notPlain ⊢
      exact ⟨notPlain.1, inductionHypothesis notPlain.2⟩
  | insert blank inLine rest inductionHypothesis =>
      rw [List.mem_cons, not_or]
      refine ⟨?_, inductionHypothesis notPlain⟩
      rintro rfl
      exact inLine (notPut blank)

/-- The blank characters can be dropped again. -/
theorem filter_eq (spaces : Spaced plain spaced)
    (solid : ∀ char ∈ plain, Text.isBlank char = false) :
    (spaced.filter fun char => !Text.isBlank char) = plain := by
  induction spaces with
  | nil => rfl
  | keep char rest inductionHypothesis =>
      rw [List.forall_mem_cons] at solid
      rw [List.filter_cons_of_pos (by rw [solid.1]; rfl), inductionHypothesis solid.2]
  | insert blank inLine rest inductionHypothesis =>
      rw [List.filter_cons_of_neg (by rw [blank]; decide), inductionHypothesis solid]

/-- The blank characters of a line were put in. -/
theorem of_filter {line : List Char} (noFeed : '\n' ∉ line) :
    Spaced (line.filter fun char => !Text.isBlank char) line := by
  induction line with
  | nil => exact nil
  | cons char rest inductionHypothesis =>
      have restNoFeed : '\n' ∉ rest := fun member => noFeed (List.mem_cons_of_mem char member)
      cases blank : Text.isBlank char with
      | true =>
          have inLine : char ≠ '\n' := fun same => noFeed (same ▸ List.mem_cons_self)
          rw [List.filter_cons_of_neg (by rw [blank]; decide)]
          exact insert blank inLine (inductionHypothesis restNoFeed)
      | false =>
          rw [List.filter_cons_of_pos (by rw [blank]; rfl)]
          exact keep char (inductionHypothesis restNoFeed)

end Spaced

/-- A line that was decorated: the byte that it carries, if it carries one, the digits of that
byte with blank characters put in, and a comment, if there is one. -/
structure DecoratedLine where
  byte? : Option UInt8
  spaced : List Char
  comment? : Option (List Char)
  spaces : Spaced (byte?.elim [] digitsOf) spaced
  noFeed : ∀ comment ∈ comment?, '\n' ∉ comment

namespace DecoratedLine

/-- The line without its decoration. -/
def plain (line : DecoratedLine) : List Char :=
  line.byte?.elim [] digitsOf

/-- The line as it is written. -/
def chars (line : DecoratedLine) : List Char :=
  line.spaced ++ line.comment?.elim [] ('#' :: ·)

theorem mem_plain {line : DecoratedLine} {char : Char} (member : char ∈ line.plain) :
    char = '0' ∨ char = '1' := by
  rw [plain] at member
  cases carried : line.byte? with
  | none =>
      rw [carried] at member
      cases member
  | some byte =>
      rw [carried] at member
      exact mem_binaryDigits member

theorem plain_of_byte? {line : DecoratedLine} {byte : UInt8} (carried : line.byte? = some byte) :
    line.plain = digitsOf byte := by
  rw [plain, carried]
  rfl

theorem isEmpty_plain (line : DecoratedLine) : line.plain.isEmpty = line.byte?.isNone := by
  rw [plain]
  cases line.byte? with
  | none => rfl
  | some byte => rfl

/-- What is left of a decorated line is what it was before. -/
theorem remainder_chars (line : DecoratedLine) : remainder line.chars = line.plain := by
  have solid : ∀ char ∈ line.plain, Text.isBlank char = false := by
    intro char member
    rcases mem_plain member with rfl | rfl <;> decide
  have noMark : '#' ∉ line.plain := by
    intro member
    rcases mem_plain member with same | same <;> cases same
  have uncommented : ∀ char ∈ line.spaced, decide (char ≠ '#') = true := by
    intro char member
    rw [decide_eq_true_eq]
    rintro rfl
    exact line.spaces.not_mem noMark (by decide) member
  have cut : line.chars.takeWhile (· ≠ '#') = line.spaced := by
    rw [chars, List.takeWhile_append_of_pos uncommented]
    cases line.comment? <;> simp
  rw [remainder, cut]
  exact line.spaces.filter_eq solid

theorem feed_not_mem_chars (line : DecoratedLine) : '\n' ∉ line.chars := by
  have notPlain : '\n' ∉ line.plain := by
    intro member
    rcases mem_plain member with same | same <;> cases same
  rw [chars, List.mem_append, not_or]
  refine ⟨line.spaces.not_mem notPlain fun _ => rfl, ?_⟩
  cases commented : line.comment? with
  | none => exact List.not_mem_nil
  | some comment =>
      exact List.not_mem_cons_of_ne_of_not_mem (by decide) (line.noFeed comment commented)

end DecoratedLine

/-- A line with nothing or a byte left of it was decorated. -/
theorem exists_decoratedLine {line : List Char} (noFeed : '\n' ∉ line)
    (isByte : remainder line ≠ [] → IsByte (remainder line)) :
    ∃ decorated : DecoratedLine, decorated.chars = line := by
  have carried : ∃ byte? : Option UInt8, remainder line = byte?.elim [] digitsOf := by
    by_cases nothing : remainder line = []
    · exact ⟨none, nothing⟩
    · exact ⟨some (byteOfBits (remainder line)), (digitsOf_byteOfBits (isByte nothing)).symm⟩
  have commented : ∃ comment? : Option (List Char),
      line.dropWhile (· ≠ '#') = comment?.elim [] ('#' :: ·) := by
    cases rest : line.dropWhile (· ≠ '#') with
    | nil => exact ⟨none, rfl⟩
    | cons mark comment =>
        have marked := List.head?_dropWhile_not (· ≠ '#') line
        rw [rest] at marked
        have same : mark = '#' := by simpa using marked
        exact ⟨some comment, same ▸ rfl⟩
  rcases carried with ⟨byte?, carried⟩
  rcases commented with ⟨comment?, commented⟩
  have cut : line.takeWhile (· ≠ '#') ++ comment?.elim [] ('#' :: ·) = line := by
    rw [← commented, List.takeWhile_append_dropWhile]
  have noFeedBefore : '\n' ∉ line.takeWhile (· ≠ '#') := fun member =>
    noFeed (cut ▸ List.mem_append_left _ member)
  have noFeedBehind : ∀ comment ∈ comment?, '\n' ∉ comment := by
    rintro comment rfl member
    exact noFeed (cut ▸ List.mem_append_right _ (List.mem_cons_of_mem _ member))
  exact ⟨⟨byte?, _, comment?, carried ▸ Spaced.of_filter noFeedBefore, noFeedBehind⟩, cut⟩

/-!
## Texts
-/

/-- A text that was decorated: its lines, and whether the last of them ends with a line feed
as the others do. -/
structure Decoration where
  lines : List DecoratedLine
  closed : Bool

namespace Decoration

def text (decoration : Decoration) : String :=
  String.ofList <|
    if decoration.closed then decoration.lines.flatMap fun line => line.chars ++ ['\n']
    else ['\n'].intercalate (decoration.lines.map DecoratedLine.chars)

def bytes (decoration : Decoration) : List UInt8 :=
  decoration.lines.filterMap DecoratedLine.byte?

theorem splitOn_flatMap (lines : List DecoratedLine) :
    (lines.flatMap fun line => line.chars ++ ['\n']).splitOn '\n' =
      lines.map DecoratedLine.chars ++ [[]] := by
  induction lines with
  | nil => rfl
  | cons line rest inductionHypothesis =>
      rw [List.flatMap_cons, List.append_assoc, List.singleton_append,
        List.splitOn_append_cons_self_of_not_mem line.feed_not_mem_chars, inductionHypothesis]
      rfl

/-- A decorated text has its lines, and perhaps an empty one behind them. -/
theorem splitOn_text (decoration : Decoration) :
    ∃ tail, (tail = [] ∨ tail = [[]]) ∧
      decoration.text.toList.splitOn '\n' =
        decoration.lines.map DecoratedLine.chars ++ tail := by
  rw [text, String.toList_ofList]
  cases closed : decoration.closed with
  | true => exact ⟨[[]], Or.inr rfl, splitOn_flatMap decoration.lines⟩
  | false =>
      rw [if_neg Bool.false_ne_true]
      cases lines : decoration.lines with
      | nil => exact ⟨[[]], Or.inr rfl, rfl⟩
      | cons line rest =>
          refine ⟨[], Or.inl rfl, ?_⟩
          rw [List.append_nil]
          apply List.splitOn_intercalate
          · intro chars member
            rcases List.mem_map.mp member with ⟨other, _, rfl⟩
            exact other.feed_not_mem_chars
          · exact List.cons_ne_nil _ _

theorem entries_text (decoration : Decoration) :
    entries decoration.text = numbered (decoration.lines.map DecoratedLine.plain) 1 := by
  rcases decoration.splitOn_text with ⟨tail, shape, lines⟩
  have left : (decoration.lines.map DecoratedLine.chars).map remainder =
      decoration.lines.map DecoratedLine.plain := by
    rw [List.map_map]
    exact List.map_congr_left fun line _ => line.remainder_chars
  rw [entries, lines, List.map_append, left, numbered_append_blank]
  rcases shape with rfl | rfl
  · exact Or.inl rfl
  · exact Or.inr rfl

end Decoration

/-- The lines that are not empty are those that carry bytes. -/
theorem map_numbered_plain (lines : List DecoratedLine) (number : Nat) :
    (numbered (lines.map DecoratedLine.plain) number).map (fun entry => byteOfBits entry.1) =
      lines.filterMap DecoratedLine.byte? := by
  induction lines generalizing number with
  | nil => rfl
  | cons line rest inductionHypothesis =>
      rw [List.map_cons, numbered_cons, line.isEmpty_plain]
      cases carried : line.byte? with
      | none =>
          rw [List.filterMap_cons_none carried, if_pos Option.isNone_none]
          exact inductionHypothesis (number + 1)
      | some byte =>
          rw [List.filterMap_cons_some carried, if_neg (by simp), List.map_cons,
            inductionHypothesis, DecoratedLine.plain_of_byte? carried, byteOfBits_digitsOf]

theorem isByte_of_mem_numbered_plain {lines : List DecoratedLine} {number : Nat}
    {entry : List Char × Nat}
    (member : entry ∈ numbered (lines.map DecoratedLine.plain) number) : IsByte entry.1 := by
  rcases (exists_mem_numbered_iff _ number entry.1).mp ⟨entry.2, member⟩ with ⟨written, nonempty⟩
  rcases List.mem_map.mp written with ⟨line, _, same⟩
  cases carried : line.byte? with
  | none =>
      rw [DecoratedLine.plain, carried] at same
      exact absurd same.symm nonempty
  | some byte =>
      rw [← same, DecoratedLine.plain_of_byte? carried]
      exact isByte_digitsOf byte

/-- The line behind others that carries a byte has the place behind the bytes of those. -/
theorem line?_of_carries (name : String) {before after : List DecoratedLine} {line : DecoratedLine}
    (carries : line.byte?.isSome = true) :
    (appended { name } (numbered ((before ++ line :: after).map DecoratedLine.plain) 1)).line?
      (before.filterMap DecoratedLine.byte?).length = some (before.length + 1) := by
  have count : (numbered (before.map DecoratedLine.plain) 1).length =
      (before.filterMap DecoratedLine.byte?).length := by
    rw [← map_numbered_plain before 1, List.length_map]
  have occupied : line.plain.isEmpty = false := by
    rw [line.isEmpty_plain, Option.isNone_eq_false_iff]
    exact carries
  rw [List.map_append, List.map_cons, numbered_append, numbered_cons, occupied, ← count,
    List.length_map, Nat.add_comm 1]
  simp [line?, appended]

theorem parse_text (name : String) (decoration : Decoration) :
    parse name decoration.text =
      .ok (appended { name } (numbered (decoration.lines.map DecoratedLine.plain) 1)) := by
  rw [parse_eq_judged, judged_eq_ok_iff, decoration.entries_text]
  exact ⟨fun _ => isByte_of_mem_numbered_plain, rfl⟩

theorem bytes_numbered_plain (name : String) (lines : List DecoratedLine) :
    (appended { name } (numbered (lines.map DecoratedLine.plain) 1)).bytes.toList =
      lines.filterMap DecoratedLine.byte? := by
  rw [← map_numbered_plain lines 1]
  simp [appended]

/-- A line feed ends a line and is not on it. -/
theorem feed_not_mem_of_mem_splitOn {text line : List Char}
    (member : line ∈ text.splitOn '\n') : '\n' ∉ line := by
  induction text generalizing line with
  | nil =>
      rw [List.splitOn_nil, List.mem_singleton] at member
      rw [member]
      exact List.not_mem_nil
  | cons char rest inductionHypothesis =>
      rw [List.splitOn_cons_eq_if_modifyHead] at member
      split at member
      · rcases List.mem_cons.mp member with rfl | behind
        · exact List.not_mem_nil
        · exact inductionHypothesis behind
      · rename_i other
        rcases List.exists_cons_of_ne_nil (List.splitOn_ne_nil '\n' rest) with ⟨first, more, split⟩
        rw [split] at inductionHypothesis member
        rw [List.modifyHead_cons] at member
        rcases List.mem_cons.mp member with rfl | behind
        · have differs : '\n' ≠ char := fun same => other (beq_iff_eq.mpr same.symm)
          exact List.not_mem_cons_of_ne_of_not_mem differs
            (inductionHypothesis List.mem_cons_self)
        · exact inductionHypothesis (List.mem_cons_of_mem first behind)

/-- A text that can be read was decorated. -/
theorem exists_decoration {name text : String} {program : Program}
    (read : parse name text = .ok program) : ∃ decoration : Decoration, decoration.text = text := by
  rw [parse_eq_judged, judged_eq_ok_iff] at read
  have decorated : ∀ line ∈ text.toList.splitOn '\n',
      line ∈ Set.range DecoratedLine.chars := by
    intro line member
    apply exists_decoratedLine (feed_not_mem_of_mem_splitOn member)
    intro nonempty
    rcases (exists_mem_numbered_iff _ 1 (remainder line)).mpr
      ⟨List.mem_map_of_mem member, nonempty⟩ with ⟨number, entry⟩
    exact read.1 _ entry
  have written : text.toList.splitOn '\n' ∈ Set.range (List.map DecoratedLine.chars) := by
    rw [Set.range_list_map]
    exact decorated
  rcases written with ⟨lines, same⟩
  refine ⟨⟨lines, false⟩, ?_⟩
  rw [Decoration.text, if_neg Bool.false_ne_true, same, List.intercalate_splitOn,
    String.ofList_toList]

/-- Reading a decorated text gives back the bytes that were written, each with the number of
the line that carries it.  Every text that can be read is a decoration of its bytes. -/
theorem parse_decorated (name : String) :
    (∀ (bytes : List UInt8) (decoration : Decoration), decoration.bytes = bytes →
      ∃ program, parse name decoration.text = .ok program ∧ program.bytes.toList = bytes ∧
        ∀ before line after, decoration.lines = before ++ line :: after →
          line.byte?.isSome = true →
            program.line? (before.filterMap DecoratedLine.byte?).length =
              some (before.length + 1)) ∧
    ∀ text program, parse name text = .ok program →
      ∃ decoration : Decoration, decoration.text = text ∧
        decoration.bytes = program.bytes.toList := by
  constructor
  · rintro bytes decoration rfl
    refine ⟨_, parse_text name decoration, bytes_numbered_plain name decoration.lines, ?_⟩
    intro before line after split carries
    rw [split]
    exact line?_of_carries name carries
  · intro text program read
    rcases exists_decoration read with ⟨decoration, rfl⟩
    refine ⟨decoration, rfl, ?_⟩
    rw [parse_text, Except.ok.injEq] at read
    rw [← read]
    exact (bytes_numbered_plain name decoration.lines).symm

end Program
end EightBit
