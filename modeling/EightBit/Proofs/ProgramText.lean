import Mathlib.Data.List.Induction
import Mathlib.Data.Nat.Digits.Defs
import EightBit.Program

namespace EightBit
namespace Program

/-!
# What a program text says

A text is cut at its line feeds and each line at its first `#`, the blank characters
are dropped, and of the lines every one that is not empty then is to be a byte.

The reader works on lines that still have their line feeds, deletes comments and
blanks in one scan, and numbers the lines while it reads.  `entries_eq` says that it
comes to the same lines with the same numbers, `readLines_eq` what it makes of them:
it stops at the first of them that is not a byte.
-/

/-- What is left of a line that is cut at its first `#` and loses its blank characters. -/
def remainder (line : List Char) : List Char :=
  (line.takeWhile (· ≠ '#')).filter fun char => !Text.isBlank char

/-- Those that are not empty, with their numbers, where the first has the given one. -/
def numbered (remainders : List (List Char)) (number : Nat) : List (List Char × Nat) :=
  (remainders.zipIdx number).filter fun entry => !entry.1.isEmpty

/-- The lines of a text that say something: what is left of them and their numbers, which
are counted from one. -/
def entries (text : String) : List (List Char × Nat) :=
  numbered ((text.toList.splitOn '\n').map remainder) 1

def IsByte (found : List Char) : Prop :=
  found.length = 8 ∧ ∀ char ∈ found, char = '0' ∨ char = '1'

def binaryValue (digits : List Char) : Nat :=
  Nat.ofDigits 2 (digits.reverse.map fun char => if char = '1' then 1 else 0)

/-!
## Lines and their remainders
-/

/-- In a comment nothing is kept, and the line feed ends it. -/
theorem scan_comment {line ending : List Char} (kept : List Char) (noFeed : '\n' ∉ line)
    (ends : ending = [] ∨ ending = ['\n']) : scan true kept (line ++ ending) = kept.reverse := by
  induction line with
  | nil => rcases ends with rfl | rfl <;> rfl
  | cons char rest inductionHypothesis =>
      have differs : char ≠ '\n' := fun same => noFeed (same ▸ List.mem_cons_self)
      have restNoFeed : '\n' ∉ rest := fun member => noFeed (List.mem_cons_of_mem char member)
      rw [List.cons_append, scan, if_pos ⟨rfl, differs⟩]
      exact inductionHypothesis restNoFeed

/-- The scan of a line gives its remainder, whether it has kept its line feed or not. -/
theorem scan_append {line ending : List Char} (kept : List Char) (noFeed : '\n' ∉ line)
    (ends : ending = [] ∨ ending = ['\n']) :
    scan false kept (line ++ ending) = kept.reverse ++ remainder line := by
  induction line generalizing kept with
  | nil =>
      have nothing : kept.reverse ++ remainder [] = kept.reverse := List.append_nil _
      rw [nothing]
      rcases ends with rfl | rfl
      · rfl
      · have blank : Text.isBlank '\n' = true := by decide
        simp [scan, blank]
  | cons char rest inductionHypothesis =>
      have restNoFeed : '\n' ∉ rest := fun member => noFeed (List.mem_cons_of_mem char member)
      simp only [List.cons_append, scan, Bool.false_eq_true, false_and, if_false]
      by_cases comment : char = '#'
      · rw [if_pos comment, scan_comment kept restNoFeed ends]
        simp [remainder, comment]
      · rw [if_neg comment]
        cases blank : Text.isBlank char with
        | true =>
            rw [if_pos rfl, inductionHypothesis kept restNoFeed]
            simp [remainder, comment, blank]
        | false =>
            rw [if_neg (by simp), inductionHypothesis (char :: kept) restNoFeed]
            simp [remainder, comment, blank]

theorem content_append {line ending : List Char} (noFeed : '\n' ∉ line)
    (ends : ending = [] ∨ ending = ['\n']) : content (line ++ ending) = remainder line :=
  scan_append [] noFeed ends

theorem modifyHead_nil_append (pieces : List (List Char)) :
    pieces.modifyHead (([] : List Char).reverse ++ ·) = pieces :=
  congrFun List.modifyHead_id pieces

/-- Behind the last line feed there may be one more line to the text than there is to the
reader, but nothing is on it: the text has a last line in any case, the reader only if something
was begun. -/
theorem map_content_rawLinesFrom {begun : List Char} (noFeed : '\n' ∉ begun) (text : List Char) :
    ∃ tail, (tail = [] ∨ tail = [[]]) ∧
      (rawLinesFrom begun text).map content ++ tail =
        ((text.splitOn '\n').modifyHead (begun.reverse ++ ·)).map remainder := by
  induction text generalizing begun with
  | nil =>
      have reverseNoFeed : '\n' ∉ begun.reverse := mt List.mem_reverse.mp noFeed
      have last := content_append reverseNoFeed (Or.inl rfl)
      cases begun with
      | nil => exact ⟨[[]], Or.inr rfl, rfl⟩
      | cons char begun =>
          refine ⟨[], Or.inl rfl, ?_⟩
          rw [List.append_nil] at last
          simp only [rawLinesFrom, List.isEmpty_cons, Bool.false_eq_true, if_false, List.map_cons,
            List.map_nil, List.splitOn_nil, List.modifyHead_cons, List.append_nil, last]
  | cons char rest inductionHypothesis =>
      rw [List.splitOn, List.splitOnP_cons_eq_if_modifyHead, ← List.splitOn, rawLinesFrom]
      by_cases feed : char = '\n'
      · have reverseNoFeed : '\n' ∉ begun.reverse := mt List.mem_reverse.mp noFeed
        have ended := content_append reverseNoFeed (Or.inr rfl)
        rcases @inductionHypothesis [] List.not_mem_nil with ⟨tail, shape, same⟩
        rw [modifyHead_nil_append] at same
        refine ⟨tail, shape, ?_⟩
        subst feed
        simp [ended, same]
      · have longerNoFeed : '\n' ∉ char :: begun :=
          List.not_mem_cons_of_ne_of_not_mem (Ne.symm feed) noFeed
        rcases inductionHypothesis longerNoFeed with ⟨tail, shape, same⟩
        have joined : ((begun.reverse ++ ·) ∘ List.cons char) = ((char :: begun).reverse ++ ·) := by
          funext found
          simp
        refine ⟨tail, shape, ?_⟩
        rw [if_neg feed, same, if_neg (by simpa using feed), List.modifyHead_modifyHead, joined]

/-- Lines behind others are numbered on. -/
theorem numbered_append (first second : List (List Char)) (number : Nat) :
    numbered (first ++ second) number =
      numbered first number ++ numbered second (number + first.length) := by
  rw [numbered, List.zipIdx_append, List.filter_append, numbered, numbered]

/-- An empty line is passed over, but it is counted. -/
theorem numbered_cons (found : List Char) (rest : List (List Char)) (number : Nat) :
    numbered (found :: rest) number =
      if found.isEmpty then numbered rest (number + 1)
      else (found, number) :: numbered rest (number + 1) := by
  cases found <;> rfl

/-- Every line that is not empty has a number. -/
theorem exists_mem_numbered_iff (remainders : List (List Char)) (number : Nat)
    (found : List Char) :
    (∃ place, (found, place) ∈ numbered remainders number) ↔ found ∈ remainders ∧ found ≠ [] := by
  have counted : found ∈ remainders ↔ ∃ place, (found, place) ∈ remainders.zipIdx number := by
    rw [← List.zipIdx_map_fst number remainders, List.mem_map]
    simp
  rw [counted]
  simp [numbered]

theorem numbered_append_blank (remainders : List (List Char)) (number : Nat)
    {tail : List (List Char)} (shape : tail = [] ∨ tail = [[]]) :
    numbered (remainders ++ tail) number = numbered remainders number := by
  rw [numbered_append]
  rcases shape with rfl | rfl <;> simp [numbered]

/-- The reader comes to the lines of the text that say something. -/
theorem entries_eq (text : String) :
    entries text = numbered ((rawLines text.toList).map content) 1 := by
  rcases map_content_rawLinesFrom List.not_mem_nil text.toList with ⟨tail, shape, same⟩
  rw [modifyHead_nil_append] at same
  rw [entries, ← same, numbered_append_blank _ 1 shape, rawLines]

theorem pairwise_numbered (remainders : List (List Char)) (number : Nat) :
    (numbered remainders number).Pairwise fun first second => first.2 < second.2 := by
  have counted : (remainders.zipIdx number).Pairwise fun first second => first.2 < second.2 := by
    rw [← List.pairwise_map, List.zipIdx_map_snd]
    exact List.pairwise_lt_range'
  exact counted.sublist List.filter_sublist

/-!
## Bytes
-/

theorem isByte_iff (found : List Char) :
    IsByte found ↔ found.length = 8 ∧ found.all isBit = true := by
  simp [IsByte, isBit]

theorem readByte?_eq_some_iff (found : List Char) (byte : UInt8) :
    readByte? found = some byte ↔ IsByte found ∧ byteOfBits found = byte := by
  rw [readByte?, isByte_iff]
  split <;> simp_all

theorem readByte?_eq_none_iff (found : List Char) : readByte? found = none ↔ ¬ IsByte found := by
  rw [readByte?, isByte_iff]
  split <;> simp_all

/-- A digit behind others doubles what they stand for. -/
theorem binaryValue_append (digits : List Char) (digit : Char) :
    binaryValue (digits ++ [digit]) =
      (if digit = '1' then 1 else 0) + 2 * binaryValue digits := by
  simp [binaryValue, Nat.ofDigits_cons]

/-- A byte keeps the low bits of the number that its digits stand for. -/
theorem toNat_byteOfBits (bits : List Char) :
    (byteOfBits bits).toNat = binaryValue bits % 256 := by
  induction bits using List.reverseRecOn with
  | nil => rfl
  | append_singleton bits char inductionHypothesis =>
      have byte : byteOfBits (bits ++ [char]) =
          2 * byteOfBits bits + (if char = '1' then 1 else 0) := by
        simp [byteOfBits]
      rw [byte, binaryValue_append, UInt8.toNat_add, UInt8.toNat_mul, inductionHypothesis]
      split
      · simp
        omega
      · simp

theorem toNat_byteOfBits_of_isByte {bits : List Char} (isByte : IsByte bits) :
    (byteOfBits bits).toNat = binaryValue bits := by
  have bound : binaryValue bits < 2 ^ 8 := by
    have fits : binaryValue bits < 2 ^ (bits.reverse.map fun char =>
        if char = '1' then 1 else 0).length := by
      apply Nat.ofDigits_lt_base_pow_length (by decide)
      intro digit member
      rcases List.mem_map.mp member with ⟨char, _, rfl⟩
      split <;> decide
    rwa [List.length_map, List.length_reverse, isByte.1] at fits
  rw [toNat_byteOfBits]
  exact Nat.mod_eq_of_lt bound

/-!
## Reading
-/

/-- A program with the bytes and the numbers of more lines. -/
def appended (program : Program) (entries : List (List Char × Nat)) : Program :=
  { program with
    bytes := program.bytes ++ (entries.map fun entry => byteOfBits entry.1).toArray
    lines := program.lines ++ (entries.map Prod.snd).toArray }

/-- What becomes of a program when it is to be given the bytes of more lines: the first
that is not a byte is an error. -/
def judged (program : Program) (entries : List (List Char × Nat)) : Except FormatError Program :=
  match entries.find? fun entry => (readByte? entry.1).isNone with
  | some (wrong, number) => .error ⟨number, String.ofList wrong⟩
  | none => .ok (program.appended entries)

theorem judged_cons_of_readByte? (program : Program) {found : List Char} {byte : UInt8}
    (read : readByte? found = some byte) (number : Nat) (rest : List (List Char × Nat)) :
    program.judged ((found, number) :: rest) =
      judged { program with
        bytes := program.bytes.push byte
        lines := program.lines.push number } rest := by
  have value : byteOfBits found = byte := ((readByte?_eq_some_iff found byte).mp read).2
  simp only [judged, List.find?_cons, read, Option.isNone_some]
  cases rest.find? fun entry => (readByte? entry.1).isNone with
  | some wrong => rfl
  | none => simp [appended, value]

/-- A program is given the bytes of more lines if all of them are bytes. -/
theorem judged_eq_ok_iff (program result : Program) (entries : List (List Char × Nat)) :
    program.judged entries = .ok result ↔
      (∀ entry ∈ entries, IsByte entry.1) ∧ program.appended entries = result := by
  have bytes : (∀ entry ∈ entries, IsByte entry.1) ↔
      (entries.find? fun entry => (readByte? entry.1).isNone) = none := by
    simp [readByte?_eq_none_iff]
  rw [bytes, judged]
  cases entries.find? fun entry => (readByte? entry.1).isNone <;> simp

/-- Reading line by line is judging what the lines say. -/
theorem readLines_eq (program : Program) (number : Nat) (lines : List (List Char)) :
    readLines program number lines = program.judged (numbered (lines.map content) number) := by
  induction lines generalizing program number with
  | nil => simp [readLines, numbered, judged, appended]
  | cons line rest inductionHypothesis =>
      rw [readLines, readLine, List.map_cons, numbered_cons]
      cases content line with
      | nil => exact inductionHypothesis program (number + 1)
      | cons char others =>
          rw [if_neg (by simp)]
          cases read : readByte? (char :: others) with
          | none => simp [judged, read]
          | some byte =>
              rw [judged_cons_of_readByte? program read]
              simp only [read]
              exact inductionHypothesis _ (number + 1)

theorem parse_eq_judged (name text : String) :
    parse name text = judged { name } (entries text) := by
  rw [parse, readLines_eq, ← entries_eq]

/-- What a program is that has been read from a text: it has a byte for each line that
says something, and knows the line of each of its bytes. -/
structure Renders (program : Program) (name text : String) : Prop where
  name : program.name = name
  size : program.bytes.size = (entries text).length
  bytes : program.bytes.toList.map UInt8.toNat =
    (entries text).map fun entry => binaryValue entry.1
  lines : program.lines.toList = (entries text).map Prod.snd
  increasing : program.lines.toList.Pairwise (· < ·)
  inside : ∀ index (bound : index < (entries text).length),
    program.line? index = some (entries text)[index].2
  outside : ∀ address, address < 0 ∨ (program.bytes.size : Int) ≤ address →
    program.line? address = none

theorem renders_of_isByte (name : String) {text : String}
    (bytes : ∀ entry ∈ entries text, IsByte entry.1) :
    Renders (appended { name } (entries text)) name text where
  name := rfl
  size := by simp [appended]
  bytes := by
    simp only [appended, Array.empty_append, List.map_map]
    apply List.map_congr_left
    intro entry member
    exact toNat_byteOfBits_of_isByte (bytes entry member)
  lines := by simp [appended]
  increasing := by
    simp only [appended, Array.empty_append]
    exact List.pairwise_map.mpr (pairwise_numbered _ 1)
  inside := by
    intro index bound
    simp [line?, appended, bound]
  outside := by
    intro address outside
    simp only [appended, Array.empty_append, List.size_toArray, List.length_map] at outside
    simp only [line?, appended, Array.empty_append]
    split
    · simp
      omega
    · rfl

/-- The first of the entries that is not a byte has the smallest number of those. -/
theorem first_of_find? {found : List (List Char × Nat)} {entry : List Char × Nat}
    (increasing : found.Pairwise fun first second => first.2 < second.2)
    (first : (found.find? fun entry => (readByte? entry.1).isNone) = some entry) :
    entry ∈ found ∧ ¬ IsByte entry.1 ∧
      ∀ other ∈ found, ¬ IsByte other.1 → entry.2 ≤ other.2 := by
  rcases List.find?_eq_some_iff_append.mp first with ⟨wrong, before, behind, rfl, right⟩
  rw [Option.isNone_iff_eq_none, readByte?_eq_none_iff] at wrong
  refine ⟨by simp, wrong, ?_⟩
  intro other member offends
  rcases List.mem_append.mp member with early | late
  · have fine := right other early
    rw [Bool.not_eq_true', Option.isNone_eq_false_iff, ← Option.ne_none_iff_isSome] at fine
    exact absurd ((readByte?_eq_none_iff other.1).mpr offends) fine
  · rcases List.mem_cons.mp late with rfl | late
    · exact Nat.le_refl _
    · have ordered := (List.pairwise_append.mp increasing).2.1
      exact ((List.pairwise_cons.mp ordered).1 other late).le

/-- A text is read if all that its lines say are bytes, and the program is then what they
say.  Otherwise the first line that says something else is named, with what is left of it. -/
theorem parse_accepts (name text : String) :
    ((∃ program, parse name text = .ok program) ↔ ∀ entry ∈ entries text, IsByte entry.1) ∧
    (∀ program, parse name text = .ok program → program.Renders name text) ∧
    (∀ error, parse name text = .error error →
      (error.content.toList, error.line) ∈ entries text ∧ ¬ IsByte error.content.toList ∧
        ∀ entry ∈ entries text, ¬ IsByte entry.1 → error.line ≤ entry.2) := by
  rw [parse_eq_judged, judged]
  cases first : (entries text).find? fun entry => (readByte? entry.1).isNone with
  | none =>
      have bytes : ∀ entry ∈ entries text, IsByte entry.1 := by
        intro entry member
        have fine := List.find?_eq_none.mp first entry member
        by_contra offends
        exact fine (Option.isNone_iff_eq_none.mpr ((readByte?_eq_none_iff entry.1).mpr offends))
      refine ⟨⟨fun _ => bytes, fun _ => ⟨_, rfl⟩⟩, ?_, nofun⟩
      intro program read
      cases read
      exact renders_of_isByte name bytes
  | some entry =>
      rcases first_of_find? (pairwise_numbered _ 1) first with ⟨member, offends, smallest⟩
      refine ⟨⟨nofun, fun bytes => absurd (bytes entry member) offends⟩, nofun, ?_⟩
      intro error named
      cases named
      rw [String.toList_ofList]
      exact ⟨member, offends, smallest⟩

/-- A comment with another `#` in it, an empty line, and a last line without line feed. -/
example : entries "1000 0010 # ldi #1\r\n\n\t0000 0111" =
    [("10000010".toList, 1), ("00000111".toList, 3)] := by
  decide +kernel

end Program
end EightBit
