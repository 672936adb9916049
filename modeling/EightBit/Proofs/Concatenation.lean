import EightBit.Proofs.ProgramText

namespace EightBit
namespace Program

/-!
# Texts behind one another

A text behind another one, on a line of its own, is read as it is read alone.  Its bytes
follow those of the first text, and its lines are numbered on from the last line of that
one, which may be empty or end in a comment.  An error of the first text hides whatever is
in the second.

The lines that say something are those of the two texts (`entries_append`), and reading
stops at the first of them that is not a byte, in whichever text it is.
-/

/-- Line feeds part lines, so there is one more line. -/
@[simp] theorem length_splitOn (text : List Char) :
    (text.splitOn '\n').length = text.count '\n' + 1 := by
  induction text with
  | nil => rfl
  | cons char rest inductionHypothesis =>
      rw [List.splitOn_cons_eq_if_modifyHead, List.count_cons]
      split
      · rw [List.length_cons, inductionHypothesis]
      · rw [List.length_modifyHead, inductionHypothesis]

/-- A line that comes so many lines later. -/
def later (lines : Nat) : List Char × Nat → List Char × Nat :=
  Prod.map id (· + lines)

theorem numbered_add (remainders : List (List Char)) (number lines : Nat) :
    numbered remainders (lines + number) = (numbered remainders number).map (later lines) := by
  rw [numbered, ← List.map_snd_add_zipIdx_eq_zipIdx, List.filter_map]
  rfl

theorem entries_append (first second : String) :
    entries (first ++ "\n" ++ second) =
      entries first ++ (entries second).map (later (first.toList.count '\n' + 1)) := by
  have text : (first ++ "\n" ++ second).toList = first.toList ++ '\n' :: second.toList := by
    simp
  rw [entries, text, List.splitOn_append_cons_self, List.map_append, numbered_append,
    List.length_map, length_splitOn, Nat.add_comm, numbered_add]
  rfl

/-- Reading more lines goes on with what has been read. -/
theorem judged_append (program : Program) (first second : List (List Char × Nat)) :
    program.judged (first ++ second) =
      match program.judged first with
      | .ok program => program.judged second
      | .error error => .error error := by
  rw [judged, judged, List.find?_append]
  cases first.find? fun entry => (readByte? entry.1).isNone with
  | some wrong => rfl
  | none =>
      simp only [Option.none_or, judged]
      cases second.find? fun entry => (readByte? entry.1).isNone with
      | some wrong => rfl
      | none => simp [appended]

/-- What is read from lines that come later, behind what has been read before. -/
theorem judged_later (before : Program) (name : String) (entries : List (List Char × Nat))
    (lines : Nat) :
    before.judged (entries.map (later lines)) =
      match judged { name } entries with
      | .ok program => .ok { before with
          bytes := before.bytes ++ program.bytes
          lines := before.lines ++ program.lines.map (· + lines) }
      | .error error => .error ⟨error.line + lines, error.content⟩ := by
  have same : ((fun entry : List Char × Nat => (readByte? entry.1).isNone) ∘ later lines) =
      fun entry => (readByte? entry.1).isNone := rfl
  rw [judged, judged, List.find?_map, same]
  cases entries.find? fun entry => (readByte? entry.1).isNone with
  | some wrong => rfl
  | none =>
      simp only [appended, List.map_map, Array.empty_append, List.map_toArray]
      rfl

/-- The program or the error of two texts with a line feed between them. -/
theorem parse_append (name first second : String) :
    parse name (first ++ "\n" ++ second) =
      match parse name first with
      | .ok before =>
        match parse name second with
        | .ok program => .ok { before with
            bytes := before.bytes ++ program.bytes
            lines := before.lines ++ program.lines.map (· + (first.toList.count '\n' + 1)) }
        | .error error => .error ⟨error.line + (first.toList.count '\n' + 1), error.content⟩
      | .error error => .error error := by
  rw [parse_eq_judged, entries_append, judged_append, parse_eq_judged name first,
    parse_eq_judged name second]
  cases judged { name } (entries first) with
  | error error => rfl
  | ok before => exact judged_later before name (entries second) _

theorem name_of_parse {name text : String} {program : Program}
    (read : parse name text = .ok program) : program.name = name := by
  rw [parse_eq_judged, judged_eq_ok_iff] at read
  rw [← read.2]
  rfl

/-- Parsing distributes over texts with a line feed between them. -/
theorem parse_distributes (name first second : String) :
    let behind := first.toList.count '\n' + 1
    ((∃ program, parse name (first ++ "\n" ++ second) = .ok program) ↔
      (∃ program, parse name first = .ok program) ∧
        ∃ program, parse name second = .ok program) ∧
    (∀ before program, parse name first = .ok before → parse name second = .ok program →
      parse name (first ++ "\n" ++ second) = .ok {
        name
        bytes := before.bytes ++ program.bytes
        lines := before.lines ++ program.lines.map (· + behind) }) ∧
    (∀ error, parse name first = .error error →
      parse name (first ++ "\n" ++ second) = .error error) ∧
    ∀ before error, parse name first = .ok before → parse name second = .error error →
      parse name (first ++ "\n" ++ second) =
        .error { line := error.line + behind, content := error.content } := by
  intro behind
  have joined := parse_append name first second
  refine ⟨?_, ?_, ?_, ?_⟩
  · rw [joined]
    cases parse name first with
    | error error => simp
    | ok before => cases parse name second <;> simp
  · intro before program readFirst readSecond
    rw [joined, readFirst, readSecond, ← name_of_parse readFirst]
  · intro error failed
    rw [joined, failed]
  · intro before error readFirst failed
    rw [joined, readFirst, failed]

end Program
end EightBit
