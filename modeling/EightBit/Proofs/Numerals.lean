import Mathlib.Data.Nat.Digits.Lemmas
import EightBit.Numeral

namespace EightBit
namespace Numeral

/-!
# Reading numerals back

A numeral tells its number.  `valueOf` reads the digits of either case, and filling with
zeros does not change what it reads, so numbers that are written alike in one layout have
the same absolute value.  The sign is told by the number of minus characters: a layout puts
the same ones, if any, into the marker of every number.
-/

/-- The bases for whose digits there are characters. -/
structure Positional (base : Nat) : Prop where
  two_le : 2 ≤ base
  le_sixteen : base ≤ 16

/-- The number that a character stands for as a digit, in either case. -/
def digitValue (char : Char) : Nat :=
  if char.toNat < 58 then char.toNat - 48
  else if char.toNat < 97 then char.toNat - 55
  else char.toNat - 87

/-- The number that digits stand for, most significant first. -/
def valueOf (base : Nat) (chars : List Char) : Nat :=
  Nat.ofDigits base (chars.reverse.map digitValue)

/-- A character that is written for a digit below sixteen. -/
def IsDigit (char : Char) : Prop :=
  ∃ value < 16, char = digit value ∨ char = (digit value).toUpper

theorem digitValue_digit : ∀ value < 16,
    digitValue (digit value) = value ∧ digitValue (digit value).toUpper = value := by
  decide

theorem IsDigit.ne {char other : Char} (isDigit : IsDigit char)
    (excluded : ∀ value < 16, other ≠ digit value ∧ other ≠ (digit value).toUpper) :
    char ≠ other := by
  rintro rfl
  rcases isDigit with ⟨value, bound, same | same⟩
  · exact (excluded value bound).1 same
  · exact (excluded value bound).2 same

variable {base : Nat}

theorem Positional.lt_sixteen_of_small (positional : Positional base) {number : Nat}
    (small : number < base ∨ base < 2) : number < 16 := by
  have := positional.two_le
  have := positional.le_sixteen
  omega

theorem Positional.mod_lt_sixteen (positional : Positional base) (number : Nat) :
    number % base < 16 := by
  have := positional.two_le
  have := positional.le_sixteen
  have : number % base < base := Nat.mod_lt _ (by omega)
  omega

theorem exists_digit_of_mem_digits (positional : Positional base) {number : Nat}
    {char : Char} (member : char ∈ digits base number) : ∃ value < 16, char = digit value := by
  fun_induction digits base number with
  | case1 number small =>
      rw [List.mem_singleton] at member
      exact ⟨number, positional.lt_sixteen_of_small small, member⟩
  | case2 number large inductionHypothesis =>
      rcases List.mem_append.mp member with earlier | last
      · exact inductionHypothesis earlier
      · exact ⟨number % base, positional.mod_lt_sixteen number, List.mem_singleton.mp last⟩

@[simp] theorem valueOf_digits (positional : Positional base) (number : Nat) :
    valueOf base (digits base number) = number := by
  fun_induction digits base number with
  | case1 number small =>
      have only := (digitValue_digit number (positional.lt_sixteen_of_small small)).1
      exact Nat.ofDigits_singleton.trans only
  | case2 number large inductionHypothesis =>
      have last := (digitValue_digit (number % base) (positional.mod_lt_sixteen number)).1
      rw [valueOf, List.reverse_append, List.map_append, List.reverse_singleton,
        List.map_singleton, List.singleton_append, Nat.ofDigits_cons, last]
      exact (congrArg _ (congrArg _ inductionHypothesis)).trans (Nat.mod_add_div number base)

/-- Zeros in front do not count. -/
@[simp] theorem valueOf_replicate_append (count : Nat) (chars : List Char) :
    valueOf base (List.replicate count '0' ++ chars) = valueOf base chars := by
  rw [valueOf, List.reverse_append, List.map_append, List.reverse_replicate, List.map_replicate]
  exact Nat.ofDigits_append_replicate_zero _

namespace Layout

variable {layout : Layout}

/-- The digits of a number, in the case of a layout. -/
def shown (layout : Layout) (number : Int) : List Char :=
  let plain := digits layout.base number.natAbs
  if layout.capitals then plain.map Char.toUpper else plain

def sign (number : Int) : List Char :=
  if number < 0 then ['-'] else []

theorem chars_eq (layout : Layout) (number : Int) :
    ∃ filled, layout.chars number =
      sign number ++ layout.marker ++ (List.replicate filled '0' ++ layout.shown number) :=
  ⟨_, List.append_assoc _ _ _⟩

theorem isDigit_of_mem_shown (positional : Positional layout.base)
    {number : Int} {char : Char} (member : char ∈ layout.shown number) : IsDigit char := by
  unfold shown at member
  split at member
  · rcases List.mem_map.mp member with ⟨plain, within, rfl⟩
    rcases exists_digit_of_mem_digits positional within with ⟨value, bound, rfl⟩
    exact ⟨value, bound, Or.inr rfl⟩
  · rcases exists_digit_of_mem_digits positional member with ⟨value, bound, same⟩
    exact ⟨value, bound, Or.inl same⟩

theorem valueOf_shown (positional : Positional layout.base)
    (number : Int) : valueOf layout.base (layout.shown number) = number.natAbs := by
  unfold shown
  split
  · have same : ∀ char ∈ digits layout.base number.natAbs,
        digitValue char.toUpper = digitValue char := by
      intro char member
      rcases exists_digit_of_mem_digits positional member with ⟨value, bound, rfl⟩
      rw [(digitValue_digit value bound).1, (digitValue_digit value bound).2]
    have uncapitalized :
        ((digits layout.base number.natAbs).map Char.toUpper).reverse.map digitValue =
          (digits layout.base number.natAbs).reverse.map digitValue := by
      rw [← List.map_reverse, List.map_map]
      exact List.map_congr_left fun char member => same char (List.mem_reverse.mp member)
    rw [valueOf, uncapitalized]
    exact valueOf_digits positional _
  · exact valueOf_digits positional _

/-- What a number is written with: a minus, the marker, and digits. -/
theorem mem_chars (positional : Positional layout.base) {number : Int}
    {char : Char} (member : char ∈ layout.chars number) :
    (number < 0 ∧ char = '-') ∨ char ∈ layout.marker ∨ IsDigit char := by
  rcases layout.chars_eq number with ⟨filled, written⟩
  rw [written, List.mem_append, List.mem_append, List.mem_append] at member
  rcases member with (minus | marker) | zero | digit
  · unfold sign at minus
    split at minus
    · exact Or.inl ⟨‹_›, List.mem_singleton.mp minus⟩
    · cases minus
  · exact Or.inr (Or.inl marker)
  · exact Or.inr (Or.inr ⟨0, by decide, Or.inl (List.eq_of_mem_replicate zero)⟩)
  · exact Or.inr (Or.inr (isDigit_of_mem_shown positional digit))

theorem not_mem_chars (positional : Positional layout.base) {other : Char}
    (plain : other ≠ '-') (unmarked : other ∉ layout.marker)
    (excluded : ∀ value < 16, other ≠ digit value ∧ other ≠ (digit value).toUpper)
    (number : Int) : other ∉ layout.chars number := by
  intro member
  rcases mem_chars positional member with ⟨_, minus⟩ | marker | digit
  · exact plain minus
  · exact unmarked marker
  · exact digit.ne excluded rfl

/-- The minus characters of a number are those of the marker and one for the sign. -/
theorem count_chars (positional : Positional layout.base) (number : Int) :
    (layout.chars number).count '-' =
      (if number < 0 then 1 else 0) + layout.marker.count '-' := by
  rcases layout.chars_eq number with ⟨filled, written⟩
  have noneShown : (layout.shown number).count '-' = 0 := by
    refine List.count_eq_zero.mpr fun member => ?_
    exact (isDigit_of_mem_shown positional member).ne (by decide) rfl
  rw [written, List.count_append, List.count_append, List.count_append, noneShown,
    List.count_replicate, if_neg (by decide)]
  unfold sign
  split <;> rfl

theorem chars_injective (positional : Positional layout.base) :
    Function.Injective layout.chars := by
  intro first second same
  have minus : first < 0 ↔ second < 0 := by
    have counts := congrArg (List.count '-') same
    rw [count_chars positional, count_chars positional] at counts
    split at counts <;> split at counts <;> omega
  have sign_eq : sign first = sign second := by
    simp only [sign, minus]
  rcases layout.chars_eq first with ⟨filled, written⟩
  rcases layout.chars_eq second with ⟨filled', written'⟩
  rw [written, written', sign_eq] at same
  have values := congrArg (valueOf layout.base) (List.append_cancel_left same)
  simp only [valueOf_replicate_append, valueOf_shown positional] at values
  omega

theorem write_injective (positional : Positional layout.base) :
    Function.Injective layout.write :=
  fun _ _ same => chars_injective positional (String.ofList_injective same)

end Layout
end Numeral
end EightBit
