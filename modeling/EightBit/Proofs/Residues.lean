import Mathlib.Data.Int.ModEq
import EightBit.Proofs.Arithmetic

namespace EightBit

/-!
# Arithmetic modulo 256

The operands of the arithmetic unit are whole numbers of any size and sign, and both are
cut before anything is computed.  A sum, a difference and a product are cut again, and are
then the residues of what the uncut operands give.  A quotient is that of the residues; it
is not cut again, and need not be, since no quotient of bytes is greater than a byte.  Two
numbers compare as equal when they are congruent.

`Alu.Op.Gives` says this without cutting anything: a residue is a byte that is congruent to
a number.  Every result follows from `Alu.apply_congr`, by which only the residues of the
operands matter, and from the residues of sums, differences and products.
-/

namespace Byte

/-- A byte that is congruent to a number. -/
structure IsResidue (number residue : Int) : Prop where
  nonneg : 0 ≤ residue
  lt : residue < 256
  congruent : residue ≡ number [ZMOD 256]

theorem low_modEq (number : Int) : low number ≡ number [ZMOD 256] :=
  Int.mod_modEq number 256

theorem low_eq_low_iff (first second : Int) :
    low first = low second ↔ first ≡ second [ZMOD 256] :=
  Iff.rfl

theorem low_eq_zero_iff (number : Int) : low number = 0 ↔ 256 ∣ number :=
  Int.dvd_iff_emod_eq_zero.symm

/-- A number has one residue, and cutting finds it. -/
theorem isResidue_iff {number residue : Int} : IsResidue number residue ↔ low number = residue := by
  constructor
  · rintro ⟨nonneg, lt, congruent⟩
    rw [← low_eq_self nonneg lt]
    exact congruent.symm
  · rintro rfl
    exact ⟨low_nonneg number, low_lt number, low_modEq number⟩

end Byte

namespace Alu

/-- What an operation computes on numbers of any size, where its result only has to be
cut. -/
def Op.uncut? : Op → Int → Int → Option Int
  | .add, first, second => some (first + second)
  | .sub, first, second => some (first - second)
  | .mul, first, second => some (first * second)
  | .inc, first, _ => some (first + 1)
  | .dec, first, _ => some (first - 1)
  | .div, _, _ => none
  | .cmp, _, _ => none

/-- What an operation is to give on numbers of any size. -/
inductive Op.Gives (first second : Int) : Op → Result → Prop where
  | residue {op : Op} {exact residue : Int} (computes : op.uncut? first second = some exact)
      (isResidue : Byte.IsResidue exact residue) :
      Gives first second op { value := some residue }
  | nothing (divides : 256 ∣ second) : Gives first second .div {}
  | quotient {dividend divisor : Int} (undivided : ¬ 256 ∣ second)
      (ofFirst : Byte.IsResidue first dividend) (ofSecond : Byte.IsResidue second divisor) :
      Gives first second .div { value := some (dividend.fdiv divisor) }
  | answer {equal : Bool} (congruent : equal = true ↔ first ≡ second [ZMOD 256]) :
      Gives first second .cmp { equal := some equal }

/-- Congruent operands give the same result. -/
theorem apply_congr {first other second another : Int} (op : Op)
    (left : first ≡ other [ZMOD 256]) (right : second ≡ another [ZMOD 256]) :
    apply op first second = apply op other another := by
  have low_left : Byte.low first = Byte.low other := left
  have low_right : Byte.low second = Byte.low another := right
  simp only [apply, low_left, low_right]

/-- Cutting the operands first does not change what is left of the exact result. -/
theorem apply_of_uncut? {op : Op} {first second exact : Int}
    (computes : op.uncut? first second = some exact) :
    apply op first second = { value := some (Byte.low exact) } := by
  have left := Byte.low_modEq first
  have right := Byte.low_modEq second
  have cut : ∀ {computed : Int}, computed ≡ exact [ZMOD 256] →
      Result.mk (some (Byte.low computed)) none = { value := some (Byte.low exact) } :=
    congrArg fun residue => Result.mk (some residue) none
  cases op with
  | add =>
      cases computes
      exact cut (left.add right)
  | sub =>
      cases computes
      exact cut (left.sub right)
  | mul =>
      cases computes
      exact cut (left.mul right)
  | inc =>
      cases computes
      exact cut (left.add_right 1)
  | dec =>
      cases computes
      exact cut (left.sub_right 1)
  | div => cases computes
  | cmp => cases computes

theorem apply_div_of_dvd {first second : Int} (divides : 256 ∣ second) :
    apply .div first second = {} :=
  if_pos ((Byte.low_eq_zero_iff second).mpr divides)

theorem apply_div_of_not_dvd {first second : Int} (undivided : ¬ 256 ∣ second) :
    apply .div first second =
      { value := some ((Byte.low first).fdiv (Byte.low second)) } := by
  rw [Int.fdiv_eq_ediv_of_nonneg _ (Byte.low_nonneg second)]
  exact if_neg (mt (Byte.low_eq_zero_iff second).mp undivided)

theorem gives_apply (op : Op) (first second : Int) :
    op.Gives first second (apply op first second) := by
  cases computes : op.uncut? first second with
  | some exact =>
      rw [apply_of_uncut? computes]
      exact .residue computes (Byte.isResidue_iff.mpr rfl)
  | none =>
      cases op with
      | div =>
          by_cases divides : 256 ∣ second
          · rw [apply_div_of_dvd divides]
            exact .nothing divides
          · rw [apply_div_of_not_dvd divides]
            exact .quotient divides (Byte.isResidue_iff.mpr rfl) (Byte.isResidue_iff.mpr rfl)
      | cmp =>
          refine .answer ?_
          rw [decide_eq_true_iff]
          exact Byte.low_eq_low_iff first second
      | _ => cases computes

theorem apply_of_gives {op : Op} {first second : Int} {result : Result}
    (gives : op.Gives first second result) : apply op first second = result := by
  cases gives with
  | residue computes isResidue =>
      rw [apply_of_uncut? computes, Byte.isResidue_iff.mp isResidue]
  | nothing divides => exact apply_div_of_dvd divides
  | quotient undivided ofFirst ofSecond =>
      rw [apply_div_of_not_dvd undivided, Byte.isResidue_iff.mp ofFirst,
        Byte.isResidue_iff.mp ofSecond]
  | @answer equal congruent =>
      have same : decide (Byte.low first = Byte.low second) = equal := by
        rw [Bool.eq_iff_iff, congruent, decide_eq_true_iff]
        exact Byte.low_eq_low_iff first second
      exact congrArg (fun answer => Result.mk none (some answer)) same

theorem value_bounds {op : Op} {first second value : Int}
    (gives : (apply op first second).value = some value) : 0 ≤ value ∧ value < 256 := by
  cases computes : op.uncut? first second with
  | some exact =>
      rw [apply_of_uncut? computes] at gives
      cases gives
      exact ⟨Byte.low_nonneg exact, Byte.low_lt exact⟩
  | none =>
      cases op with
      | div =>
          by_cases divides : 256 ∣ second
          · rw [apply_div_of_dvd divides] at gives
            cases gives
          · have quotient := Byte.quotient_bounds first second
            rw [apply_div_of_not_dvd divides,
              Int.fdiv_eq_ediv_of_nonneg _ (Byte.low_nonneg second)] at gives
            cases gives
            exact quotient
      | cmp => cases gives
      | _ => cases computes

/-- The unit computes with whole numbers modulo 256, whatever their size and sign.  Each
operation gives what it is to give and nothing else: there is no value for a division if
and only if the divisor is a multiple of 256, every value is a byte, and multiples of 256
may be added to the operands. -/
theorem apply_modulo (first second : Int) :
    (∀ op result, apply op first second = result ↔ op.Gives first second result) ∧
      ((apply .div first second).value = none ↔ 256 ∣ second) ∧
      (∀ op value, (apply op first second).value = some value → 0 ≤ value ∧ value < 256) ∧
      ∀ op j k, apply op (first + 256 * j) (second + 256 * k) = apply op first second := by
  refine ⟨?_, ?_, fun op value => value_bounds, ?_⟩
  · intro op result
    constructor
    · rintro rfl
      exact gives_apply op first second
    · exact apply_of_gives
  · by_cases divides : 256 ∣ second
    · simp only [apply_div_of_dvd divides, divides]
    · simp only [apply_div_of_not_dvd divides, divides, reduceCtorEq]
  · intro op j k
    apply apply_congr op
    · exact (Int.modEq_iff_add_fac.mpr ⟨j, rfl⟩).symm
    · exact (Int.modEq_iff_add_fac.mpr ⟨k, rfl⟩).symm

/-- Greater operands than a byte holds, one of them negative: the exact product is
`-0x1FE`, and the quotient is that of `0xFE` and `3`. -/
example : apply .mul (-2) 0xFF = { value := some 2 } ∧
    apply .div (-2) 0x103 = { value := some 0x54 } := by
  decide

end Alu
end EightBit
