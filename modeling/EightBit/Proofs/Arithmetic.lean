import EightBit.Alu

namespace EightBit

/-!
# Arithmetic of bytes

The machine computes with whole numbers and cuts them.  Cutting a number to a
byte agrees with adding, subtracting and multiplying, and with dividing numbers
that were cut before, so the arithmetic unit computes what bytes compute.
-/

namespace Byte

theorem toInt_inj {first second : UInt8} (same : toInt first = toInt second) : first = second := by
  rw [← ofInt_toInt first, same, ofInt_toInt]

theorem ofInt_eq_iff (first second : Int) :
    ofInt first = ofInt second ↔ low first = low second := by
  rw [← toInt_ofInt, ← toInt_ofInt]
  exact ⟨congrArg toInt, toInt_inj⟩

@[simp] theorem ofInt_low (number : Int) : ofInt (low number) = ofInt number := by
  rw [ofInt, ofInt, low_eq_self (low_nonneg number) (low_lt number)]

@[simp] theorem ofInt_zero : ofInt 0 = 0 :=
  rfl

@[simp] theorem ofInt_one : ofInt 1 = 1 :=
  rfl

@[simp] theorem ofInt_add (first second : Int) :
    ofInt (first + second) = ofInt first + ofInt second :=
  UInt8.ofInt_add first second

@[simp] theorem ofInt_sub (first second : Int) :
    ofInt (first - second) = ofInt first - ofInt second := by
  rw [Int.sub_eq_add_neg, UInt8.sub_eq_add_neg, ofInt_add]
  exact congrArg (ofInt first + ·) (UInt8.ofInt_neg second)

@[simp] theorem ofInt_mul (first second : Int) :
    ofInt (first * second) = ofInt first * ofInt second :=
  UInt8.ofInt_mul first second

/-- The quotient of two bytes is a byte. -/
theorem quotient_bounds (first second : Int) :
    0 ≤ low first / low second ∧ low first / low second < 256 := by
  have nonneg := low_nonneg first
  have upper : low first / low second ≤ low first := Int.ediv_le_self _ nonneg
  exact ⟨Int.ediv_nonneg nonneg (low_nonneg second), Int.lt_of_le_of_lt upper (low_lt first)⟩

theorem ofInt_div (first second : Int) :
    ofInt (low first / low second) = ofInt first / ofInt second := by
  have bounds := quotient_bounds first second
  apply toInt_inj
  rw [toInt_ofInt, low_eq_self bounds.1 bounds.2, ← toInt_ofInt first, ← toInt_ofInt second]
  simp only [toInt, UInt8.toNat_div, Int.natCast_ediv]

end Byte

namespace Alu

/-- What is left of the first operand when its register was written.  Comparing
and dividing by zero leave it as it was. -/
def onBytes : Op → UInt8 → UInt8 → UInt8
  | .add, first, second => first + second
  | .sub, first, second => first - second
  | .mul, first, second => first * second
  | .div, first, second => if second = 0 then first else first / second
  | .inc, first, _ => first + 1
  | .dec, first, _ => first - 1
  | .cmp, first, _ => first

theorem ofInt_apply (op : Op) (first second : Int) :
    Byte.ofInt ((apply op first second).value.getD first) =
      onBytes op (Byte.ofInt first) (Byte.ofInt second) := by
  cases op with
  | add => simp [apply, onBytes]
  | sub => simp [apply, onBytes]
  | mul => simp [apply, onBytes]
  | inc => simp [apply, onBytes]
  | dec => simp [apply, onBytes]
  | div =>
      have zero_iff : Byte.ofInt second = 0 ↔ Byte.low second = 0 := Byte.ofInt_eq_iff second 0
      by_cases zero : Byte.low second = 0
      · simp only [apply, onBytes, if_pos zero, if_pos (zero_iff.mpr zero), Option.getD_none]
      · simp only [apply, onBytes, if_neg zero, if_neg (mt zero_iff.mp zero), Option.getD_some,
          Byte.ofInt_div]
  | cmp => rfl

end Alu

end EightBit
