namespace EightBit
namespace Byte

/-!
# Bytes of whole numbers

Registers and memory cells keep the low eight bits of what is written to them.
Numbers are whole numbers of any size and sign here, so the low bits are the
remainder modulo 256, which is never negative.
-/

/-- The low eight bits of a number, as a number. -/
def low (number : Int) : Int :=
  number % 256

/-- The low eight bits of a number, as a byte. -/
def ofInt (number : Int) : UInt8 :=
  UInt8.ofNat (low number).toNat

def toInt (byte : UInt8) : Int :=
  byte.toNat

theorem low_nonneg (number : Int) : 0 ≤ low number :=
  Int.emod_nonneg _ (by decide)

theorem low_lt (number : Int) : low number < 256 :=
  Int.emod_lt_of_pos _ (by decide)

theorem low_eq_self {number : Int} (lower : 0 ≤ number) (upper : number < 256) :
    low number = number :=
  Int.emod_eq_of_lt lower upper

theorem toInt_nonneg (byte : UInt8) : 0 ≤ toInt byte := by
  simp [toInt]

theorem toInt_lt (byte : UInt8) : toInt byte < 256 := by
  have := byte.toNat_lt
  simp only [toInt]
  omega

/-- Keeping the low bits as a byte loses nothing against keeping them as a
number. -/
@[simp] theorem toInt_ofInt (number : Int) : toInt (ofInt number) = low number := by
  have lower := low_nonneg number
  have upper := low_lt number
  simp only [toInt, ofInt, UInt8.toNat_ofNat']
  omega

@[simp] theorem ofInt_toInt (byte : UInt8) : ofInt (toInt byte) = byte := by
  have upper := toInt_lt byte
  simp only [ofInt, low_eq_self (toInt_nonneg byte) upper]
  simp [toInt]

end Byte
end EightBit
