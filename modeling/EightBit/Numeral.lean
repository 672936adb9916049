namespace EightBit
namespace Numeral

/-!
# Positional numerals

The machine shows numbers in binary, decimal and hexadecimal, some of them
with a marker such as `0x` and filled with zeros to a least width.  The digits
come from one function, `digits`; a `Layout` says how they are dressed.
-/

/-- The character of a digit below sixteen.  Letters are lower case. -/
def digit (value : Nat) : Char :=
  if value < 10 then Char.ofNat (48 + value) else Char.ofNat (87 + value)

/-- The digits of a number, most significant first.  Zero has one digit.  A
base below two has no positional numerals; there the number is one digit. -/
def digits (base number : Nat) : List Char :=
  if number < base ∨ base < 2 then [digit number]
  else digits base (number / base) ++ [digit (number % base)]
termination_by number
decreasing_by
  apply Nat.div_lt_self <;> omega

/-- How a signed number is written: the base, a marker between sign and
digits, the least width of the whole with sign and marker counted, and the
case of the letters. -/
structure Layout where
  base : Nat
  marker : List Char := []
  width : Nat := 0
  capitals : Bool := false
deriving Repr

namespace Layout

/-- The sign, the marker, as many zeros as the width asks for, and the digits.
A number that is already wide enough is never cut. -/
def chars (layout : Layout) (number : Int) : List Char :=
  let sign := if number < 0 then ['-'] else []
  let plain := digits layout.base number.natAbs
  let shown := if layout.capitals then plain.map Char.toUpper else plain
  let filled := layout.width - (sign.length + layout.marker.length + shown.length)
  sign ++ layout.marker ++ List.replicate filled '0' ++ shown

def write (layout : Layout) (number : Int) : String :=
  String.ofList (layout.chars number)

def decimal : Layout where
  base := 10

/-- An address or a byte in a message: hexadecimal, marked, at least four
characters wide with the marker. -/
def address : Layout where
  base := 16
  marker := ['0', 'x']
  width := 4

/-- An opcode in a message: the marker and at least eight binary digits. -/
def opcode : Layout where
  base := 2
  marker := ['0', 'b']
  width := 10

end Layout

def decimal (number : Int) : String :=
  Layout.decimal.write number

end Numeral
end EightBit
