import EightBit.Numeral

namespace EightBit
namespace Numeral

/-!
# Whole numbers in the notations of real numbers

A message may show a whole number with a decimal point or an exponent.  The
number is first rounded to the 53 binary digits of a double, then its decimal
digits are rounded to the wanted number of them.  Both roundings go to the
nearest, and a tie goes to the even neighbour.
-/

/-- The quotient rounded to the nearest whole number, a tie to the even one.
The divisor is not zero. -/
def roundDiv (number divisor : Nat) : Nat :=
  let quotient := number / divisor
  let rest := 2 * (number % divisor)
  if rest > divisor ∨ (rest = divisor ∧ quotient % 2 = 1) then quotient + 1 else quotient

/-- How many binary digits a double keeps. -/
def doublePrecision : Nat := 53

/-- The double next to a natural number, unless that is beyond the greatest. -/
def nearestDouble? (number : Nat) : Option Nat :=
  let length := if number = 0 then 0 else number.log2 + 1
  let unit := Nat.pow 2 (length - doublePrecision)
  let rounded := roundDiv number unit * unit
  if rounded < Nat.pow 2 1024 then some rounded else none

/-- The decimal digits of a number, rounded where there are more than `count` of
them, and the exponent of the first.  `count` is not zero. -/
def significant (number count : Nat) : List Char × Nat :=
  let shown := digits 10 number
  if shown.length ≤ count then (shown, shown.length - 1)
  else
    let rounded := digits 10 (roundDiv number (Nat.pow 10 (shown.length - count)))
    if rounded.length ≤ count then (rounded, shown.length - 1)
    else (rounded.take count, shown.length)

/-- The point and the digits after it.  Without digits there is no point,
unless it is asked for. -/
def fraction (alwaysPoint : Bool) (digits : List Char) : List Char :=
  if digits.isEmpty && !alwaysPoint then [] else '.' :: digits

def dropTrailingZeros (digits : List Char) : List Char :=
  (digits.reverse.dropWhile (· = '0')).reverse

def exponent (value : Nat) : List Char :=
  let shown := digits 10 value
  'e' :: '+' :: (List.replicate (2 - shown.length) '0' ++ shown)

/-- With `places` digits after the point. -/
def fixed (number places : Nat) (alwaysPoint : Bool) : List Char :=
  digits 10 number ++ fraction alwaysPoint (List.replicate places '0')

/-- One digit before the point, `places` after it, and an exponent. -/
def scientific (number places : Nat) (alwaysPoint : Bool) : List Char :=
  let (shown, power) := significant number (places + 1)
  let zeros := List.replicate (places + 1 - shown.length) '0'
  shown.take 1 ++ fraction alwaysPoint (shown.drop 1 ++ zeros) ++ exponent power

/-- The shorter of the two notations for `count` significant digits: with an
exponent when it reaches `count`, and without zeros at the end of the fraction
unless the point is asked for. -/
def general (number count : Nat) (alwaysPoint : Bool) : List Char :=
  let count := max count 1
  let (shown, power) := significant number count
  let tidy := fun digits =>
    if alwaysPoint then digits ++ List.replicate (count - shown.length) '0'
    else dropTrailingZeros digits
  if count ≤ power then
    shown.take 1 ++ fraction alwaysPoint (tidy (shown.drop 1)) ++ exponent power
  else shown.take (power + 1) ++ fraction alwaysPoint (tidy (shown.drop (power + 1)))

end Numeral
end EightBit
