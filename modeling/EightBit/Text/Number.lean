import EightBit.Text.Blank
import EightBit.Text.Digit

namespace EightBit
namespace Text

/-!
# Numbers in arguments

Reading whole and real numbers from a command line.  Blanks around a number
are ignored, digits of every script are accepted, and single underscores may
stand between two digits.
-/

/-- White space that counts as such inside an ASCII text. -/
def isAsciiBlank (char : Char) : Bool :=
  let code := char.toNat
  (9 ≤ code && code ≤ 13) || code == 0x20

/-- One character of a number in ASCII: digits of other scripts become ASCII
digits and blank characters beyond ASCII become spaces.  Any other character
beyond ASCII belongs to no number. -/
def plainChar? (char : Char) : Option Char :=
  if char.toNat < 0x80 then some char
  else if isBlank char then some ' '
  else (digitValue? char).map fun value => Char.ofNat (48 + value)

/-- A text in ASCII without the blanks at its ends. -/
def plainNumeral? (text : String) : Option (List Char) :=
  (text.toList.mapM plainChar?).map (trim isAsciiBlank)

/-- Whether every underscore stands between two digits.  The first argument
says whether the character before the text is a digit. -/
def underscoresFit (afterDigit : Bool) : List Char → Bool
  | [] => true
  | ['_'] => false
  | '_' :: next :: rest => afterDigit && next.isDigit && underscoresFit false (next :: rest)
  | char :: rest => underscoresFit char.isDigit rest

def digitsValue (digits : List Char) : Nat :=
  digits.foldl (fun value char => 10 * value + (char.toNat - 48)) 0

/-- The most digits a whole number may have. -/
def maxDigits : Nat := 4300

/-- Splits a sign from the front.  The flag says whether it is a minus. -/
def splitSign : List Char → Bool × List Char
  | '-' :: rest => (true, rest)
  | '+' :: rest => (false, rest)
  | text => (false, text)

/-- A whole number: an optional sign and at least one digit. -/
def readInteger? (text : String) : Option Int := do
  let plain ← plainNumeral? text
  let (negative, body) := splitSign plain
  let digits := body.filter (· ≠ '_')
  if underscoresFit false body && !digits.isEmpty && digits.all Char.isDigit &&
      digits.length ≤ maxDigits then
    let value : Int := digitsValue digits
    some (if negative then -value else value)
  else none

/-- A real number of an argument: `digits` times ten to the `exponent`, an
infinity, or no number at all. -/
inductive Real where
  | finite (negative : Bool) (digits : Nat) (exponent : Int)
  | infinite (negative : Bool)
  | undefined
deriving DecidableEq, Repr

/-- The exponent part: nothing, or a letter, an optional sign and digits. -/
def readExponent? : List Char → Option Int
  | [] => some 0
  | mark :: rest =>
    if mark = 'e' ∨ mark = 'E' then
      let (negative, digits) := splitSign rest
      if !digits.isEmpty && digits.all Char.isDigit then
        some (if negative then -(digitsValue digits : Int) else digitsValue digits)
      else none
    else none

/-- An unsigned real number without underscores: digits with an optional point
among them, at least one digit, and an optional exponent. -/
def readUnsigned? (negative : Bool) (body : List Char) : Option Real :=
  let whole := body.takeWhile Char.isDigit
  let rest := body.dropWhile Char.isDigit
  let fraction := match rest with
    | '.' :: more => more.takeWhile Char.isDigit
    | _ => []
  let tail := match rest with
    | '.' :: more => more.dropWhile Char.isDigit
    | _ => rest
  if whole.isEmpty && fraction.isEmpty then none
  else (readExponent? tail).map fun exponent =>
    .finite negative (digitsValue (whole ++ fraction)) (exponent - fraction.length)

/-- A real number: a decimal one, or one of the words for infinity and for an
undefined value, in any case of letters and with an optional sign. -/
def readReal? (text : String) : Option Real := do
  let plain ← plainNumeral? text
  if underscoresFit false plain then
    let (negative, body) := splitSign (plain.filter (· ≠ '_'))
    let word := String.ofList (body.map Char.toLower)
    if word = "inf" ∨ word = "infinity" then some (.infinite negative)
    else if word = "nan" then some .undefined
    else readUnsigned? negative body
  else none

end Text
end EightBit
