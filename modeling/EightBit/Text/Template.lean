import EightBit.Extent
import EightBit.Numeral.Scientific
import EightBit.Text.Quoted

namespace EightBit
namespace Text

/-!
# Message templates

A template is a text with conversions such as `%02x`.  Each conversion takes
the next argument and says how it is shown: flags, a least width, a precision
and a letter.  Filling in fails when template and arguments do not fit
together; it also fails, in a way of its own, when a number is too large for
the place that it is used in.  All conversions are made before any of them is
filled to its width.
-/

/-- An argument of a message. -/
inductive Value where
  | integer (number : Int)
  | text (content : String)
  | flag (set : Bool)
  | nothing
deriving DecidableEq, Repr

namespace Value

def plain : Value → String
  | integer number => Numeral.decimal number
  | text content => content
  | flag true => "True"
  | flag false => "False"
  | nothing => "None"

/-- The argument as it is listed: texts are quoted. -/
def listed : Value → String
  | text content => quoted content
  | value => value.plain

def listedAscii : Value → String
  | text content => quotedAscii content
  | value => value.plain

/-- The argument as a number.  A flag counts as zero or one. -/
def number? : Value → Option Int
  | integer number => some number
  | flag set => some (if set then 1 else 0)
  | _ => none

/-- The arguments of a message in brackets.  A comma follows a single one. -/
def listedAll (values : List Value) : String :=
  match values with
  | [value] => "(" ++ value.listed ++ ",)"
  | _ => "(" ++ ", ".intercalate (values.map listed) ++ ")"

end Value

namespace Template

/-- What a number is too large for. -/
inductive Overflow where
  | character
  | width
  | precision
  | digits
  | real
  | extent (cause : Extent.Excess)
deriving DecidableEq, Repr

def Overflow.message : Overflow → String
  | character => "%c arg not in range(0x110000)"
  | width => "Python int too large to convert to C ssize_t"
  | precision => "Python int too large to convert to C int"
  | digits => "precision too large"
  | real => "int too large to convert to float"
  | extent cause => cause.message

/-- Why a template is not filled in: it does not fit the arguments, or a number
is too large. -/
inductive Failure where
  | mismatch
  | overflow (cause : Overflow)
deriving DecidableEq, Repr

structure Flags where
  left : Bool := false
  plus : Bool := false
  space : Bool := false
  alternate : Bool := false
  zero : Bool := false
deriving DecidableEq, Repr

/-- A conversion without its letter. -/
structure Shape where
  flags : Flags := {}
  width : Nat := 0
  precision : Option Nat := none
deriving DecidableEq, Repr

/-- The rest of a template and the arguments that are left. -/
structure Cursor where
  text : List Char
  args : List Value
deriving DecidableEq, Repr

namespace Cursor

def nextArg (cursor : Cursor) : Except Failure (Value × Cursor) :=
  match cursor.args with
  | [] => .error .mismatch
  | value :: rest => .ok (value, { cursor with args := rest })

/-- Takes the next argument as a number within bounds. -/
def nextNumber (cursor : Cursor) (low high : Int) (cause : Overflow) :
    Except Failure (Int × Cursor) := do
  let (value, cursor) ← cursor.nextArg
  match value.number? with
  | none => .error .mismatch
  | some number =>
    if low ≤ number ∧ number ≤ high then .ok (number, cursor) else .error (.overflow cause)

end Cursor

def maxWidth : Nat := Nat.pow 2 63 - 1

def maxPrecision : Nat := Nat.pow 2 31 - 1

/-- The flag characters at the front of a text, in any order and number. -/
def readFlags (flags : Flags) : List Char → Flags × List Char
  | '-' :: rest => readFlags { flags with left := true } rest
  | '+' :: rest => readFlags { flags with plus := true } rest
  | ' ' :: rest => readFlags { flags with space := true } rest
  | '#' :: rest => readFlags { flags with alternate := true } rest
  | '0' :: rest => readFlags { flags with zero := true } rest
  | text => (flags, text)

/-- The number at the front of a text, zero if there is none.  It must not
exceed a limit. -/
def readCount (limit : Nat) (text : List Char) : Except Failure (Nat × List Char) :=
  let digits := text.takeWhile Char.isDigit
  let count := digits.foldl (fun value char => 10 * value + (char.toNat - 48)) 0
  if count ≤ limit then .ok (count, text.dropWhile Char.isDigit) else .error .mismatch

/-- The width that an argument asks for: its size without the sign.  The least
number of 64 bits has no size among them and asks for nothing. -/
def starWidth (number : Int) : Nat :=
  if number.natAbs ≤ maxWidth then number.natAbs else 0

/-- The width: a number, or a star for the next argument.  A negative argument
asks for the left side. -/
def readWidth (flags : Flags) (cursor : Cursor) : Except Failure (Shape × Cursor) :=
  match cursor.text with
  | '*' :: rest => do
    let (number, cursor) ← cursor.nextNumber (-Int.pow 2 63) (Int.pow 2 63 - 1) .width
    let flags := { flags with left := flags.left || number < 0 }
    .ok ({ flags, width := starWidth number }, { cursor with text := rest })
  | text => do
    let (width, rest) ← readCount maxWidth text
    .ok ({ flags, width }, { cursor with text := rest })

/-- The precision after a point: a number, or a star for the next argument.  A
negative argument counts as zero, and so does nothing at all. -/
def readPrecision (shape : Shape) (cursor : Cursor) : Except Failure (Shape × Cursor) :=
  match cursor.text with
  | '.' :: '*' :: rest => do
    let (number, cursor) ← cursor.nextNumber (-Int.pow 2 31) (Int.pow 2 31 - 1) .precision
    .ok ({ shape with precision := some number.toNat }, { cursor with text := rest })
  | '.' :: text => do
    let (precision, rest) ← readCount maxPrecision text
    .ok ({ shape with precision := some precision }, { cursor with text := rest })
  | _ => .ok (shape, cursor)

/-- A length letter means nothing. -/
def skipLength : List Char → List Char
  | 'h' :: rest => rest
  | 'l' :: rest => rest
  | 'L' :: rest => rest
  | text => text

/-- What is shown, in the parts that filling goes between.  `zeros` of them
stand before the digits. -/
structure Body where
  sign : List Char := []
  marker : List Char := []
  zeros : Nat := 0
  digits : List Char
  numeric : Bool := true
deriving DecidableEq, Repr

/-- The parts of a number: the sign that the flags ask for, a marker and the
digits. -/
def numberBody (shape : Shape) (negative : Bool) (marker digits : List Char) : Body where
  sign :=
    if negative then ['-']
    else if shape.flags.plus then ['+']
    else if shape.flags.space then [' ']
    else []
  marker
  digits

/-- Fills a body to the width of its shape: with spaces at the left, with zeros
after sign and marker, or with spaces at the right. -/
def pad (shape : Shape) (body : Body) : List Char :=
  let head := body.sign ++ body.marker
  let digits := List.replicate body.zeros '0' ++ body.digits
  let missing := shape.width - (head.length + digits.length)
  if shape.flags.left then head ++ digits ++ List.replicate missing ' '
  else if body.numeric && shape.flags.zero then head ++ List.replicate missing '0' ++ digits
  else List.replicate missing ' ' ++ head ++ digits

/-- A text, cut to the precision. -/
def textBody (shape : Shape) (text : String) : Body where
  digits :=
    match shape.precision with
    | some count => text.toList.take count
    | none => text.toList
  numeric := false

/-- A whole number in a base, with at least as many digits as the precision
says. -/
def integerBody (shape : Shape) (value : Value) (base : Nat) (marker : List Char)
    (capitals : Bool) : Except Failure Body :=
  match value.number? with
  | none => .error .mismatch
  | some number =>
    let count := shape.precision.getD 0
    if count > maxPrecision - 3 then .error (.overflow .digits)
    else
      let digits := Numeral.digits base number.natAbs
      let marker := if shape.flags.alternate then marker else []
      let dress := fun text : List Char => if capitals then text.map Char.toUpper else text
      .ok { numberBody shape (number < 0) (dress marker) (dress digits) with
        zeros := count - digits.length }

/-- A whole number in a notation of real numbers. -/
def realBody (shape : Shape) (value : Value) (capitals : Bool)
    (notate : Nat → Nat → Bool → List Char) : Except Failure Body :=
  match value.number? with
  | none => .error .mismatch
  | some number =>
    match Numeral.nearestDouble? number.natAbs with
    | none => .error (.overflow .real)
    | some double =>
      let shown := notate double (shape.precision.getD 6) shape.flags.alternate
      .ok (numberBody shape (number < 0) [] (if capitals then shown.map Char.toUpper else shown))

/-- A single character: a text of one, or a number that is a code point. -/
def characterBody (value : Value) : Except Failure Body :=
  match value with
  | .text content =>
    match content.toList with
    | [char] => .ok { digits := [char], numeric := false }
    | _ => .error .mismatch
  | _ =>
    match value.number? with
    | none => .error .mismatch
    | some number =>
      if 0 ≤ number ∧ number < 0x110000 then
        .ok { digits := [Char.ofNat number.toNat], numeric := false }
      else .error (.overflow .character)

/-- The notation with an exponent.  It counts the digit before the point too, so
beside the greatest precision there is no room for it; that one counts as
zero. -/
def scientific (number places : Nat) (alwaysPoint : Bool) : List Char :=
  Numeral.scientific number (if places < maxPrecision then places else 0) alwaysPoint

def convert (shape : Shape) (letter : Char) (value : Value) : Except Failure Body :=
  match letter with
  | 's' => .ok (textBody shape value.plain)
  | 'r' => .ok (textBody shape value.listed)
  | 'a' => .ok (textBody shape value.listedAscii)
  | 'd' => integerBody shape value 10 [] false
  | 'i' => integerBody shape value 10 [] false
  | 'u' => integerBody shape value 10 [] false
  | 'o' => integerBody shape value 8 ['0', 'o'] false
  | 'x' => integerBody shape value 16 ['0', 'x'] false
  | 'X' => integerBody shape value 16 ['0', 'x'] true
  | 'e' => realBody shape value false scientific
  | 'E' => realBody shape value true scientific
  | 'f' => realBody shape value false Numeral.fixed
  | 'F' => realBody shape value true Numeral.fixed
  | 'g' => realBody shape value false Numeral.general
  | 'G' => realBody shape value true Numeral.general
  | 'c' => characterBody value
  | _ => .error .mismatch

/-- A piece of a template whose conversions are made: a character that stands
for itself, or a body to be filled to the width of its shape. -/
inductive Piece where
  | plain (char : Char)
  | field (shape : Shape) (body : Body)
deriving DecidableEq, Repr

def Piece.chars : Piece → List Char
  | plain char => [char]
  | field shape body => pad shape body

/-- A body with its shape, unless that asks for too great a width. -/
def field (limit : Extent.Limit) (shape : Shape) (body : Body) : Except Failure Piece :=
  match limit.excess? shape.width with
  | some cause => .error (.overflow (.extent cause))
  | none => .ok (.field shape body)

/-- One conversion after its percent sign: the piece it gives and what is left.
Two percent signs give one. -/
def conversion (limit : Extent.Limit) (cursor : Cursor) : Except Failure (Piece × Cursor) :=
  match cursor.text with
  | '%' :: rest => .ok (.plain '%', { cursor with text := rest })
  | '(' :: _ => .error .mismatch
  | text => do
    let (flags, text) := readFlags {} text
    let (shape, cursor) ← readWidth flags { cursor with text }
    let (shape, cursor) ← readPrecision shape cursor
    match skipLength cursor.text with
    | [] => .error .mismatch
    | letter :: rest =>
      let (value, cursor) ← { cursor with text := rest }.nextArg
      let piece ← field limit shape (← convert shape letter value)
      .ok (piece, cursor)

/-- The pieces from a cursor on, with `done` before it in reverse.  Every
argument has to be used.  The fuel bounds the number of steps; each step takes
a character at least. -/
def piecesFrom (limit : Extent.Limit) :
    (fuel : Nat) → (done : List Piece) → Cursor → Except Failure (List Piece)
  | 0, _, _ => .error .mismatch
  | fuel + 1, done, cursor =>
    match cursor.text with
    | [] => if cursor.args.isEmpty then .ok done.reverse else .error .mismatch
    | '%' :: rest => do
      let (piece, cursor) ← conversion limit { cursor with text := rest }
      piecesFrom limit fuel (piece :: done) cursor
    | char :: rest => piecesFrom limit fuel (.plain char :: done) { cursor with text := rest }

def fill (limit : Extent.Limit) (template : String) (args : List Value) : Except Failure String :=
  let text := template.toList
  (piecesFrom limit (text.length + 1) [] ⟨text, args⟩).map fun pieces =>
    String.ofList (pieces.flatMap Piece.chars)

end Template
end Text
end EightBit
