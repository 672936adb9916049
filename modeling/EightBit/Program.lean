import EightBit.Numeral
import EightBit.Text.Blank
import EightBit.Text.Quoted

namespace EightBit

/-!
# Program text

A program is written as lines of binary digits, one byte a line.  What follows
a `#` is a comment, blank characters mean nothing, and a line with nothing
else on it is skipped.  Every other line must have exactly eight digits.

A line comes with the line feed that ends it.  It is scanned once for comments and
blanks together: a comment ends before the line feed, which is deleted as a blank.
-/

/-- A program: its name, its bytes, and the number of the line that each byte
comes from. -/
structure Program where
  name : String
  bytes : Array UInt8 := #[]
  lines : Array Nat := #[]
deriving DecidableEq, Repr

namespace Program

/-- The line that the byte at an address comes from. -/
def line? (program : Program) (address : Int) : Option Nat :=
  if 0 ≤ address then program.lines[address.toNat]? else none

/-- A line that holds something else than eight binary digits.  The content is
what remains of the line without its comment and its blanks. -/
structure FormatError where
  line : Nat
  content : String
deriving DecidableEq, Repr

/-- The message names the line and shows its content. -/
def FormatError.message (error : FormatError) : String :=
  "line " ++ Numeral.decimal error.line ++ ": expected 8 binary digits, got " ++
    Text.quoted error.content

/-- The lines of a text that goes on with a begun line, whose characters are given last
first.  Each line keeps its line feed.  There is no line behind the last line feed. -/
def rawLinesFrom (begun : List Char) : List Char → List (List Char)
  | [] => if begun.isEmpty then [] else [begun.reverse]
  | char :: rest =>
    if char = '\n' then (char :: begun).reverse :: rawLinesFrom [] rest
    else rawLinesFrom (char :: begun) rest

def rawLines (text : List Char) : List (List Char) :=
  rawLinesFrom [] text

/-- Scans a line from left to right and deletes its comments and its blanks.  What was
kept so far is given last first. -/
def scan (inComment : Bool) (kept : List Char) : List Char → List Char
  | [] => kept.reverse
  | char :: rest =>
    if inComment = true ∧ char ≠ '\n' then scan true kept rest
    else if char = '#' then scan true kept rest
    else if Text.isBlank char then scan false kept rest
    else scan false (char :: kept) rest

/-- What a line holds besides its comment and its blanks. -/
def content (line : List Char) : List Char :=
  scan false [] line

def isBit (char : Char) : Bool :=
  char == '0' || char == '1'

/-- The byte with the given binary digits, the highest first. -/
def byteOfBits (bits : List Char) : UInt8 :=
  bits.foldl (fun byte char => 2 * byte + (if char = '1' then 1 else 0)) 0

/-- The byte that a content stands for. -/
def readByte? (content : List Char) : Option UInt8 :=
  if content.length = 8 ∧ content.all isBit = true then some (byteOfBits content) else none

def readLine (program : Program) (number : Nat) (line : List Char) : Except FormatError Program :=
  match content line with
  | [] => .ok program
  | found =>
    match readByte? found with
    | some byte =>
      .ok { program with
        bytes := program.bytes.push byte
        lines := program.lines.push number }
    | none => .error ⟨number, String.ofList found⟩

/-- Reads lines, the first of which has the given number, and stops at the
first that is wrong. -/
def readLines (program : Program) (number : Nat) : List (List Char) → Except FormatError Program
  | [] => .ok program
  | line :: rest =>
    match readLine program number line with
    | .ok program => readLines program (number + 1) rest
    | .error error => .error error

/-- The program that a text describes.  Lines end at line feeds alone and are
numbered from one. -/
def parse (name text : String) : Except FormatError Program :=
  readLines { name } 1 (rawLines text.toList)

end Program
end EightBit
