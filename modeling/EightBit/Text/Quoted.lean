import EightBit.Numeral
import EightBit.Text.Printable

namespace EightBit
namespace Text

/-!
# Quoted text

A message shows a piece of input between quotes, in one line and in printable
characters, so that blanks and invisible characters can be seen.  The quotes
are single ones, unless the text has a single quote and no double one.
-/

namespace Quoted

/-- The hexadecimal escape of a character: two digits after `x`, four after
`u` or eight after `U`, the shortest of them that fits. -/
def hexEscape (char : Char) : List Char :=
  let code := char.toNat
  let (letter, width) :=
    if code ≤ 0xFF then ('x', 2) else if code ≤ 0xFFFF then ('u', 4) else ('U', 8)
  let shown := Numeral.digits 16 code
  '\\' :: letter :: (List.replicate (width - shown.length) '0' ++ shown)

/-- One character between quotes.  The quote in use and the backslash get a
backslash before them; tabulator, line feed and carriage return have letters;
what `keep` rejects is escaped by its code. -/
def piece (keep : Char → Bool) (quote char : Char) : List Char :=
  if char = quote ∨ char = '\\' then ['\\', char]
  else if char = '\t' then ['\\', 't']
  else if char = '\n' then ['\\', 'n']
  else if char = '\r' then ['\\', 'r']
  else if keep char then [char]
  else hexEscape char

/-- The quote that a text is written between. -/
def mark (text : List Char) : Char :=
  if '\'' ∈ text ∧ '"' ∉ text then '"' else '\''

/-- A text between quotes; characters that `keep` accepts stand for
themselves. -/
def write (keep : Char → Bool) (text : List Char) : List Char :=
  let quote := mark text
  quote :: (text.flatMap (piece keep quote) ++ [quote])

end Quoted

/-- A text between quotes, printable characters of all scripts kept. -/
def quoted (text : String) : String :=
  String.ofList (Quoted.write isPrintable text.toList)

/-- A text between quotes, in ASCII characters only. -/
def quotedAscii (text : String) : String :=
  String.ofList (Quoted.write (fun char => char.toNat < 0x80 && isPrintable char) text.toList)

end Text
end EightBit
