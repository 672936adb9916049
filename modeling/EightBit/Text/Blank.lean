namespace EightBit
namespace Text

/-!
# Blank characters

The blank characters are the white space of the Unicode standard together
with the four information separators `U+001C` to `U+001F`.  Program lines drop
them everywhere and category names drop them at both ends.
-/

def isBlank (char : Char) : Bool :=
  let code := char.toNat
  (9 ≤ code && code ≤ 13) || (0x1C ≤ code && code ≤ 0x20) || code == 0x85 || code == 0xA0 ||
    code == 0x1680 || (0x2000 ≤ code && code ≤ 0x200A) || code == 0x2028 || code == 0x2029 ||
    code == 0x202F || code == 0x205F || code == 0x3000

/-- The characters between the first and the last that a test rejects. -/
def trim (drop : Char → Bool) (text : List Char) : List Char :=
  ((text.dropWhile drop).reverse.dropWhile drop).reverse

/-- The text without the blank characters at its two ends. -/
def strip (text : List Char) : List Char :=
  trim isBlank text

end Text
end EightBit
