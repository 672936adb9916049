import EightBit.Numeral

namespace EightBit
namespace Text

/-!
# Encoded text

Program files are bytes; reading one decodes the whole file first and then
brings its line ends to a single form.  A file that is no text in its encoding
is refused with the place and the reason of the first fault.
-/

/-- The encodings a program file can be read in. -/
inductive Encoding where
  | utf8
  | ascii
  | latin1
deriving DecidableEq, Repr

/-- Why bytes are no text: which of them, and what is wrong with them.  `stop`
is the position after the last one. -/
structure Undecodable where
  encoding : Encoding
  start : Nat
  stop : Nat
  byte : UInt8
  reason : String
deriving DecidableEq, Repr

namespace Encoding

def name : Encoding → String
  | utf8 => "utf-8"
  | ascii => "ascii"
  | latin1 => "latin-1"

end Encoding

namespace Undecodable

/-- The message: a single byte is shown, several are named by their positions. -/
def message (fault : Undecodable) : String :=
  let place :=
    if fault.stop = fault.start + 1 then
      "byte " ++ Numeral.Layout.address.write fault.byte.toNat ++ " in position " ++
        Numeral.decimal fault.start
    else
      "bytes in position " ++ Numeral.decimal fault.start ++ "-" ++
        Numeral.decimal (fault.stop - 1 : Nat)
  "'" ++ fault.encoding.name ++ "' codec can't decode " ++ place ++ ": " ++ fault.reason

end Undecodable

namespace Utf8

/-- How many bytes follow a lead byte, and the least and the greatest value of
the first of them.  The bounds exclude overlong forms, surrogates and numbers
beyond the last code point. -/
def lead? (byte : UInt8) : Option (Nat × UInt8 × UInt8) :=
  if byte < 0x80 then some (0, 0x80, 0xBF)
  else if byte < 0xC2 then none
  else if byte < 0xE0 then some (1, 0x80, 0xBF)
  else if byte = 0xE0 then some (2, 0xA0, 0xBF)
  else if byte = 0xED then some (2, 0x80, 0x9F)
  else if byte < 0xF0 then some (2, 0x80, 0xBF)
  else if byte = 0xF0 then some (3, 0x90, 0xBF)
  else if byte < 0xF4 then some (3, 0x80, 0xBF)
  else if byte = 0xF4 then some (3, 0x80, 0x8F)
  else none

/-- How many of the following bytes continue a character: at most `count`, the
first of them within its bounds and the others from `0x80` to `0xBF`. -/
def continued : Nat → UInt8 → UInt8 → List UInt8 → Nat
  | 0, _, _, _ => 0
  | _ + 1, _, _, [] => 0
  | count + 1, low, high, byte :: rest =>
    if low ≤ byte ∧ byte ≤ high then continued count 0x80 0xBF rest + 1 else 0

/-- The first fault from a position on.  `skip` bytes still belong to a
character that is known to be complete. -/
def fault? : (position skip : Nat) → List UInt8 → Option Undecodable
  | _, _, [] => none
  | position, skip + 1, _ :: rest => fault? (position + 1) skip rest
  | position, 0, byte :: rest =>
    match lead? byte with
    | none => some ⟨.utf8, position, position + 1, byte, "invalid start byte"⟩
    | some (count, low, high) =>
      let found := continued count low high rest
      if found = count then fault? (position + 1) count rest
      else
        some ⟨.utf8, position, position + 1 + found, byte,
          if rest.length = found then "unexpected end of data" else "invalid continuation byte"⟩

end Utf8

namespace Encoding

/-- The first byte beyond ASCII. -/
def asciiFault? (bytes : List UInt8) : Option Undecodable :=
  (bytes.zipIdx.find? fun (byte, _) => 0x80 ≤ byte).map fun (byte, position) =>
    ⟨.ascii, position, position + 1, byte, "ordinal not in range(128)"⟩

/-- Reads bytes as text.  ASCII and Latin-1 give one character for each byte. -/
def decode (encoding : Encoding) (bytes : ByteArray) : Except Undecodable String :=
  match encoding with
  | utf8 =>
    match String.fromUTF8? bytes with
    | some text => .ok text
    | none =>
      .error ((Utf8.fault? 0 0 bytes.toList).getD ⟨.utf8, 0, bytes.size, 0, "invalid data"⟩)
  | ascii =>
    match asciiFault? bytes.toList with
    | some fault => .error fault
    | none => .ok (String.ofList (bytes.toList.map fun byte => Char.ofNat byte.toNat))
  | latin1 => .ok (String.ofList (bytes.toList.map fun byte => Char.ofNat byte.toNat))

/-- A text that was encoded is read back. -/
theorem decode_toUTF8 (text : String) : decode .utf8 text.toUTF8 = .ok text := by
  have valid : text.toUTF8.IsValidUTF8 := text.isValidUTF8
  simp only [decode, String.fromUTF8?, dif_pos valid]
  rfl

end Encoding

/-- Puts a character in front of a text with line feeds only.  The flag says
whether the text began with a line feed before its line ends were changed, and
a carriage return in front of that one is dropped. -/
def joinLineEnd (char : Char) (rest : List Char × Bool) : List Char × Bool :=
  if char = '\r' then (if rest.2 then rest.1 else '\n' :: rest.1, false)
  else (char :: rest.1, char = '\n')

/-- Line ends in a single form: a carriage return, alone or before a line feed,
becomes a line feed. -/
def unixLineEnds (text : List Char) : List Char :=
  (text.foldr joinLineEnd ([], false)).1

@[simp] theorem unixLineEnds_return_feed (rest : List Char) :
    unixLineEnds ('\r' :: '\n' :: rest) = '\n' :: unixLineEnds rest := by
  simp [unixLineEnds, joinLineEnd]

/-- Every character but a carriage return stays. -/
theorem unixLineEnds_cons_of_ne (char : Char) (rest : List Char) (other : char ≠ '\r') :
    unixLineEnds (char :: rest) = char :: unixLineEnds rest := by
  simp [unixLineEnds, joinLineEnd, other]

end Text
end EightBit
