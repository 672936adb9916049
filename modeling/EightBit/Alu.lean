import EightBit.Byte
import EightBit.Text.Quoted

namespace EightBit
namespace Alu

/-!
# Arithmetic and comparison

The arithmetic unit works on values and knows no registers.  It cuts both
operands to eight bits and gives a value of eight bits, an answer to a
comparison, or nothing at all for a division by zero.
-/

inductive Op where
  | add
  | sub
  | mul
  | div
  | inc
  | dec
  | cmp
deriving DecidableEq, Repr

/-- What an operation gives: a value to write back, if there is one, and the
answer of a comparison, if it was one. -/
structure Result where
  value : Option Int := none
  equal : Option Bool := none
deriving DecidableEq, Repr

/-- Applies an operation to two operands.  The operations on one operand ignore
the second. -/
def apply (op : Op) (first second : Int) : Result :=
  let a := Byte.low first
  let b := Byte.low second
  match op with
  | .add => { value := some (Byte.low (a + b)) }
  | .sub => { value := some (Byte.low (a - b)) }
  | .mul => { value := some (Byte.low (a * b)) }
  | .div => if b = 0 then {} else { value := some (a / b) }
  | .inc => { value := some (Byte.low (a + 1)) }
  | .dec => { value := some (Byte.low (a - 1)) }
  | .cmp => { equal := some (decide (a = b)) }

namespace Op

def all : List Op :=
  [add, sub, mul, div, inc, dec, cmp]

def name : Op → String
  | add => "ADD"
  | sub => "SUB"
  | mul => "MUL"
  | div => "DIV"
  | inc => "INC"
  | dec => "DEC"
  | cmp => "CMP"

def ofName? (name : String) : Option Op :=
  all.find? fun op => op.name == name

/-- The message for a name that is no operation's. -/
def unknownMessage (name : String) : String :=
  "unsupported ALU operation: " ++ Text.quoted name

def isUnary : Op → Bool
  | inc => true
  | dec => true
  | _ => false

end Op
end Alu
end EightBit
