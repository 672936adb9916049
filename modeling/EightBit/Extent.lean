namespace EightBit
namespace Extent

/-!
# Extents

Memory, traces and columns of text are made in an asked extent.  An extent
beyond what the computer has room for is refused, and one beyond all indices is
refused for that reason.
-/

/-- The greatest index: one below the 63rd power of two. -/
def maxIndex : Int := Int.pow 2 63 - 1

/-- Why an extent is refused. -/
inductive Excess where
  | exhausted
  | unindexable
deriving DecidableEq, Repr

/-- The message of a refused extent.  One that merely cannot be had is refused
without a word. -/
def Excess.message : Excess → String
  | exhausted => ""
  | unindexable => "cannot fit 'int' into an index-sized integer"

/-- Up to where extents can be had.  This differs from one computer to the next;
no computer has room beyond all indices, and each has room for the memory and the
trace that there are when nothing else is asked for. -/
structure Limit where
  greatest : Int
  ample : 256 ≤ greatest
  indexable : greatest ≤ maxIndex
deriving DecidableEq, Repr

namespace Limit

/-- Whatever can be indexed can be had. -/
def indices : Limit where
  greatest := maxIndex
  ample := by decide
  indexable := by decide

/-- The limit where none is told: what 32 bits can count. -/
def usual : Limit where
  greatest := Int.pow 2 32
  ample := by decide
  indexable := by decide

/-- What is too much about an extent, if anything is. -/
def excess? (limit : Limit) (extent : Int) : Option Excess :=
  if extent > maxIndex then some .unindexable
  else if extent > limit.greatest then some .exhausted
  else none

/-- No extent up to the greatest is refused. -/
theorem excess?_eq_none_iff (limit : Limit) (extent : Int) :
    limit.excess? extent = none ↔ extent ≤ limit.greatest := by
  have order := limit.indexable
  unfold excess?
  split
  · simp only [reduceCtorEq, false_iff]
    omega
  · split
    · simp only [reduceCtorEq, false_iff]
      omega
    · simp only [true_iff]
      omega

/-- What every computer has room for is never refused. -/
theorem excess?_of_le (limit : Limit) {extent : Int} (small : extent ≤ 256) :
    limit.excess? extent = none :=
  (limit.excess?_eq_none_iff extent).mpr (Int.le_trans small limit.ample)

end Limit

/-- What a computer has room for. -/
structure Room where
  memory : Limit := .usual
  trace : Limit := .usual
deriving DecidableEq, Repr

/-- An extent that is positive stays so as a natural number. -/
theorem toNat_pos {extent : Int} (positive : 0 < extent) : 0 < extent.toNat := by
  omega

end Extent
end EightBit
