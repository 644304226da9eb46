import Patchbay.Frame

/-!
# Checked sizes and offsets

Sizes count places of a buffer and stay below `Frame.sizeLimit`; offsets are signed and stay within the
range of `Int64`. A product, sum or difference that leaves its range gives nothing here, so a computation
that comes to a result has stayed within the ranges all the way.
-/

namespace Patchbay.Checked

/-- The number as a size, unless it is out of range. -/
def size? (n : Nat) : Option Nat := if n < Frame.sizeLimit then some n else none

/-- The number as an offset, unless it is out of range. -/
def offset? (n : Int) : Option Int64 :=
  if Int64.minValue.toInt ≤ n ∧ n ≤ Int64.maxValue.toInt then some (.ofInt n) else none

/-- The sum of two offsets; one that is out of range is replaced by the end of the range. -/
def addClamped (a b : Int64) : Int64 := .ofIntClamp (a.toInt + b.toInt)

/-- An offset read as a size. A negative one becomes a size near the limit. -/
def toSize (a : Int64) : Nat := a.toUInt64.toNat

/-- The place in a buffer of `width` pixels a row where the pixel at `row` and `column` begins. -/
def place? (width channels row column : Nat) : Option Nat := do
  let start ← size? (row * width)
  let pixel ← size? (start + column)
  size? (pixel * channels)

/-- The samples of `target`, those from place `j` on overwritten with the `count` samples of `source` from
place `i` on. -/
def overwrite (source : Array Float32) (i : Nat) (target : Array Float32) (j count : Nat) :
    Array Float32 :=
  count.fold (fun k _ copied => copied.setIfInBounds (j + k) (source.getD (i + k) 0)) target

/-- Overwrites samples, provided that both stretches are within their buffers. -/
def overwrite? (source : Array Float32) (i : Nat) (target : Array Float32) (j count : Nat) :
    Option (Array Float32) := do
  let sourceEnd ← size? (i + count)
  let targetEnd ← size? (j + count)
  if sourceEnd ≤ source.size ∧ targetEnd ≤ target.size then
    some (overwrite source i target j count)
  else none

end Patchbay.Checked
