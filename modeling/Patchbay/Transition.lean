import Patchbay.Frame.Composite
import Patchbay.Number.Single

/-!
# Transitions

A transition replaces one picture by another that pushes it off the canvas. `Move` says from which
edge the second picture comes; `Move.offsets` places both at a progress from zero, where only the
first is seen, to one, where only the second is. Offsets are products in single precision, truncated
to integers.
-/

namespace Patchbay

/-- The edge from which the second picture comes. -/
inductive Move where
  | right
  | left
  | bottom
  | top
  deriving DecidableEq, Inhabited

namespace Move

/-- The number that stands for the move in documents. -/
def code : Move → Int
  | right => 0
  | left => 1
  | bottom => 2
  | top => 3

/-- The move that a number stands for. -/
def ofCode? (n : Int) : Option Move :=
  [right, left, bottom, top].find? fun m => m.code == n

def name : Move → String
  | right => "Right"
  | left => "Left"
  | bottom => "Bottom"
  | top => "Top"

/-- How far the first picture has been pushed. -/
def lead (pos : Float32) (extent : Nat) : Int64 :=
  Single.toInt64 (pos * Single.ofInt (Int.ofNat extent))

/-- How far the second picture still has to come. -/
def trail (pos : Float32) (extent : Nat) : Int64 :=
  Single.toInt64 ((1 - pos) * Single.ofInt (Int.ofNat extent))

/-- The offsets of both pictures on a canvas of the given size. -/
def offsets (m : Move) (pos : Float32) (width height : Nat) : (Int64 × Int64) × (Int64 × Int64) :=
  match m with
  | right => ((-lead pos width, 0), (trail pos width, 0))
  | left => ((lead pos width, 0), (-trail pos width, 0))
  | bottom => ((0, -lead pos height), (0, trail pos height))
  | top => ((0, lead pos height), (0, -trail pos height))

end Move

structure Transition where
  /-- The edge from which the second picture comes. -/
  move : Move
  /-- Element type of the result; `undefined` keeps that of the first picture. -/
  elementType : ElementType
  deriving DecidableEq

namespace Transition

def standard : Transition := { move := .right, elementType := .undefined }

/-- The composite of two pictures at a progress, on a canvas of the size of the first. -/
def composite (t : Transition) (first second : Frame) (pos : Float32) : Composite :=
  let (a, b) := t.move.offsets pos first.width first.height
  { width := first.width
    height := first.height
    channels := first.channels
    elementType := if t.elementType = .undefined then first.elementType else t.elementType
    layers := [⟨first, a.1, a.2⟩, ⟨second, b.1, b.2⟩] }

end Transition

end Patchbay
