import Patchbay.Frame
import Patchbay.Number.Single

/-!
# Test pictures

A picture of a configured size, either of one value throughout or a ramp from zero at the left edge
to that value at the right edge.
-/

namespace Patchbay

/-- What a test picture shows. -/
inductive Pattern where
  /-- One value throughout. -/
  | solid
  /-- A ramp across each row. -/
  | gradient
  deriving DecidableEq, Inhabited

def Pattern.name : Pattern → String
  | .solid => "Solid"
  | .gradient => "Gradient"

def Pattern.ofName? (s : String) : Option Pattern :=
  [Pattern.solid, Pattern.gradient].find? fun p => p.name == s

structure Picture where
  width : Nat
  height : Nat
  channels : Nat
  /-- The value of the picture, for a ramp the one at its right edge. -/
  fill : Float32
  pattern : Pattern
  deriving DecidableEq

namespace Picture

def standard : Picture :=
  { width := 64, height := 64, channels := 4, fill := 1, pattern := .solid }

/-- How far column `x` of a row of `width` pixels is from the left edge, the right edge being one;
a single column is the right edge. -/
def ramp (width x : Nat) : Float32 :=
  if 1 < width then Single.ofInt (Int.ofNat x) / Single.ofInt (Int.ofNat (width - 1)) else 1

/-- The `count` samples of a ramp, row by row and in each row pixel by pixel. Without samples there is nothing
to go through, however wide or high the picture is. -/
def rampSamples (p : Picture) (count : Nat) : Array Float32 :=
  if count = 0 then #[]
  else
    p.height.fold (fun _ _ rows =>
      p.width.fold (fun x _ samples =>
        samples ++ Array.replicate p.channels (ramp p.width x * p.fill)) rows)
      (Array.emptyWithCapacity count)

/-- The picture as a frame; an unusable size gives the empty frame. -/
def render (p : Picture) : Frame :=
  match Frame.sampleCount? p.width p.height p.channels with
  | none => .empty
  | some count =>
    match p.pattern with
    | .solid => .filled p.width p.height p.channels p.fill
    | .gradient => .ofSamples p.width p.height p.channels (p.rampSamples count)

/-- Whether the picture has at least one sample. -/
def isUsable (p : Picture) : Bool :=
  match Frame.sampleCount? p.width p.height p.channels with
  | some count => decide (0 < count)
  | none => false

end Picture

end Patchbay
