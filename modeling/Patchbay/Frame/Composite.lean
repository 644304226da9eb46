import Patchbay.Frame.Checked

/-!
# Compositing frames

A canvas of zeros takes layers one after the other, each at an offset that may be negative or past
the edge; what lies outside the canvas is cut off, and a later layer covers an earlier one.

`Composite.draw` works on the buffers: `Layer.paste?` clips a layer to the canvas and copies what is left
row by row. All its arithmetic is checked.
-/

namespace Patchbay

/-- A frame placed on a canvas. -/
structure Layer where
  frame : Frame
  /-- Column of the canvas where its first column falls. -/
  dx : Int64
  /-- Row of the canvas where its first row falls. -/
  dy : Int64
  deriving DecidableEq

/-- A canvas and the layers to draw on it, the lowest first. -/
structure Composite where
  width : Nat
  height : Nat
  /-- Samples in a pixel; every layer must have as many. -/
  channels : Nat
  elementType : ElementType
  /-- The layers, drawn in order. -/
  layers : List Layer
  deriving DecidableEq

inductive CompositeError where
  /-- The canvas has no samples or too many. -/
  | unusableCanvas (width height channels : Nat)
  /-- A layer has another number of channels than the canvas. -/
  | channelMismatch (layer canvas : Nat)
  /-- The size fields of a layer do not describe its samples. -/
  | sizeMismatch (width height channels samples : Nat)
  /-- A number or a place left its range while a layer was copied. -/
  | outOfRange
  deriving DecidableEq

def sizeText (width height channels : Nat) : String :=
  s!"{width}x{height}x{channels}"

def CompositeError.message : CompositeError → String
  | .unusableCanvas w h c => "Invalid format: unusable canvas " ++ sizeText w h c
  | .channelMismatch l c => s!"Invalid format: layer has {l} channels, canvas has {c}"
  | .sizeMismatch w h c n =>
    "Invalid format: layer size " ++ sizeText w h c ++ s!" does not match its {n} samples"
  | .outOfRange => "Arithmetic leaves the range of sizes and offsets"

namespace Layer

/-- Where a layer is seen along one side of the canvas: from the first place up to the second, or nowhere
if they are not in this order. -/
def window (offset : Int64) (extent canvas : Nat) : Int64 × Int64 :=
  (max offset 0, min (Checked.addClamped offset (.ofNat extent)) (.ofNat canvas))

/-- Copies `count` samples of the layer over row `y` of a canvas, from column `x` on. -/
def copyRow? (l : Layer) (width channels : Nat) (x : Int64) (count : Nat) (canvas : Array Float32)
    (y : Int64) : Option (Array Float32) := do
  let row ← Checked.offset? (y.toInt - l.dy.toInt)
  let column ← Checked.offset? (x.toInt - l.dx.toInt)
  let source ←
    Checked.place? l.frame.width channels (Checked.toSize row) (Checked.toSize column)
  let target ← Checked.place? width channels (Checked.toSize y) (Checked.toSize x)
  Checked.overwrite? l.frame.samples source canvas target count

/-- Draws the layer over the samples of a canvas: clips it and copies the rows that are seen. -/
def paste? (width height channels : Nat) (canvas : Array Float32) (l : Layer) :
    Option (Array Float32) := do
  let (x0, x1) := window l.dx l.frame.width width
  let (y0, y1) := window l.dy l.frame.height height
  if x1 ≤ x0 ∨ y1 ≤ y0 then return canvas
  let columns ← Checked.offset? (x1.toInt - x0.toInt)
  let count ← Checked.size? (Checked.toSize columns * channels)
  (List.range (y1.toInt - y0.toInt).toNat).foldlM
    (fun canvas k => l.copyRow? width channels x0 count canvas (y0 + .ofNat k)) canvas

/-- Why the layer cannot be drawn on a canvas with so many channels, if it cannot. -/
def fault? (channels : Nat) (l : Layer) : Option CompositeError :=
  if l.frame.channels ≠ channels then some (.channelMismatch l.frame.channels channels)
  else if l.frame.isConsistent then none
  else some (.sizeMismatch l.frame.width l.frame.height l.frame.channels l.frame.samples.size)

end Layer

namespace Composite

/-- The number of samples of the canvas, if it has any and not too many. -/
def canvasCount? (job : Composite) : Option Nat :=
  (Frame.sampleCount? job.width job.height job.channels).filter (0 < ·)

/-- Draws all layers, unless the canvas or one of them is unusable. -/
def draw (job : Composite) (device : Device) : Except CompositeError Frame :=
  match job.canvasCount? with
  | none => .error (.unusableCanvas job.width job.height job.channels)
  | some count =>
    match job.layers.findSome? (Layer.fault? job.channels) with
    | some fault => .error fault
    | none =>
      match job.layers.foldlM (Layer.paste? job.width job.height job.channels)
          (Array.replicate count 0) with
      | none => .error .outOfRange
      | some canvas =>
        .ok { Frame.ofSamples job.width job.height job.channels canvas with
              elementType := job.elementType, device := device }

end Composite

/-- Draws composites for one device. -/
structure Compositor where
  /-- The device that its results are tagged with. -/
  device : Device
  deriving DecidableEq, Inhabited

end Patchbay
