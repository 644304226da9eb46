/-!
# Frames

A frame is a rectangle of pixels with a fixed number of channels, held as one row-major buffer of
single-precision samples, together with tags that nothing here interprets: the element type, the
device, a time stamp, a frame rate and flags.

The size fields and the buffer are set together by `Frame.ofSamples`, but a host may change the size
fields alone; `Frame.isConsistent` says whether they still describe the buffer.
-/

namespace Patchbay

/-- The element type a frame is tagged with. -/
inductive ElementType where
  /-- Nothing said; a consumer keeps the type of its input. -/
  | undefined
  | int8
  | int16
  | float16
  | float32
  deriving DecidableEq, Inhabited

namespace ElementType

/-- The number that stands for the type in documents. -/
def code : ElementType → Int
  | undefined => -1
  | int8 => 0
  | int16 => 1
  | float16 => 2
  | float32 => 3

/-- The type that a number stands for. -/
def ofCode? (n : Int) : Option ElementType :=
  [undefined, int8, int16, float16, float32].find? fun t => t.code == n

def name : ElementType → String
  | undefined => "Undefined"
  | int8 => "Int8"
  | int16 => "Int16"
  | float16 => "Float16"
  | float32 => "Float32"

end ElementType

/-- Where the samples of a frame live. -/
inductive Device where
  /-- Memory of the host. -/
  | cpu
  /-- Memory of the accelerator with this number. -/
  | gpu (index : Nat)
  deriving DecidableEq, Inhabited

/-- A media frame. -/
structure Frame where
  width : Nat
  height : Nat
  /-- Samples in a pixel. -/
  channels : Nat
  elementType : ElementType
  device : Device
  /-- Presentation time in seconds. -/
  timeStamp : Float
  /-- Frame rate: numerator and denominator. -/
  rate : Int × Int
  flags : Nat
  /-- All samples, row by row, the channels of a pixel side by side. -/
  samples : Array Float32
  deriving DecidableEq

namespace Frame

/-- The most samples one frame may hold. -/
def maxSamples : Nat := Nat.pow 2 28

/-- Sizes and their products stay below this number. -/
def sizeLimit : Nat := UInt64.size

/-- The number of samples of a frame of the given size, unless a product on the way leaves the range
of sizes or the result exceeds `maxSamples`. -/
def sampleCount? (width height channels : Nat) : Option Nat :=
  if width * height < sizeLimit ∧ width * height * channels ≤ maxSamples then
    some (width * height * channels)
  else none

def empty : Frame :=
  { width := 0, height := 0, channels := 0, elementType := .undefined, device := .cpu
    timeStamp := 0, rate := (0, 0), flags := 0, samples := #[] }

instance : Inhabited Frame := ⟨empty⟩

/-- The frame of the given size and samples; the empty frame if their number does not fit the
size. -/
def ofSamples (width height channels : Nat) (samples : Array Float32) : Frame :=
  if sampleCount? width height channels = some samples.size then
    { width, height, channels, elementType := .float32, device := .cpu
      timeStamp := 0, rate := (0, 1), flags := 0, samples }
  else empty

/-- The frame of the given size whose samples all have one value; the empty frame if the size is
unusable. -/
def filled (width height channels : Nat) (value : Float32) : Frame :=
  match sampleCount? width height channels with
  | some count => ofSamples width height channels (Array.replicate count value)
  | none => empty

def isEmpty (f : Frame) : Bool := f.samples.isEmpty

/-- Whether the size fields describe the buffer. -/
def isConsistent (f : Frame) : Bool :=
  sampleCount? f.width f.height f.channels == some f.samples.size

/-- The sample of channel `c` at pixel `(x, y)`, if the size fields admit the place and the buffer
reaches it. -/
def sample? (f : Frame) (x y c : Nat) : Option Float32 :=
  if x < f.width ∧ y < f.height ∧ c < f.channels then
    f.samples[(y * f.width + x) * f.channels + c]?
  else none

/-- The frame with time stamp, rate and flags of another one. -/
def withTimingOf (f other : Frame) : Frame :=
  { f with timeStamp := other.timeStamp, rate := other.rate, flags := other.flags }

/-- Whether two frames agree, numbers being compared by value: zeros of either sign agree, and a NaN
agrees with nothing. -/
def agrees (f g : Frame) : Bool :=
  f.width == g.width && f.height == g.height && f.channels == g.channels &&
    f.elementType == g.elementType && f.device == g.device && f.timeStamp == g.timeStamp &&
    f.rate == g.rate && f.flags == g.flags && f.samples == g.samples

end Frame

end Patchbay
