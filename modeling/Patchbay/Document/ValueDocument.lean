import Patchbay.Document.NodeDocument
import Patchbay.Text.Hex
import Patchbay.Value

/-!
# Exact documents of values

A value as a document from which it can be had back bit by bit: a number in single precision is
written as the eight hexadecimal digits of its bits, one in double precision as sixteen, and what is
not a number as `nan`. Where such a number is read, an ordinary number stands for the nearest one.

The value of a pin is an object whose only key names its kind, or the text `Empty`. A frame lists its
fields; its samples are written as runs of equal ones. A frame is read from its size and either all
its samples or the one that fills it, with fields to be set afterwards.
-/

namespace Patchbay

/-! ## Numbers -/

/-- The digits of `n`, filled up with zeros to so many. -/
def Hex.padded (width n : Nat) : String :=
  let ds := Nat.toDigits 16 n
  String.ofList (List.replicate (width - ds.length) '0' ++ ds)

namespace Json

/-- A single-precision number by its bits. -/
def ofSingleBits (x : Float32) : Json :=
  .string (if x.isNaN then "nan" else Hex.padded 8 x.toBits.toNat)

/-- A double-precision number by its bits. -/
def ofDoubleBits (x : Float) : Json :=
  .string (if x.isNaN then "nan" else Hex.padded 16 x.toBits.toNat)

/-- An ordinary number in double precision. -/
def double? : Json → Option Float
  | .number (.int n) => some (Float.ofInt n)
  | .number (.double x) => some x
  | _ => none

/-- A single-precision number, by its bits or as an ordinary number. -/
def exactSingle? : Json → Option Float32
  | .string s =>
    if s = "nan" then some (0 / 0)
    else (Hex.number? s.toList).map fun n => Float32.ofBits (UInt32.ofNat n)
  | j => j.double?.map Single.narrow

/-- A list of single-precision numbers. -/
def exactSingles? (j : Json) : Option (List Float32) := j.items?.bind fun js => js.mapM exactSingle?

/-- A natural number of 64 bits. -/
def size? (j : Json) : Option Nat := j.natBelow? 64

/-- A field read by `decode`, or `default` if it is not there. -/
def fieldOr {α : Type} (j : Json) (key : String) (decode : Json → Option α) (default : α) :
    Option α :=
  match j.field? key with
  | none => some default
  | some v => decode v

end Json

/-! ## Frames -/

def Device.toJson : Device → Json
  | .cpu => .string "Cpu"
  | .gpu n => .object [("Gpu", .ofNat n)]

def Device.ofJson? : Json → Option Device
  | .string s => if s = "Cpu" then some .cpu else none
  | .object [(k, n)] => if k = "Gpu" then n.size?.map .gpu else none
  | _ => none

/-- The element type of a document, by its name. -/
def ElementType.ofJson? (j : Json) : Option ElementType :=
  j.string?.bind fun s =>
    [ElementType.undefined, .int8, .int16, .float16, .float32].find? fun t => t.name == s

/-- Whether two samples are written alike. -/
def writtenAlike (x y : Float32) : Bool := (x.isNaN && y.isNaN) || x.toBits == y.toBits

/-- The runs of samples that are written alike, the last run first. -/
def sampleRuns (samples : Array Float32) : List (Nat × Float32) :=
  samples.foldl
    (fun runs x =>
      match runs with
      | (k, y) :: rest => if writtenAlike x y then (k + 1, y) :: rest else (1, x) :: (k, y) :: rest
      | [] => [(1, x)])
    []

def Frame.toJson (f : Frame) : Json :=
  .ofFields
    [("width", .ofNat f.width), ("height", .ofNat f.height), ("channels", .ofNat f.channels),
      ("data_type", .string f.elementType.name), ("device", f.device.toJson),
      ("time_stamp", .ofDoubleBits f.timeStamp), ("rate", .array [.ofInt f.rate.1, .ofInt f.rate.2]),
      ("flags", .ofNat f.flags),
      ("samples", .array <| (sampleRuns f.samples).reverse.map fun (k, x) =>
        .array [.ofNat k, .ofSingleBits x])]

/-- Sizes as a list of width, height and channels. -/
def readSizes? (j : Json) : Option (Nat × Nat × Nat) :=
  match j with
  | .array [w, h, c] => do return (← w.size?, ← h.size?, ← c.size?)
  | _ => none

/-- A frame rate as a list of numerator and denominator. -/
def readRate? (j : Json) : Option (Int × Int) :=
  match j with
  | .array [n, d] => do return (← n.int64?, ← d.int64?)
  | _ => none

/-- The frame of a document; `null` stands for the empty one. -/
def Frame.ofJson? (j : Json) : Option Frame := do
  if let .null := j then return .empty
  let width ← (← j.field? "width").size?
  let height ← (← j.field? "height").size?
  let channels ← (← j.field? "channels").size?
  let f ← match j.field? "samples" with
    | some samples => samples.exactSingles?.map fun xs => ofSamples width height channels xs.toArray
    | none => (j.fieldOr "fill" Json.exactSingle? 0).map fun x => filled width height channels x
  let elementType ← j.fieldOr "data_type" ElementType.ofJson? f.elementType
  let device ← j.fieldOr "device" Device.ofJson? f.device
  let timeStamp ← j.fieldOr "time_stamp" Json.double? f.timeStamp
  let rate ← j.fieldOr "rate" readRate? f.rate
  let flags ← j.fieldOr "flags" Json.size? f.flags
  let (width, height, channels) ← j.fieldOr "resize" readSizes? (f.width, f.height, f.channels)
  return { f with elementType, device, timeStamp, rate, flags, width, height, channels }

/-! ## Values and types -/

def Value.toJson : Value → Json
  | .empty => .string "Empty"
  | .bool b => .object [("Bool", .bool b)]
  | .int n => .object [("Int", .ofInt n.toInt)]
  | .float x => .object [("Float", .ofSingleBits x)]
  | .vec2 x y => numbers "Vec2" [x, y]
  | .vec3 x y z => numbers "Vec3" [x, y, z]
  | .vec4 x y z w => numbers "Vec4" [x, y, z, w]
  | .color r g b a => numbers "Color" [r, g, b, a]
  | .text s => .object [("String", .string s)]
  | .frame f => .object [("Mat", f.toJson)]
where
  /-- An object of a list of numbers. -/
  numbers (kind : String) (xs : List Float32) : Json :=
    .object [(kind, .array (xs.map .ofSingleBits))]

def Value.ofKind? (kind : String) (j : Json) : Option Value :=
  match kind with
  | "Bool" => j.bool?.map .bool
  | "Int" => j.int64?.map fun n => .int (Int64.ofInt n)
  | "Float" => j.exactSingle?.map .float
  | "String" => j.string?.map .text
  | "Mat" => (Frame.ofJson? j).map .frame
  | kind => do
    match kind, ← j.exactSingles? with
    | "Vec2", [x, y] => return .vec2 x y
    | "Vec3", [x, y, z] => return .vec3 x y z
    | "Vec4", [x, y, z, w] => return .vec4 x y z w
    | "Color", [r, g, b, a] => return .color r g b a
    | _, _ => none

def Value.ofJson? : Json → Option Value
  | .string s => if s = "Empty" then some .empty else none
  | .object [(kind, j)] => ofKind? kind j
  | _ => none

def PinType.toJson : PinType → Json
  | .custom n => .object [("Custom", .string n)]
  | t => .string t.name

def PinType.ofJson? : Json → Option PinType
  | .object [(k, n)] => if k = "Custom" then n.string?.map .custom else none
  | j =>
    j.string?.bind fun s =>
      [PinType.flow, .bool, .int, .float, .vec2, .vec3, .vec4, .color, .text, .frame, .any].find?
        fun t => t.name == s

end Patchbay
