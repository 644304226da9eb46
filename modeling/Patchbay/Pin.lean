import Patchbay.Id
import Patchbay.Value

/-!
# Pins and their types

A pin is a named place on a node, for input or for output. Its type is flow, which orders work and
carries no value, or one of the data types.

Two relations compare types. `PinType.connectsTo` is what a link needs: flow joins flow alone, and
data joins the same type, the wildcard on either side, or a type it converts to. `PinType.accords`
is the narrower relation that automatic wiring uses: data of the same type or a wildcard.
-/

namespace Patchbay

/-- Which way a pin faces. -/
inductive Direction where
  | input
  | output
  deriving DecidableEq, Inhabited

def Direction.name : Direction → String
  | .input => "Input"
  | .output => "Output"

/-- What a pin carries. -/
inductive PinType where
  /-- The order of work; no value. -/
  | flow
  | bool
  | int
  | float
  | vec2
  | vec3
  | vec4
  | color
  | text
  | frame
  /-- Data of any type. -/
  | any
  /-- A type of the host. -/
  | custom (name : String)
  deriving DecidableEq, Inhabited

namespace PinType

def isFlow : PinType → Bool
  | flow => true
  | _ => false

/-- Whether two types are the same data type, or both data and one of them the wildcard. -/
def accords (a b : PinType) : Bool :=
  !a.isFlow && !b.isFlow && (a == any || b == any || a == b)

/-- Whether values of one type turn into another of themselves. -/
def converts : PinType → PinType → Bool
  | int, float | float, int => true
  | bool, int | bool, float => true
  | float, vec2 | float, vec3 | float, vec4 => true
  | color, vec4 | vec4, color => true
  | _, _ => false

/-- Whether a link may run from a pin of one type to a pin of another. -/
def connectsTo (a b : PinType) : Bool :=
  if a.isFlow || b.isFlow then a.isFlow && b.isFlow else a.accords b || a.converts b

/-- The value of a pin of this type that has none. -/
def defaultValue : PinType → Value
  | bool => .bool false
  | int => .int 0
  | float => .float 0
  | vec2 => .vec2 0 0
  | vec3 => .vec3 0 0 0
  | vec4 => .vec4 0 0 0 0
  | color => .color 0 0 0 0
  | text => .text ""
  | frame => .frame .empty
  | flow | any | custom _ => .empty

/-- The name of a type; a type of the host is shown by its own name. -/
def name : PinType → String
  | flow => "Flow"
  | bool => "Bool"
  | int => "Int"
  | float => "Float"
  | vec2 => "Vec2"
  | vec3 => "Vec3"
  | vec4 => "Vec4"
  | color => "Color"
  | text => "String"
  | frame => "Mat"
  | any => "Any"
  | custom n => n

end PinType

/-- A typed, named place on a node. -/
structure Pin where
  id : PinId
  /-- Name among the pins of the same direction. -/
  name : String
  direction : Direction
  type : PinType
  /-- The value it holds until another one is stored. -/
  initial : Value
  deriving DecidableEq

namespace Pin

/-- An input pin that starts with the default of its type. -/
def input (id : PinId) (name : String) (type : PinType) : Pin :=
  { id, name, direction := .input, type, initial := type.defaultValue }

/-- An output pin that starts with the default of its type. -/
def output (id : PinId) (name : String) (type : PinType) : Pin :=
  { id, name, direction := .output, type, initial := type.defaultValue }

def isFlow (p : Pin) : Bool := p.type.isFlow

def isInput (p : Pin) : Bool := p.direction == .input

/-- Whether a link may run from this pin to another, as far as direction and type go. -/
def canLinkTo (p q : Pin) : Bool :=
  p.direction == .output && q.direction == .input && p.type.connectsTo q.type

end Pin

end Patchbay
