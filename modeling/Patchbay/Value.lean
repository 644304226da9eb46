import Patchbay.Frame
import Patchbay.Number.Single

/-!
# Values of data pins

What a data pin may hold, and the readings of a value as a number, a truth value, a text or a frame.
The readings never fail: where a value has none, the caller's default takes its place.
-/

namespace Patchbay

inductive Value where
  | empty
  | bool (b : Bool)
  | int (n : Int64)
  | float (x : Float32)
  | vec2 (x y : Float32)
  | vec3 (x y z : Float32)
  | vec4 (x y z w : Float32)
  /-- Red, green, blue and opacity. -/
  | color (r g b a : Float32)
  | text (s : String)
  | frame (f : Frame)
  deriving DecidableEq, Inhabited

namespace Value

/-- Whether there is nothing, or only an empty frame. -/
def isEmpty : Value → Bool
  | empty => true
  | frame f => f.isEmpty
  | _ => false

/-- As a number: integers are rounded, truth is one. -/
def asFloat (default : Float32) : Value → Float32
  | float x => x
  | int n => Single.ofInt n.toInt
  | bool b => if b then 1 else 0
  | _ => default

/-- As an integer: numbers are truncated, truth is one. -/
def asInt (default : Int64) : Value → Int64
  | int n => n
  | float x => Single.toInt64 x
  | bool b => if b then 1 else 0
  | _ => default

/-- As a truth value: a number is true unless it equals zero. -/
def asBool (default : Bool) : Value → Bool
  | bool b => b
  | int n => n != 0
  | float x => x != 0
  | _ => default

def text? : Value → Option String
  | text s => some s
  | _ => none

/-- The frame, or the empty one. -/
def toFrame : Value → Frame
  | frame f => f
  | _ => .empty

def isFrame : Value → Bool
  | frame _ => true
  | _ => false

/-- Whether two values agree, numbers being compared by value: zeros of either sign agree, and a NaN
agrees with nothing. -/
def agrees : Value → Value → Bool
  | empty, empty => true
  | bool a, bool b => a == b
  | int a, int b => a == b
  | float a, float b => a == b
  | vec2 a b, vec2 a' b' => a == a' && b == b'
  | vec3 a b c, vec3 a' b' c' => a == a' && b == b' && c == c'
  | vec4 a b c d, vec4 a' b' c' d' => a == a' && b == b' && c == c' && d == d'
  | color a b c d, color a' b' c' d' => a == a' && b == b' && c == c' && d == d'
  | text a, text b => a == b
  | frame f, frame g => f.agrees g
  | _, _ => false

end Value

end Patchbay
