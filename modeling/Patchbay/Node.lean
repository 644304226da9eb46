import Patchbay.Frame.Picture
import Patchbay.Node.Script
import Patchbay.Transition

/-!
# Nodes

A node has an identity, a display name, a position on the canvas, a switch, and a body. The body is
one of six built-in kinds or a scripted one. It carries the settings of its kind and the identities
of its pins, and from these follow the pins themselves, in order (`Node.inputs`, `Node.outputs`), and
the pins that automatic wiring may use (`Node.advertised`). So a node of a built-in kind cannot have
other pins than its kind has.

`NodeChange` is one assignment to a field that a host may edit. A change never touches identities.
-/

namespace Patchbay

/-- A place on the canvas. -/
structure Point where
  x : Float32
  y : Float32
  deriving DecidableEq

/-- The corner of the canvas. -/
def Point.zero : Point := ⟨0, 0⟩

/-! ## The built-in kinds -/

/-- The built-in node types. -/
inductive Builtin where
  /-- Where a run begins. -/
  | start
  /-- Where a run ends: keeps the frame it is given. -/
  | finish
  /-- Publishes a number. -/
  | constant
  /-- Publishes a test picture. -/
  | picture
  /-- Continues one way or the other. -/
  | branch
  /-- Blends two frames. -/
  | transition
  deriving DecidableEq, Inhabited

namespace Builtin

/-- All built-in types in catalog order. -/
def all : List Builtin := [start, finish, constant, picture, branch, transition]

/-- The description of a built-in type. -/
def info : Builtin → TypeInfo
  | start => ⟨"Start", 1, .entryPoint, "System"⟩
  | finish => ⟨"End", 1, .exitPoint, "System"⟩
  | constant => ⟨"Float", 1, .internal, "Constant"⟩
  | picture => ⟨"Mat Source", 1, .internal, "Media#Source"⟩
  | branch => ⟨"Branch", 1, .internal, "Flow"⟩
  | transition => ⟨"Move Transform", 1, .internal, "Fusion#Video#Move"⟩

end Builtin

/-- The pins of an end node. -/
structure FinishPins where
  enter : PinId
  frame : PinId
  deriving DecidableEq

namespace FinishPins

/-- Where flow arrives. -/
def enterPin (p : FinishPins) : Pin := .input p.enter "End" .flow

/-- The frame to keep. -/
def framePin (p : FinishPins) : Pin := .input p.frame "In" .frame

end FinishPins

structure BranchPins where
  enter : PinId
  condition : PinId
  onTrue : PinId
  onFalse : PinId
  deriving DecidableEq

namespace BranchPins

/-- Where flow arrives. -/
def enterPin (p : BranchPins) : Pin := .input p.enter "Enter" .flow

/-- What decides; true unless something else is stored or linked. -/
def conditionPin (p : BranchPins) : Pin :=
  { Pin.input p.condition "Condition" .bool with initial := .bool true }

/-- Where flow leaves if the condition holds. -/
def truePin (p : BranchPins) : Pin := .output p.onTrue "True" .flow

/-- Where flow leaves otherwise. -/
def falsePin (p : BranchPins) : Pin := .output p.onFalse "False" .flow

end BranchPins

structure TransitionPins where
  enter : PinId
  first : PinId
  second : PinId
  pos : PinId
  exit : PinId
  out : PinId
  deriving DecidableEq

namespace TransitionPins

/-- Where flow arrives. -/
def enterPin (p : TransitionPins) : Pin := .input p.enter "Enter" .flow

/-- The picture that goes. -/
def firstPin (p : TransitionPins) : Pin := .input p.first "In 1" .frame

/-- The picture that comes. -/
def secondPin (p : TransitionPins) : Pin := .input p.second "In 2" .frame

/-- The progress. -/
def posPin (p : TransitionPins) : Pin := .input p.pos "Pos" .float

/-- Where flow leaves. -/
def exitPin (p : TransitionPins) : Pin := .output p.exit "Exit" .flow

/-- The blended picture. -/
def outPin (p : TransitionPins) : Pin := .output p.out "Out" .frame

end TransitionPins

/-- The kind of a node with its settings and the identities of its pins. -/
inductive Body where
  | start (out : PinId)
  | finish (pins : FinishPins)
  | constant (out : PinId) (value : Float32)
  | picture (out : PinId) (settings : Picture)
  | branch (pins : BranchPins)
  | transition (pins : TransitionPins) (settings : Transition)
  | scripted (type : ScriptedType) (inputs outputs : List Pin)
  deriving DecidableEq

/-- Where flow leaves a start node. -/
def startPin (out : PinId) : Pin := .output out "Start" .flow

/-- The number that a constant publishes. -/
def constantPin (out : PinId) : Pin := .output out "Out" .float

/-- The picture that a picture source publishes. -/
def picturePin (out : PinId) : Pin := .output out "Out" .frame

/-! ## Nodes and their pins -/

structure Node where
  id : NodeId
  name : String
  position : Point
  /-- Whether it is switched on; what that means is up to its kind. -/
  enabled : Bool
  body : Body
  deriving DecidableEq

/-- The pins of a node that automatic wiring may use. -/
structure Advertised where
  flowIn : Option Pin
  flowOut : Option Pin
  /-- Data pins that may be fed, the most wanted first. -/
  dataIn : List Pin
  /-- Data pins that may be read, the most wanted first. -/
  dataOut : List Pin

/-- What sort of node an edit expects. -/
inductive NodeClass where
  | builtin (b : Builtin)
  | scripted
  deriving DecidableEq

namespace Body

/-- The sort of node. -/
def nodeClass : Body → NodeClass
  | start _ => .builtin .start
  | finish _ => .builtin .finish
  | constant _ _ => .builtin .constant
  | picture _ _ => .builtin .picture
  | branch _ => .builtin .branch
  | transition _ _ => .builtin .transition
  | scripted _ _ _ => .scripted

/-- The description of the type. -/
def info : Body → TypeInfo
  | start _ => Builtin.start.info
  | finish _ => Builtin.finish.info
  | constant _ _ => Builtin.constant.info
  | picture _ _ => Builtin.picture.info
  | branch _ => Builtin.branch.info
  | transition _ _ => Builtin.transition.info
  | scripted t _ _ => t.info

/-- The input pins in order. -/
def inputs : Body → List Pin
  | start _ | constant _ _ | picture _ _ => []
  | finish p => [p.enterPin, p.framePin]
  | branch p => [p.enterPin, p.conditionPin]
  | transition p _ => [p.enterPin, p.firstPin, p.secondPin, p.posPin]
  | scripted _ ins _ => ins

/-- The output pins in order. -/
def outputs : Body → List Pin
  | start out => [startPin out]
  | finish _ => []
  | constant out _ => [constantPin out]
  | picture out _ => [picturePin out]
  | branch p => [p.truePin, p.falsePin]
  | transition p _ => [p.exitPin, p.outPin]
  | scripted _ _ outs => outs

/-- The pins of one direction. -/
def side (b : Body) : Direction → List Pin
  | .input => b.inputs
  | .output => b.outputs

/-- The first pin of a direction and name. -/
def findPin? (b : Body) (direction : Direction) (name : String) : Option Pin :=
  (b.side direction).find? fun p => p.name == name

/-- The pin that a script or a host type refers to. -/
def resolve? (b : Body) (r : PinRef) : Option Pin := b.findPin? r.direction r.name

/-- The pins that automatic wiring may use. -/
def advertised (b : Body) : Advertised :=
  match b with
  | start out => ⟨none, some (startPin out), [], []⟩
  | finish p => ⟨some p.enterPin, none, [p.framePin], []⟩
  | constant out _ => ⟨none, none, [], [constantPin out]⟩
  | picture out _ => ⟨none, none, [], [picturePin out]⟩
  | branch p => ⟨some p.enterPin, some p.truePin, [p.conditionPin], []⟩
  | transition p _ =>
    ⟨some p.enterPin, some p.exitPin, [p.firstPin, p.secondPin], [p.outPin]⟩
  | scripted t _ _ =>
    ⟨t.flowIn.bind b.resolve?, t.flowOut.bind b.resolve?, t.dataIn.filterMap b.resolve?,
      t.dataOut.filterMap b.resolve?⟩

end Body

namespace Node

/-- The description of its type. -/
def info (n : Node) : TypeInfo := n.body.info

/-- The part it plays in a run. -/
def role (n : Node) : Role := n.info.role

/-- Whether a run ends at it. -/
def isExit (n : Node) : Bool := n.role == .exitPoint

/-- Whether a run begins at it. -/
def isEntry (n : Node) : Bool := n.role == .entryPoint

/-- Its input pins in order. -/
def inputs (n : Node) : List Pin := n.body.inputs

/-- Its output pins in order. -/
def outputs (n : Node) : List Pin := n.body.outputs

/-- All its pins, inputs first. -/
def pins (n : Node) : List Pin := n.inputs ++ n.outputs

/-- Its pin with the given identity. -/
def pin? (n : Node) (id : PinId) : Option Pin := n.pins.find? fun p => p.id == id

/-- Its first pin of a direction and name. -/
def findPin? (n : Node) (direction : Direction) (name : String) : Option Pin :=
  n.body.findPin? direction name

/-- The pins that automatic wiring may use. -/
def advertised (n : Node) : Advertised := n.body.advertised

def preferredFlow (n : Node) : Direction → Option Pin
  | .input => n.advertised.flowIn
  | .output => n.advertised.flowOut

/-- The data pins of a direction that a neighbour may be wired to: those advertised, or all of them
if none is. -/
def offered (n : Node) (direction : Direction) : List Pin :=
  let advertised := match direction with
    | .input => n.advertised.dataIn
    | .output => n.advertised.dataOut
  let pins := if advertised.isEmpty then n.body.side direction else advertised
  pins.filter fun p => !p.isFlow

end Node

/-! ## Edits -/

/-- An assignment to one field of a node. -/
inductive NodeChange where
  | name (s : String)
  | position (p : Point)
  | enabled (b : Bool)
  | value (x : Float32)
  | width (n : Nat)
  | height (n : Nat)
  | channels (n : Nat)
  | fill (x : Float32)
  | pattern (p : Pattern)
  | move (m : Move)
  | elementType (t : ElementType)
  deriving DecidableEq

/-- Assigns to a field of the body; a field that the kind does not have is left out. -/
def Body.apply : NodeChange → Body → Body
  | .value x, .constant out _ => .constant out x
  | .width n, .picture out s => .picture out { s with width := n }
  | .height n, .picture out s => .picture out { s with height := n }
  | .channels n, .picture out s => .picture out { s with channels := n }
  | .fill x, .picture out s => .picture out { s with fill := x }
  | .pattern p, .picture out s => .picture out { s with pattern := p }
  | .move m, .transition pins s => .transition pins { s with move := m }
  | .elementType t, .transition pins s => .transition pins { s with elementType := t }
  | _, b => b

/-- Assigns to a field. -/
def Node.apply (n : Node) : NodeChange → Node
  | .name s => { n with name := s }
  | .position p => { n with position := p }
  | .enabled b => { n with enabled := b }
  | c => { n with body := n.body.apply c }

/-- Makes several assignments in order. -/
def Node.applyAll (n : Node) (changes : List NodeChange) : Node := changes.foldl Node.apply n

end Patchbay
