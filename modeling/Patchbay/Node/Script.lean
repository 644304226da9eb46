import Patchbay.Pin

/-!
# Node types described by scripts

Besides the built-in types a host may bring its own. Such a type lists its pins, names those that
automatic wiring may use, and says as a script what its nodes do when they are executed. A script is
a list of instructions performed in order; it names pins by direction and name, and an instruction
that names a pin the node does not have does nothing.
-/

namespace Patchbay

/-- The part a node type plays in a run. -/
inductive Role where
  | internal
  | entryPoint
  | exitPoint
  deriving DecidableEq, Inhabited

def Role.name : Role → String
  | .internal => "Internal"
  | .entryPoint => "EntryPoint"
  | .exitPoint => "ExitPoint"

/-- The description of a node type. -/
structure TypeInfo where
  /-- The name that documents use. -/
  name : String
  version : Nat
  role : Role
  /-- Its place in the catalog, the steps separated by `#`. -/
  catalog : String
  deriving DecidableEq, Inhabited

/-- Names a pin of a node: the first one of this direction and name. -/
structure PinRef where
  direction : Direction
  name : String
  deriving DecidableEq

/-- One instruction of a script. -/
inductive Instruction where
  /-- Reads a pin and notes the value. -/
  | pull (p : PinRef)
  /-- Reads a pin and keeps the value on the same pin. -/
  | store (p : PinRef)
  /-- Publishes a value on a pin. -/
  | set (p : PinRef) (value : Value)
  /-- Reads one pin and publishes the value on another. -/
  | copy (source target : PinRef)
  /-- Reads two pins as numbers and publishes the sum on a third. -/
  | add (a b target : PinRef)
  /-- Reads two pins as numbers and publishes the product on a third. -/
  | multiply (a b target : PinRef)
  /-- Reports a failure of the node. -/
  | fail (message : String)
  /-- Records time spent, in milliseconds. -/
  | cost (milliseconds : Nat)
  /-- Notes the call stack. -/
  | showStack
  /-- Empties the call stack. -/
  | clearStack
  /-- Takes the node off the call stack if it is the innermost. -/
  | leave
  /-- Asks the run to stop, where the host lets nodes do so. -/
  | stop
  /-- Ends with an exit pin. -/
  | exit (p : PinRef)
  /-- Reads the first pin; if the value is true, ends with the second as exit pin. -/
  | exitIf (condition p : PinRef)
  /-- Ends with a pin of another node: the first output pin of the first other node that has one. -/
  | exitForeign
  /-- Ends without an exit pin. -/
  | halt
  deriving DecidableEq

/-- A pin as a host type describes it. -/
structure PinSpec where
  name : String
  direction : Direction
  type : PinType
  /-- The value it starts with, if not the default of its type. -/
  initial : Option Value
  deriving DecidableEq

/-- The pin of a description. -/
def PinSpec.toPin (s : PinSpec) (id : PinId) : Pin :=
  { id, name := s.name, direction := s.direction, type := s.type
    initial := s.initial.getD s.type.defaultValue }

/-- A node type described by a script. -/
structure ScriptedType where
  info : TypeInfo
  /-- The display name of new nodes. -/
  display : String
  /-- Its pins, inputs and outputs mixed. -/
  pins : List PinSpec
  /-- The flow pin through which automatic wiring enters its nodes. -/
  flowIn : Option PinRef
  /-- The flow pin through which automatic wiring leaves its nodes. -/
  flowOut : Option PinRef
  /-- The data pins that automatic wiring may feed. -/
  dataIn : List PinRef
  /-- The data pins that automatic wiring may read. -/
  dataOut : List PinRef
  script : List Instruction
  /-- Whether the start of a run is noted for each of its nodes. -/
  noteReset : Bool
  deriving DecidableEq

end Patchbay
