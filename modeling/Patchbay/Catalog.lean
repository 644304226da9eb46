import Patchbay.Node

/-!
# The catalog of node types

A catalog lists the node types that a session knows, each under its name, in order of first
registration: registering a name again replaces the type in its place. `Catalog.create?` makes a node
of a type with the identity it is given and fresh identities for its pins.
-/

namespace Patchbay

/-- A node type that a catalog may hold. -/
inductive NodeType where
  | builtin (b : Builtin)
  | scripted (t : ScriptedType)
  deriving DecidableEq

namespace NodeType

def info : NodeType → TypeInfo
  | builtin b => b.info
  | scripted t => t.info

/-- The display name of new nodes. -/
def display : NodeType → String
  | builtin b => b.info.name
  | scripted t => t.display

/-- Gives each described pin a fresh identity. -/
def makePins : List PinSpec → Supply → List Pin × Supply
  | [], s => ([], s)
  | spec :: rest, s =>
    let (id, s) := s.takePin
    let (pins, s) := makePins rest s
    (spec.toPin id :: pins, s)

/-- The body of a new node of a built-in type. -/
def makeBuiltin (b : Builtin) (s : Supply) : Body × Supply :=
  match b with
  | .start =>
    let (out, s) := s.takePin
    (.start out, s)
  | .finish =>
    let (enter, s) := s.takePin
    let (frame, s) := s.takePin
    (.finish { enter, frame }, s)
  | .constant =>
    let (out, s) := s.takePin
    (.constant out 0, s)
  | .picture =>
    let (out, s) := s.takePin
    (.picture out .standard, s)
  | .branch =>
    let (enter, s) := s.takePin
    let (condition, s) := s.takePin
    let (onTrue, s) := s.takePin
    let (onFalse, s) := s.takePin
    (.branch { enter, condition, onTrue, onFalse }, s)
  | .transition =>
    let (enter, s) := s.takePin
    let (first, s) := s.takePin
    let (second, s) := s.takePin
    let (pos, s) := s.takePin
    let (exit, s) := s.takePin
    let (out, s) := s.takePin
    (.transition { enter, first, second, pos, exit, out } .standard, s)

def makeBody (t : NodeType) (s : Supply) : Body × Supply :=
  match t with
  | builtin b => makeBuiltin b s
  | scripted t =>
    let (inputs, s) := makePins (t.pins.filter fun p => p.direction == .input) s
    let (outputs, s) := makePins (t.pins.filter fun p => p.direction == .output) s
    (.scripted t inputs outputs, s)

/-- A new node with the given identity and the settings of a new node of the type. -/
def create (t : NodeType) (id : NodeId) (s : Supply) : Node × Supply :=
  let (body, s) := t.makeBody s
  ({ id, name := t.display, position := .zero, enabled := true, body }, s)

end NodeType

abbrev Catalog := List NodeType

namespace Catalog

def empty : Catalog := []

/-- Adds a type, in the place of one of the same name if there is one. -/
def register (t : NodeType) : Catalog → Catalog
  | [] => [t]
  | u :: rest => if u.info.name = t.info.name then t :: rest else u :: register t rest

def builtin : Catalog := Builtin.all.map .builtin

def find? (c : Catalog) (name : String) : Option NodeType :=
  List.find? (fun t => t.info.name == name) c

def has (c : Catalog) (name : String) : Bool := (c.find? name).isSome

def infos (c : Catalog) : List TypeInfo := c.map NodeType.info

/-- The descriptions of the types whose place in the catalog begins with `lead`. -/
def infosUnder (c : Catalog) (lead : String) : List TypeInfo :=
  c.infos.filter fun i => i.catalog.startsWith lead

def create? (c : Catalog) (name : String) (id : NodeId) (s : Supply) : Option (Node × Supply) :=
  (c.find? name).map fun t => t.create id s

end Catalog

end Patchbay
