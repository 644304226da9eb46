import Patchbay.Node
import Patchbay.Table

/-!
# Graphs of nodes and links

A graph holds its nodes and its links, each in the order they came in, and an index that tells which
node owns a pin. A link runs from an output pin to an input pin of another node; an input pin takes
one link at most. Removing a node takes its links and its part of the index along, so links never
dangle.

`Graph.link` checks a link in a fixed order, and the first rule broken decides the error.
-/

namespace Patchbay

/-- A link from an output pin to an input pin. -/
structure Link where
  id : LinkId
  fromNode : NodeId
  fromPin : PinId
  toNode : NodeId
  toPin : PinId
  /-- Whether it orders work; otherwise it carries data. -/
  flow : Bool
  deriving DecidableEq

namespace Link

def involvesNode (l : Link) (n : NodeId) : Bool := l.fromNode == n || l.toNode == n

def involvesPin (l : Link) (p : PinId) : Bool := l.fromPin == p || l.toPin == p

end Link

inductive LinkError where
  | pinNotFound (p : PinId)
  /-- The first pin is no output or the second no input. -/
  | wrongDirection
  | incompatiblePins (source target : PinType)
  | pinAlreadyLinked (p : PinId)
  /-- Both pins belong to one node. -/
  | selfLoop
  deriving DecidableEq

def LinkError.message : LinkError → String
  | .pinNotFound p => "Pin not found: " ++ p.wrapped
  | .wrongDirection => "Links run from an output pin to an input pin"
  | .incompatiblePins a b => "Incompatible pin types: " ++ a.name ++ " -> " ++ b.name
  | .pinAlreadyLinked p => "Pin already linked: " ++ p.wrapped
  | .selfLoop => "Self-loop not allowed"

/-- What is wrong with a graph or a request to it. -/
inductive GraphError where
  | duplicateNode (n : NodeId)
  | nodeNotFound (n : NodeId)
  | noEntryPoint
  | multipleEntryPoints
  | noReachableExit
  deriving DecidableEq

def GraphError.message : GraphError → String
  | .duplicateNode n => "Duplicate node: " ++ n.toText
  | .nodeNotFound n => "Node not found: " ++ n.toText
  | .noEntryPoint => "Graph has no entry point"
  | .multipleEntryPoints => "Graph has more than one entry point"
  | .noReachableExit => "No exit point is reachable from the entry point"

structure Graph where
  name : String
  nodes : List Node
  links : List Link
  /-- The node that owns each pin. -/
  owners : Table PinId NodeId
  deriving DecidableEq

namespace Graph

def empty (name : String) : Graph := { name, nodes := [], links := [], owners := [] }

/-! ## Looking up -/

def node? (g : Graph) (n : NodeId) : Option Node := g.nodes.find? fun m => m.id == n

def hasNode (g : Graph) (n : NodeId) : Bool := g.nodes.any fun m => m.id == n

def nodeIds (g : Graph) : List NodeId := g.nodes.map Node.id

def owner? (g : Graph) (p : PinId) : Option NodeId := g.owners.get? p

def pin? (g : Graph) (p : PinId) : Option Pin := do
  let n ← g.owner? p
  let m ← g.node? n
  m.pin? p

/-- The first pin of a node with a direction and name. -/
def findPin? (g : Graph) (n : NodeId) (direction : Direction) (name : String) : Option Pin := do
  let m ← g.node? n
  m.findPin? direction name

def link? (g : Graph) (l : LinkId) : Option Link := g.links.find? fun k => k.id == l

def linksFrom (g : Graph) (p : PinId) : List Link := g.links.filter fun l => l.fromPin == p

/-- The link that feeds an input pin. -/
def linkTo? (g : Graph) (p : PinId) : Option Link := g.links.find? fun l => l.toPin == p

def isLinked (g : Graph) (p : PinId) : Bool := g.links.any fun l => l.involvesPin p

/-- The links that begin or end at a node, in order. -/
def linksOf (g : Graph) (n : NodeId) : List Link := g.links.filter fun l => l.involvesNode n

/-! ## Changing -/

/-- Adds a node at the end and its pins to the index. -/
def addNode (g : Graph) (n : Node) : Except GraphError Graph :=
  if g.hasNode n.id then .error (.duplicateNode n.id)
  else .ok { g with
    nodes := g.nodes ++ [n]
    owners := n.pins.foldl (fun t p => t.set p.id n.id) g.owners }

/-- Removes a node with its links and its part of the index. -/
def removeNode (g : Graph) (n : NodeId) : Graph :=
  { g with
    nodes := g.nodes.filter fun m => m.id != n
    links := g.links.filter fun l => !l.involvesNode n
    owners := g.owners.filter fun e => e.2 != n }

/-- Takes a node out and hands it over, if it is there. -/
def takeNode? (g : Graph) (n : NodeId) : Option (Node × Graph) :=
  (g.node? n).map fun m => (m, g.removeNode n)

theorem takeNode?_some {g h : Graph} {n : NodeId} {m : Node} (htake : g.takeNode? n = some (m, h)) :
    g.node? n = some m ∧ h = g.removeNode n := by
  obtain ⟨m', hfound, heq⟩ := Option.map_eq_some_iff.mp htake
  obtain ⟨rfl, rfl⟩ := Prod.mk.inj heq
  exact ⟨hfound, rfl⟩

def updateNode (g : Graph) (n : NodeId) (f : Node → Node) : Graph :=
  { g with nodes := g.nodes.map fun m => if m.id = n then f m else m }

/-- The first rule that a link between two pins would break, if any. -/
def linkFault? (g : Graph) (source target : PinId) : Option LinkError :=
  match g.pin? source, g.pin? target with
  | none, _ => some (.pinNotFound source)
  | some _, none => some (.pinNotFound target)
  | some p, some q =>
    if p.direction ≠ .output ∨ q.direction ≠ .input then some .wrongDirection
    else if !p.canLinkTo q then some (.incompatiblePins p.type q.type)
    else if g.owner? source = g.owner? target then some .selfLoop
    else if g.isLinked target then some (.pinAlreadyLinked target)
    else none

/-- Links an output pin to an input pin; the new link gets the identity `id` and comes last. -/
def link (g : Graph) (id : LinkId) (source target : PinId) : Except LinkError Graph :=
  match g.linkFault? source target with
  | some e => .error e
  | none =>
    match g.owner? source, g.owner? target with
    | some a, some b =>
      let flow := ((g.pin? source).map Pin.isFlow).getD false
      .ok { g with links := g.links ++ [⟨id, a, source, b, target, flow⟩] }
    | none, _ => .error (.pinNotFound source)
    | _, none => .error (.pinNotFound target)

def unlink (g : Graph) (l : LinkId) : Graph :=
  { g with links := g.links.filter fun k => k.id != l }

/-- Removes every link that begins or ends at a pin. -/
def unlinkPin (g : Graph) (p : PinId) : Graph :=
  { g with links := g.links.filter fun k => !k.involvesPin p }

end Graph

end Patchbay
