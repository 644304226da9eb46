import Patchbay.Graph.Flow

/-!
# Wiring a node into its surroundings

`Graph.autoLink` links a node that has been put into a graph, without replacing what is there except
for one flow link that it may split.

Flow comes first. A node with a free input and a free output flow pin is spliced into the nearest
flow link, measured from its midpoint. Otherwise each of its preferred flow pins is joined to the
preferred flow pin of the nearest node where that is free. Then its data pins are matched, in order
of preference, with what its flow neighbours offer, the nearest neighbour first. Of equally near
candidates the earliest wins; a distance that is not a number never beats another.
-/

namespace Patchbay

structure Wiring where
  /-- The links made, in order. -/
  created : List LinkId
  /-- The flow link that was split. -/
  removed : Option Link
  deriving DecidableEq

namespace Wiring

def none : Wiring := ⟨[], .none⟩

def isEmpty (w : Wiring) : Bool := w.created.isEmpty && w.removed.isNone

end Wiring

namespace Point

def distanceSquared (a b : Point) : Float32 :=
  let dx := a.x - b.x
  let dy := a.y - b.y
  dx * dx + dy * dy

def midpoint (a b : Point) : Point := ⟨(a.x + b.x) * 0.5, (a.y + b.y) * 0.5⟩

end Point

/-- The first candidate whose distance no later one falls below. -/
def nearest? {α : Type} (candidates : List (Float32 × α)) : Option α :=
  (candidates.foldl
    (fun best c =>
      match best with
      | some (d, a) => if c.1 < d then some c else some (d, a)
      | none => some c)
    none).map Prod.snd

namespace Graph

/-- A graph being wired: the graph, the supply of link identities, and the changes so far. -/
structure Wired where
  graph : Graph
  /-- Where link identities come from. -/
  supply : Supply
  wiring : Wiring

/-- Links two pins if the graph accepts it. -/
def Wired.tryLink (w : Wired) (source target : PinId) : Wired :=
  let (id, supply) := w.supply.takeLink
  match w.graph.link id source target with
  | .ok graph => { graph, supply, wiring := { w.wiring with created := w.wiring.created ++ [id] } }
  | .error _ => w

/-- The place of a node; the corner of the canvas for one that is not there. -/
def positionOf (g : Graph) (n : NodeId) : Point := ((g.node? n).map Node.position).getD .zero

/-- The flow link nearest to a place among those that do not touch the node. -/
def nearestFlowLink? (g : Graph) (n : NodeId) (place : Point) : Option Link :=
  nearest? <| (g.links.filter fun l => l.flow && !l.involvesNode n).map fun l =>
    ((Point.midpoint (g.positionOf l.fromNode) (g.positionOf l.toNode)).distanceSquared place, l)

/-- The free preferred flow pin of the node nearest to a place, other than the node itself. -/
def nearestFlowPin? (g : Graph) (n : NodeId) (place : Point) (direction : Direction) :
    Option PinId :=
  nearest? <| (g.nodes.filter fun m => m.id != n).filterMap fun m =>
    ((m.preferredFlow direction).filter fun p => !g.isLinked p.id).map fun p =>
      (m.position.distanceSquared place, p.id)

/-- Splits a flow link so that it runs through a node. If either half is refused, both are undone and
the link is made again, with a new identity. -/
def Wired.splice (w : Wired) (l : Link) (input output : PinId) : Wired :=
  let (headId, supply) := w.supply.takeLink
  let (tailId, supply) := supply.takeLink
  let bare := w.graph.unlink l.id
  let head := bare.link headId l.fromPin input
  let mid := match head with
    | .ok g => g
    | .error _ => bare
  match head, mid.link tailId output l.toPin with
  | .ok _, .ok g =>
    { graph := g, supply
      wiring := ⟨w.wiring.created ++ [headId, tailId], some l⟩ }
  | _, tail =>
    let after := match tail with
      | .ok g => g
      | .error _ => mid
    let cleared := (after.unlink headId).unlink tailId
    let (againId, supply) := supply.takeLink
    match cleared.link againId l.fromPin l.toPin with
    | .ok g => { w with graph := g, supply }
    | .error _ => { w with graph := cleared, supply }

/-- Feeds the flow input of a node, if it has a free one, from the nearest node. -/
def Wired.attachIn (w : Wired) (n : NodeId) (place : Point) (flowIn : Option PinId) : Wired :=
  match flowIn with
  | some input =>
    match w.graph.nearestFlowPin? n place .output with
    | some source => w.tryLink source input
    | none => w
  | none => w

/-- Feeds the nearest node from the flow output of a node, if it has a free one. -/
def Wired.attachOut (w : Wired) (n : NodeId) (place : Point) (flowOut : Option PinId) : Wired :=
  match flowOut with
  | some output =>
    match w.graph.nearestFlowPin? n place .input with
    | some target => w.tryLink output target
    | none => w
  | none => w

def Wired.linkFlow (w : Wired) (n : NodeId) (place : Point) (flowIn flowOut : Option PinId) :
    Wired :=
  match flowIn, flowOut with
  | some input, some output =>
    match w.graph.nearestFlowLink? n place with
    | some l => w.splice l input output
    | none => (w.attachIn n place flowIn).attachOut n place flowOut
  | _, _ => (w.attachIn n place flowIn).attachOut n place flowOut

/-- The first free pin that flow neighbours of a node offer and that a type accepts. -/
def offeredPin? (g : Graph) (n : NodeId) (heading : Heading) (direction : Direction)
    (accepts : PinType → Bool) : Option PinId :=
  (((((g.flowNeighbours n heading).filterMap g.node?).flatMap fun m => m.offered direction)).find?
    fun p => !g.isLinked p.id && accepts p.type).map Pin.id

/-- Feeds a data pin of a node from what its flow predecessors offer. -/
def Wired.linkInput (n : NodeId) (w : Wired) (input : PinId) : Wired :=
  match w.graph.pin? input with
  | none => w
  | some pin =>
    match w.graph.offeredPin? n .upstream .output fun t => t.accords pin.type with
    | some source => w.tryLink source input
    | none => w

/-- Feeds what the flow successors of a node offer from one of its data pins. -/
def Wired.linkOutput (n : NodeId) (w : Wired) (output : PinId) : Wired :=
  match w.graph.pin? output with
  | none => w
  | some pin =>
    match w.graph.offeredPin? n .downstream .input fun t => pin.type.accords t with
    | some target => w.tryLink output target
    | none => w

/-- The identities of the free data pins among some pins. -/
def freeData (g : Graph) (pins : List Pin) : List PinId :=
  (pins.filter fun p => !p.isFlow && !g.isLinked p.id).map Pin.id

def freePin? (g : Graph) (pin : Option Pin) : Option PinId :=
  (pin.filter fun p => !g.isLinked p.id).map Pin.id

/-- Wires a node into the graph around it. Which of its pins are free is settled before anything
changes. -/
def autoLink (g : Graph) (n : NodeId) (supply : Supply) : Except GraphError Wired :=
  match g.node? n with
  | none => .error (.nodeNotFound n)
  | some m =>
    let a := m.advertised
    let w := (Wired.mk g supply .none).linkFlow n m.position (g.freePin? a.flowIn)
      (g.freePin? a.flowOut)
    let w := (g.freeData a.dataIn).foldl (Wired.linkInput n) w
    .ok ((g.freeData a.dataOut).foldl (Wired.linkOutput n) w)

end Graph

end Patchbay
