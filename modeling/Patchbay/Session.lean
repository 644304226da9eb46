import Patchbay.Document.GraphDocument
import Patchbay.Graph.AutoLink
import Patchbay.Run
import Patchbay.Session.Observer

/-!
# Editing sessions

A session owns a graph with its memory, the catalog its nodes come from, and an observer. Every edit
goes through it. An edit that succeeds is told to the observer once, and the session then does what
the observer answers: nothing, wire the node concerned, or run the graph. An edit that fails changes
nothing and is told to nobody. Runs, loading and saving are told to nobody either.

Edits are actions of `SessionM`; like the steps of a run they leave a session whether they fail or
not.
-/

namespace Patchbay

/-! ## Sessions -/

inductive SessionError where
  | unknownNodeType (name : String)
  /-- The node is of another sort. -/
  | wrongNodeType (node : NodeId)
  | pinNotFound (node : NodeId) (name : String) (direction : Direction)
  | linkNotFound (link : LinkId)
  | graph (e : GraphError)
  | link (e : LinkError)
  | run (e : RunError)
  | load (e : LoadError)
  deriving DecidableEq

def SessionError.message : SessionError → String
  | .unknownNodeType name => "Unknown node type: " ++ name
  | .wrongNodeType n => "Node " ++ n.toText ++ " has a different type"
  | .pinNotFound n name direction =>
    "Node " ++ n.toText ++ " has no " ++ direction.name ++ " pin named '" ++ name ++ "'"
  | .linkNotFound l => "Link not found: " ++ l.wrapped
  | .graph e => e.message
  | .link e => e.message
  | .run e => e.message
  | .load e => e.message

/-- What a session did after an edit. -/
inductive Reaction where
  | nothing
  | autoLinked (w : Wiring)
  | ran (r : RunReport)
  | runFailed (e : RunError)
  deriving DecidableEq

structure Session where
  graph : Graph
  /-- What its pins and nodes keep. -/
  memory : Memory
  catalog : Catalog
  supply : Supply
  /-- Who is told of edits. -/
  observer : Option Observer
  /-- What the observer was told, in order. -/
  notices : List Notice
  /-- What scripted nodes noted in runs of the session, in order. -/
  notes : List Note

def Session.new (catalog : Catalog) (supply : Supply) : Session :=
  { graph := .empty "Untitled", memory := .empty, catalog, supply, observer := none
    notices := [], notes := [] }

/-- A step of a session: it fails or gives a value, and leaves a session either way. -/
abbrev SessionM := ExceptT SessionError (StateM Session)

namespace Session

/-! ## Runs -/

/-- How a session runs its graph: alone, and out of reach of requests to stop. -/
def runMode : RunMode := { threading := false, stoppable := false }

/-- Performs an action of a run on a fresh state over the memory of the session. -/
def performRun {α : Type} (s : Session) (x : RunM α) : Except RunError α × Session :=
  let (r, t) := x (.initial s.memory)
  (r, { s with memory := t.memory, notes := s.notes ++ t.notes })

def runGraph (s : Session) : Except RunError RunReport × Session :=
  s.performRun (s.graph.run runMode)

def run : SessionM RunReport := fun s =>
  let (r, s) := s.runGraph
  (r.mapError .run, s)

/-! ## Telling the observer -/

def wire (s : Session) (n : NodeId) : Except GraphError Wiring × Session :=
  match s.graph.autoLink n s.supply with
  | .ok w => (.ok w.wiring, { s with graph := w.graph, supply := w.supply })
  | .error e => (.error e, s)

/-- Tells the observer of an edit and does what it answers. Wiring a node that is gone does
nothing. -/
def tell (s : Session) (notice : Notice) : Reaction × Session :=
  let told := if s.observer.isSome then { s with notices := s.notices ++ [notice] } else s
  match Observer.answer s.observer notice with
  | .nothing => (.nothing, told)
  | .autoLink =>
    match told.wire notice.node with
    | (.ok w, s) => (.autoLinked w, s)
    | (.error _, s) => (.nothing, s)
  | .runAgain =>
    match told.runGraph with
    | (.ok r, s) => (.ran r, s)
    | (.error e, s) => (.runFailed e, s)

/-- Tells the observer of an edit of a node that is there. -/
def announce (kind : ChangeKind) (n : NodeId) : SessionM Reaction := do
  let s ← get
  let name := ((s.graph.node? n).map Node.name).getD ""
  let (reaction, s) := s.tell ⟨kind, name, n⟩
  set s
  return reaction

/-! ## Edits -/

/-- Puts a new node into the graph and tells the observer. -/
def addNode (kind : ChangeKind) (typeName : String) (position : Point) :
    SessionM (NodeId × Reaction) := do
  let s ← get
  let (id, supply) := s.supply.takeNode
  match s.catalog.create? typeName id supply with
  | none => throw (.unknownNodeType typeName)
  | some (node, supply) =>
    match s.graph.addNode (node.apply (.position position)) with
    | .error e => throw (.graph e)
    | .ok graph =>
      set { s with graph, supply }
      return (id, ← announce kind id)

/-- Puts in a node that may be wired. -/
def insertNode (typeName : String) (position : Point) : SessionM (NodeId × Reaction) :=
  addNode .nodeInserted typeName position

/-- Puts in a node that is not to be wired. -/
def appendNode (typeName : String) (position : Point) : SessionM (NodeId × Reaction) :=
  addNode .nodeAppended typeName position

/-- The session without a node, its links and what it holds. -/
def withoutNode (s : Session) (n : NodeId) : Session :=
  { s with graph := s.graph.removeNode n, memory := s.memory.release n }

/-- Removes a node with its links. The observer is told the name that it had. -/
def deleteNode (n : NodeId) : SessionM Reaction := do
  let s ← get
  match s.graph.takeNode? n with
  | none => throw (.graph (.nodeNotFound n))
  | some (node, graph) =>
    let (reaction, s) :=
      { s with graph, memory := s.memory.release n }.tell ⟨.nodeDeleted, node.name, n⟩
    set s
    return reaction

/-- Links two pins. The node concerned is the one that the link goes to. -/
def link (source target : PinId) : SessionM (LinkId × Reaction) := do
  let s ← get
  let (id, supply) := s.supply.takeLink
  match s.graph.link id source target with
  | .error e => throw (.link e)
  | .ok graph =>
    set { s with graph, supply }
    match graph.link? id with
    | some l => return (id, ← announce .link l.toNode)
    | none => return (id, .nothing)

def namedPin (n : NodeId) (name : String) (direction : Direction) : SessionM Pin := do
  let s ← get
  match s.graph.node? n with
  | none => throw (.graph (.nodeNotFound n))
  | some node =>
    match node.findPin? direction name with
    | some p => return p
    | none => throw (.pinNotFound n name direction)

/-- Links two pins given by node and name. -/
def linkByName (source target : NodeId × String) : SessionM (LinkId × Reaction) := do
  let p ← namedPin source.1 source.2 .output
  let q ← namedPin target.1 target.2 .input
  link p.id q.id

/-- Removes a link. The node concerned is the one that the link went to. -/
def unlink (l : LinkId) : SessionM Reaction := do
  let s ← get
  match s.graph.link? l with
  | none => throw (.linkNotFound l)
  | some k =>
    set { s with graph := s.graph.unlink l }
    announce .unlink k.toNode

/-- Stores the value that an input pin provides while it is unlinked. -/
def setInput (n : NodeId) (name : String) (value : Value) : SessionM Reaction := do
  let p ← namedPin n name .input
  modify fun s => { s with memory := s.memory.store p.id value }
  announce .paramChanged n

/-- Changes fields of a node of an expected sort. -/
def change (kind : ChangeKind) (expected : NodeClass) (n : NodeId) (changes : List NodeChange) :
    SessionM Reaction := do
  let s ← get
  match s.graph.node? n with
  | none => throw (.graph (.nodeNotFound n))
  | some node =>
    if node.body.nodeClass = expected then
      set { s with graph := s.graph.updateNode n fun m => m.applyAll changes }
      announce kind n
    else throw (.wrongNodeType n)

def editNode (expected : NodeClass) (n : NodeId) (changes : List NodeChange) : SessionM Reaction :=
  change .paramChanged expected n changes

def changeSetting (expected : NodeClass) (n : NodeId) (changes : List NodeChange) :
    SessionM Reaction :=
  change .settingChanged expected n changes

/-! ## Documents -/

/-- The document of the graph. -/
def save : SessionM Json := do
  let s ← get
  return s.graph.save []

/-- Takes over what reading a document came to. -/
def adopt (memory : Memory) (loading : Except LoadError Loading) : SessionM LoadReport := do
  match loading with
  | .error e => throw (.load e)
  | .ok st =>
    modify fun s => { s with graph := st.graph, supply := st.supply, memory }
    return st.report

/-- Replaces the graph by that of a document. -/
def load (doc : Json) : SessionM LoadReport := do
  let s ← get
  adopt .empty (Graph.load s.catalog s.supply doc)

/-- Replaces the graph by that of the text of a document. -/
def loadText (text : Option String) : SessionM LoadReport := do
  let s ← get
  adopt .empty (Graph.loadText s.catalog s.supply text)

/-- Adds the nodes and links of a document. -/
def merge (doc : Json) : SessionM LoadReport := do
  let s ← get
  adopt s.memory (s.graph.merge s.catalog s.supply doc)

end Session

end Patchbay
