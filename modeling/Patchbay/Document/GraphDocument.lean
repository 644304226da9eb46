import Patchbay.Catalog
import Patchbay.Document.NodeDocument
import Patchbay.Json.Parser

/-!
# Documents of graphs

A graph document has a version, a name, a list of nodes and a list of links. A link names its ends by
node and pin name, so pin identities need not be kept.

`Graph.merge` adds the nodes and links of a document to a graph; `Graph.load` does so with an empty
one. A node whose identity is taken gets a fresh one, and links of the document follow it there. If a
document repeats an identity, the first of its nodes keeps it, as far as links are concerned.
Entries that cannot be restored are left out, each with a warning.

How a node is made and how it reads its document is up to its type. The reader leaves both to a
`Registry`, which has a `Factory` for every type that it knows (`Graph.mergeBy`); the types of a
catalog have theirs (`Catalog.registry`).
-/

namespace Patchbay

/-! ## Writing -/

/-- The entry of a link, if its pins are there. -/
def Graph.saveLink? (g : Graph) (remap : Remap) (l : Link) : Option Json := do
  let source ← g.pin? l.fromPin
  let target ← g.pin? l.toPin
  return .ofFields
    [("from_node", .string (remap.resolve l.fromNode).toText), ("from_pin", .string source.name),
      ("to_node", .string (remap.resolve l.toNode).toText), ("to_pin", .string target.name)]

/-- The document of a graph; node identities are written as `remap` has them. -/
def Graph.save (g : Graph) (remap : Remap) : Json :=
  .ofFields
    [("version", .ofNat formatVersion), ("name", .string g.name),
      ("nodes", .array (g.nodes.map fun n => n.save remap)),
      ("links", .array (g.links.filterMap (g.saveLink? remap)))]

def Graph.saveText (g : Graph) : String := (g.save []).pretty

/-! ## Node types, as documents need them -/

/-- How the nodes of a type come to be. -/
structure Factory where
  /-- A new node with the given identity; its pins get identities from the supply. -/
  create : NodeId → Supply → Node × Supply
  /-- What a node makes of its document, and what it warns of, or why it refuses the document. -/
  load : Node → Fields → Except LoadError (Node × List LoadWarning)

/-- The factories of the types that are known, by the names that documents use. -/
abbrev Registry := String → Option Factory

/-- The factory of a built-in or scripted type. -/
def NodeType.factory (t : NodeType) : Factory := ⟨t.create, Node.load⟩

def Catalog.registry (c : Catalog) : Registry := fun name => (c.find? name).map NodeType.factory

/-! ## Reading -/

/-- What reading a document came to. -/
structure LoadReport where
  /-- What was not restored, in the order in which it was found. -/
  warnings : List LoadWarning
  /-- Identities of the document that were replaced. -/
  remap : Remap
  /-- The nodes added, in document order. -/
  nodes : List NodeId
  /-- How many links were added. -/
  links : Nat

namespace LoadReport

/-- The report before anything was read. -/
def empty : LoadReport := ⟨[], [], [], 0⟩

/-- Whether everything was restored. -/
def isClean (r : LoadReport) : Bool := r.warnings.isEmpty

def warn (r : LoadReport) (ws : List LoadWarning) : LoadReport :=
  { r with warnings := r.warnings ++ ws }

end LoadReport

structure Loading where
  graph : Graph
  supply : Supply
  /-- The nodes that identities of the document lead to. -/
  loaded : Table NodeId NodeId
  report : LoadReport

namespace Loading

def warn (st : Loading) (w : LoadWarning) : Loading := { st with report := st.report.warn [w] }

/-- The identity that an entry writes, or a fresh one if it writes none. -/
def entryId (st : Loading) (fields : Fields) : Except Json (NodeId × Supply) :=
  match fields.nodeId? with
  | some (.ok n) => .ok (n, st.supply)
  | some (.error j) => .error j
  | none => .ok st.supply.takeNode

/-- Adds a node that has been restored. `written` is its identity in the document. -/
def addNode (st : Loading) (index : Nat) (typeName : String) (written : NodeId)
    (isRepeat : Bool) (n : Node) : Loading :=
  match st.graph.addNode n with
  | .error e => st.warn (.nodeRejected index typeName (.graph e))
  | .ok graph =>
    let report := { st.report with nodes := st.report.nodes ++ [n.id] }
    if isRepeat then { st with graph, report }
    else
      let remap := if n.id = written then report.remap else report.remap.set written n.id
      { st with graph, loaded := st.loaded.set written n.id, report := { report with remap } }

/-- The identity under which a node is restored: the one that is written, or a fresh one if that is
taken. -/
def identityFor (st : Loading) (written : NodeId) (isRepeat : Bool) : NodeId × Supply :=
  if isRepeat || st.graph.hasNode written then st.supply.takeNode else (written, st.supply)

/-- Restores the node of an entry whose type and identity are known. -/
def restoreNodeBy (r : Registry) (st : Loading) (index : Nat) (fields : Fields) (typeName : String)
    (written : NodeId) : Loading :=
  let isRepeat := st.loaded.has written
  let st := if isRepeat then st.warn (.duplicateNode index written) else st
  let (id, supply) := st.identityFor written isRepeat
  match r typeName with
  | none => { st with supply }.warn (.unknownType index typeName)
  | some factory =>
    let (node, supply) := factory.create id supply
    let st := { st with supply }
    match factory.load node fields with
    | .error e => st.warn (.nodeRejected index typeName (.load e))
    | .ok (node, warnings) =>
      { st with report := st.report.warn warnings }.addNode index typeName written isRepeat node

def loadNodeBy (r : Registry) (st : Loading) (entry : Json × Nat) : Loading :=
  let (j, index) := entry
  match j.fields? with
  | none => st.warn (.malformedNode index .notAnObject)
  | some fields =>
    match fields.typeName? with
    | none => st.warn (.malformedNode index .missingType)
    | some typeName =>
      match st.entryId fields with
      | .error bad => st.warn (.malformedNode index (.invalidId bad))
      | .ok (written, supply) => restoreNodeBy r { st with supply } index fields typeName written

/-- Reads the entry of a node with the types of a catalog. -/
def loadNode (c : Catalog) : Loading → Json × Nat → Loading := loadNodeBy c.registry

/-- The ends of a link as its entry names them. -/
structure LinkEntry where
  fromNode : NodeId
  fromPin : String
  toNode : NodeId
  toPin : String

/-- The ends that an entry names, if it names them all. -/
def linkEntry? (j : Json) : Option LinkEntry := do
  let text (key : String) : Option String := (j.field? key).bind Json.string?
  let node (key : String) : Option NodeId := ((text key).bind Uuid.ofText?).map NodeId.mk
  let fromNode ← node "from_node"
  let fromPin ← text "from_pin"
  let toNode ← node "to_node"
  let toPin ← text "to_pin"
  return { fromNode, fromPin, toNode, toPin }

/-- The pins between which an entry asks for a link, or what is missing. -/
def linkEnds (st : Loading) (e : LinkEntry) : Except MissingEnd (PinId × PinId) :=
  match st.loaded.get? e.fromNode with
  | none => .error (.node e.fromNode)
  | some a =>
    match st.loaded.get? e.toNode with
    | none => .error (.node e.toNode)
    | some b =>
      match st.graph.findPin? a .output e.fromPin with
      | none => .error (.outputPin e.fromPin)
      | some source =>
        match st.graph.findPin? b .input e.toPin with
        | none => .error (.inputPin e.toPin)
        | some target => .ok (source.id, target.id)

def loadLink (st : Loading) (entry : Json × Nat) : Loading :=
  let (j, index) := entry
  match linkEntry? j with
  | none => st.warn (.malformedLink index)
  | some e =>
    match st.linkEnds e with
    | .error missing => st.warn (.danglingLink index missing)
    | .ok (source, target) =>
      let (id, supply) := st.supply.takeLink
      match st.graph.link id source target with
      | .error reason => st.warn (.linkRejected index reason)
      | .ok graph =>
        { st with graph, supply, report := { st.report with links := st.report.links + 1 } }

/-- The entries of a list in the document; something else than a list is reported. -/
def entries (root : Fields) (key : String) : List (Json × Nat) × List LoadWarning :=
  match root.get? key with
  | none => ([], [])
  | some (.array items) => (items.zipIdx, [])
  | some _ => ([], [.malformedDocument key])

end Loading

/-- The refusal or the warnings that the version of a document gives rise to. -/
def checkFormat (root : Fields) : Except LoadError (List LoadWarning) :=
  match root.get? "version" with
  | none => .ok [.missingVersion]
  | some j =>
    match j.natBelow? 64 with
    | some found => if formatVersion < found then .error (.newerDocument found) else .ok []
    | none => .ok [.malformedDocument "version"]

namespace Graph

/-- Adds the nodes and links of a document to a graph. -/
def mergeBy (g : Graph) (r : Registry) (supply : Supply) (doc : Json) : Except LoadError Loading :=
  match doc.fields? with
  | none => .error .notAnObject
  | some root =>
    match checkFormat root with
    | .error e => .error e
    | .ok warnings =>
      let st : Loading := ⟨g, supply, [], LoadReport.empty.warn warnings⟩
      let (nodes, bad) := Loading.entries root "nodes"
      let st := nodes.foldl (Loading.loadNodeBy r) { st with report := st.report.warn bad }
      let (links, bad) := Loading.entries root "links"
      .ok (links.foldl Loading.loadLink { st with report := st.report.warn bad })

def documentName (doc : Json) : String := ((doc.field? "name").bind Json.string?).getD "Untitled"

/-- The graph of a document. -/
def loadBy (r : Registry) (supply : Supply) (doc : Json) : Except LoadError Loading :=
  (Graph.empty (documentName doc)).mergeBy r supply doc

/-- Merges a document with the types of a catalog. -/
def merge (g : Graph) (c : Catalog) (supply : Supply) (doc : Json) : Except LoadError Loading :=
  g.mergeBy c.registry supply doc

/-- Loads a document with the types of a catalog. -/
def load (c : Catalog) (supply : Supply) (doc : Json) : Except LoadError Loading :=
  loadBy c.registry supply doc

/-- The graph of the text of a document. -/
def loadText (c : Catalog) (supply : Supply) (text : Option String) : Except LoadError Loading :=
  match text with
  | none => .error .unreadable
  | some text =>
    match Json.parse? text with
    | none => .error .notJson
    | some doc => load c supply doc

end Graph

end Patchbay
