import Patchbay.Document.GraphDocument
import Patchbay.Graph.AutoLink
import Patchbay.Run

/-!
# Documents of reports

What runs, loading and automatic wiring report, as documents for a host to show. Nodes, pins and
links stand for themselves by their identities; warnings carry their texts where one is fixed.
-/

namespace Patchbay

def NodeId.toJson (n : NodeId) : Json := .string n.toText

def PinId.toJson (p : PinId) : Json := .string p.uuid.toText

def LinkId.toJson (l : LinkId) : Json := .string l.uuid.toText

def Link.toJson (l : Link) : Json := .array [l.id.toJson, l.fromPin.toJson, l.toPin.toJson]

def TypeInfo.toJson (i : TypeInfo) : Json :=
  .ofFields
    [("name", .string i.name), ("version", .ofNat i.version), ("kind", .string i.role.name),
      ("catalog", .string i.catalog)]

def NodeFailure.toJson (f : NodeFailure) : Json :=
  .ofFields
    [("node", f.node.toJson), ("node_name", .string f.name), ("message", .string f.message)]

/-- The report of a run; of the time that nodes spent it only says which ones spent some. -/
def RunReport.toJson (r : RunReport) : Json :=
  .ofFields
    [("status", .string r.status.name), ("path", .array (r.path.map NodeId.toJson)),
      ("errors", .array (r.failures.map NodeFailure.toJson)),
      ("costs", .array (r.costs.keys.map NodeId.toJson)), ("clean", .bool r.isClean)]

def Wiring.toJson (w : Wiring) : Json :=
  .ofFields
    [("created", .array (w.created.map LinkId.toJson)),
      ("removed", (w.removed.map Link.toJson).getD .null), ("empty", .bool w.isEmpty)]

def LoadWarning.kindName : LoadWarning → String
  | .missingVersion => "MissingVersion"
  | .malformedDocument _ => "MalformedDocument"
  | .malformedNode _ _ => "MalformedNode"
  | .duplicateNode _ _ => "DuplicateNodeId"
  | .unknownType _ _ => "UnknownNodeType"
  | .nodeRejected _ _ _ => "NodeRejected"
  | .malformedField _ _ _ => "MalformedField"
  | .malformedLink _ => "MalformedLink"
  | .danglingLink _ _ => "DanglingLink"
  | .linkRejected _ _ => "LinkRejected"

/-- A warning; one about a field tells the node and the field. -/
def LoadWarning.toJson (w : LoadWarning) : Json :=
  let place := match w with
    | .malformedField n field _ => [("node", n.toJson), ("field", Json.string field)]
    | _ => []
  let message := w.message?.toList.map fun m => ("message", Json.string m)
  .ofFields ([("kind", .string w.kindName)] ++ place ++ message)

/-- The report of loading; identities that were replaced are listed in the order of the nodes. -/
def LoadReport.toJson (r : LoadReport) : Json :=
  let replaced := r.nodes.filterMap fun n =>
    (r.remap.find? fun e => e.2 == n).map fun e => Json.array [e.1.toJson, e.2.toJson]
  .ofFields
    [("clean", .bool r.isClean), ("warnings", .array (r.warnings.map LoadWarning.toJson)),
      ("remap", .array replaced), ("nodes", .array (r.nodes.map NodeId.toJson)),
      ("links", .ofNat r.links)]

end Patchbay
