import Patchbay.Graph
import Patchbay.Json.Printer

/-!
# What goes wrong when documents are read

Reading is lenient. A `LoadError` refuses a document as a whole; everything else that cannot be
restored is left out and named by a `LoadWarning`.

Both are causes; their texts are in `LoadError.message` and `LoadWarning.message?`. The one cause
without a text is a field of the wrong shape, for which no wording is fixed.
-/

namespace Patchbay

/-- The newest version of graph documents, which is also the one written. -/
def formatVersion : Nat := 1

inductive LoadError where
  /-- The root is no object. -/
  | notAnObject
  /-- The graph document is of a newer version. -/
  | newerDocument (found : Nat)
  /-- The node document is for another type. -/
  | typeMismatch (expected found : String)
  /-- The node document is of a newer version of its type. -/
  | newerNode (typeName : String) (found supported : Nat)
  /-- The text could not be had. -/
  | unreadable
  /-- The text is no document. -/
  | notJson
  deriving DecidableEq

/-- The text of an error; what the system says about files and texts is not repeated. -/
def LoadError.message : LoadError → String
  | .notAnObject => "Graph document must be a JSON object"
  | .newerDocument found =>
    s!"Graph document version {found} is newer than supported version {formatVersion}"
  | .typeMismatch expected found =>
    "Expected a '" ++ expected ++ "' node document, found '" ++ found ++ "'"
  | .newerNode typeName found supported =>
    "Node type '" ++ typeName ++
      s!"' version {found} is newer than supported version {supported}"
  | .unreadable => "I/O error"
  | .notJson => "JSON error"

/-- Why a field kept its value. -/
inductive FieldFault where
  /-- The value has the wrong shape. -/
  | shape
  /-- The value has a usable shape but stands for nothing. -/
  | unexpected (value : Json)
  /-- The node has something else against the value. -/
  | other (reason : String)

/-- Why the entry of a node could not be read. -/
inductive EntryFault where
  /-- The entry is no object. -/
  | notAnObject
  /-- It names no type. -/
  | missingType
  /-- Its identity is malformed. -/
  | invalidId (value : Json)

def invalidIdText (value : Json) : String := "invalid node id " ++ value.compact

def EntryFault.message : EntryFault → String
  | .notAnObject => "not an object"
  | .missingType => "missing type"
  | .invalidId value => invalidIdText value

inductive Rejection where
  /-- By the node itself. -/
  | load (e : LoadError)
  /-- By the graph. -/
  | graph (e : GraphError)

def Rejection.message : Rejection → String
  | .load e => e.message
  | .graph e => e.message

/-- What a link entry refers to that is not there. -/
inductive MissingEnd where
  | node (n : NodeId)
  | outputPin (name : String)
  | inputPin (name : String)

def MissingEnd.message : MissingEnd → String
  | .node n => "node " ++ n.toText
  | .outputPin name => "output pin '" ++ name ++ "'"
  | .inputPin name => "input pin '" ++ name ++ "'"

/-- Something that was not restored as the document says. Entries are counted from zero. -/
inductive LoadWarning where
  /-- The document has no version. -/
  | missingVersion
  /-- A field of the document has the wrong shape. -/
  | malformedDocument (field : String)
  /-- A node entry could not be read. -/
  | malformedNode (index : Nat) (fault : EntryFault)
  /-- A node entry repeats the identity of an earlier one; it got a fresh identity. -/
  | duplicateNode (index : Nat) (node : NodeId)
  /-- A node entry names a type that is not registered. -/
  | unknownType (index : Nat) (typeName : String)
  /-- A node was refused. -/
  | nodeRejected (index : Nat) (typeName : String) (reason : Rejection)
  /-- A field of a node kept its value. -/
  | malformedField (node : NodeId) (field : String) (fault : FieldFault)
  /-- A link entry could not be read. -/
  | malformedLink (index : Nat)
  /-- A link entry refers to something that was not restored. -/
  | danglingLink (index : Nat) (missing : MissingEnd)
  /-- The graph refused a link. -/
  | linkRejected (index : Nat) (reason : LinkError)

/-- The text of a warning, where one is fixed. -/
def LoadWarning.message? : LoadWarning → Option String
  | .missingVersion => some "Document has no version, assuming the current version"
  | .malformedDocument field => some ("Document field '" ++ field ++ "' is malformed")
  | .malformedNode i fault => some (s!"Node entry {i} is malformed: " ++ fault.message)
  | .duplicateNode i n => some (s!"Node entry {i} repeats node ID " ++ n.toText)
  | .unknownType i t => some ("Unknown node type '" ++ t ++ s!"' (entry {i})")
  | .nodeRejected i t reason =>
    some (s!"Node entry {i} ('" ++ t ++ "') rejected: " ++ reason.message)
  | .malformedField n field (.unexpected value) =>
    some ("Node " ++ n.toText ++ " field '" ++ field ++ "' is malformed: unexpected value " ++
      value.compact)
  | .malformedField n field (.other reason) =>
    some ("Node " ++ n.toText ++ " field '" ++ field ++ "' is malformed: " ++ reason)
  | .malformedField _ _ .shape => none
  | .malformedLink i =>
    some (s!"Link entry {i} is malformed: expected from_node, from_pin, to_node and to_pin")
  | .danglingLink i missing => some (s!"Link entry {i} refers to a missing " ++ missing.message)
  | .linkRejected i reason => some (s!"Link entry {i} rejected: " ++ reason.message)

end Patchbay
