import Patchbay.Document.Warning

/-!
# Documents of single nodes

A node document is an object with fields that every node has and fields of its kind. Which those are
is said once, by `Node.fieldRules`: each rule has a key and turns the value found there into a change
of the node. Reading goes through the rules in order and changes the node in place (`Node.restore`). A
field that is absent leaves the node as it is; one that is malformed does too and gives a warning; other
fields mean nothing.

A document for another type or of a newer version of the type is refused before anything is read.

Writing (`Node.save`) gives all fields of the node.
-/

namespace Patchbay

/-- Node identities and those that stand for them in another graph. Identities without an entry
stand for themselves. -/
abbrev Remap := Table NodeId NodeId

/-- The identity that stands for a node. -/
def Remap.resolve (r : Remap) (n : NodeId) : NodeId := (r.get? n).getD n

/-! ## Decoding field values -/

namespace Json

/-- A number in single precision: integers are rounded once, other numbers from double precision. -/
def single? : Json → Option Float32
  | .number (.int n) => some (Single.ofInt n)
  | .number (.double x) => some (Single.narrow x)
  | _ => none

/-- A place on the canvas: an array of exactly two numbers. -/
def point? : Json → Option Point
  | .array [x, y] => do
    let x ← x.single?
    let y ← y.single?
    return ⟨x, y⟩
  | _ => none

/-- A pattern: its name, or an object with its name as only key and `null` as value. -/
def pattern? : Json → Option Pattern
  | .string s => Pattern.ofName? s
  | .object [(s, .null)] => Pattern.ofName? s
  | _ => none

end Json

/-! ## Fields -/

def Fields.typeName? (fields : Fields) : Option String := (fields.get? "type").bind Json.string?

/-- The identity: absent, malformed, or the one written. -/
def Fields.nodeId? (fields : Fields) : Option (Except Json NodeId) :=
  (fields.get? "id").map fun j =>
    match (j.string?).bind Uuid.ofText? with
    | some u => .ok ⟨u⟩
    | none => .error j

/-- How a field is read: its key, the change that a value makes, and what is wrong with a value that
makes none. -/
structure FieldRule where
  key : String
  /-- The change that a value makes. -/
  change? : Json → Option NodeChange
  /-- What is wrong with any other value. -/
  fault : Json → FieldFault

/-- A rule for a value of a fixed shape. -/
def FieldRule.shaped {α : Type} (key : String) (decode : Json → Option α)
    (change : α → NodeChange) : FieldRule :=
  ⟨key, fun j => (decode j).map change, fun _ => .shape⟩

/-- A rule for an integer that stands for something. -/
def FieldRule.coded {α : Type} (key : String) (ofCode? : Int → Option α)
    (change : α → NodeChange) : FieldRule :=
  ⟨key, fun j => (j.int64?.bind ofCode?).map change, .unexpected⟩

/-- The rules for the fields that every node has. -/
def commonRules : List FieldRule :=
  [.shaped "name" Json.string? .name, .shaped "position" Json.point? .position,
    .shaped "enabled" Json.bool? .enabled]

def Body.fieldRules : Body → List FieldRule
  | .constant _ _ => [.shaped "value" Json.single? .value]
  | .picture _ _ =>
    [.shaped "width" (Json.natBelow? 64) .width, .shaped "height" (Json.natBelow? 64) .height,
      .shaped "channels" (Json.natBelow? 64) .channels, .shaped "fill" Json.single? .fill,
      .shaped "pattern" Json.pattern? .pattern]
  | .transition _ _ =>
    [.coded "mat_type" ElementType.ofCode? .elementType, .coded "move_type" Move.ofCode? .move]
  | .start _ | .finish _ | .branch _ | .scripted _ _ _ => []

/-- The rules for the fields of a node, in the order in which they are read. -/
def Node.fieldRules (n : Node) : List FieldRule := commonRules ++ n.body.fieldRules

/-! ## Reading -/

def FieldRule.read (fields : Fields) (acc : Node × List LoadWarning) (r : FieldRule) :
    Node × List LoadWarning :=
  match fields.get? r.key with
  | none => acc
  | some j =>
    match r.change? j with
    | some c => (acc.1.apply c, acc.2)
    | none => (acc.1, acc.2 ++ [.malformedField acc.1.id r.key (r.fault j)])

/-- The refusal or the warnings that the type and the version of a document give rise to. -/
def Node.checkDocument (n : Node) (fields : Fields) : Except LoadError (List LoadWarning) :=
  let info := n.info
  let checkVersion : Except LoadError (List LoadWarning) :=
    match fields.get? "version" with
    | none => .ok []
    | some j =>
      match j.natBelow? 32 with
      | none => .ok [.malformedField n.id "version" .shape]
      | some found =>
        if info.version < found then .error (.newerNode info.name found info.version) else .ok []
  match fields.typeName? with
  | some found =>
    if found = info.name then checkVersion else .error (.typeMismatch info.name found)
  | none => checkVersion

/-- A step of restoring a node in place: it goes on or refuses the document, and leaves the node and the
warnings as they are then. -/
abbrev RestoreM := ExceptT LoadError (StateM (Node × List LoadWarning))

/-- Checks the document, and then reads field by field into the node. -/
def Node.restore (fields : Fields) : RestoreM Unit := do
  let (n, _) ← get
  match n.checkDocument fields with
  | .error e => throw e
  | .ok found =>
    modify fun (n, warnings) => (n, warnings ++ found)
    n.fieldRules.forM fun r => modify fun acc => r.read fields acc

/-- Restores a node from its document, or refuses the document. -/
def Node.load (n : Node) (fields : Fields) : Except LoadError (Node × List LoadWarning) :=
  match restore fields (n, []) with
  | (.error e, _) => .error e
  | (.ok _, restored) => .ok restored

/-- Reading field by field is a fold. -/
theorem FieldRule.forM_read (fields : Fields) (rules : List FieldRule) (acc : Node × List LoadWarning) :
    (rules.forM fun r => (modify fun acc => r.read fields acc : RestoreM Unit)) acc =
      (.ok (), rules.foldl (FieldRule.read fields) acc) := by
  induction rules generalizing acc with
  | nil => rfl
  | cons r rest ih => exact ih (r.read fields acc)

/-- **What restoring comes to**: a document that is refused leaves everything as it is. -/
theorem Node.restore_eq (fields : Fields) (n : Node) (warnings : List LoadWarning) :
    restore fields (n, warnings) = match n.checkDocument fields with
      | .error e => (.error e, n, warnings)
      | .ok found => (.ok (), n.fieldRules.foldl (FieldRule.read fields) (n, warnings ++ found)) := by
  have hget : restore fields (n, warnings) = (match n.checkDocument fields with
      | .error e => throw e
      | .ok found => do
        modify fun (n, warnings) => (n, warnings ++ found)
        n.fieldRules.forM fun r => modify fun acc => r.read fields acc : RestoreM Unit)
      (n, warnings) := rfl
  rw [hget]
  cases n.checkDocument fields with
  | error e => rfl
  | ok found => exact FieldRule.forM_read fields n.fieldRules (n, warnings ++ found)

theorem Node.load_eq (n : Node) (fields : Fields) :
    n.load fields = match n.checkDocument fields with
      | .error e => .error e
      | .ok found => .ok (n.fieldRules.foldl (FieldRule.read fields) (n, found)) := by
  rw [load, restore_eq]
  cases n.checkDocument fields <;> rfl

/-! ## Writing -/

/-- A single-precision number, written in double precision. -/
def Json.ofSingle (x : Float32) : Json := .ofDouble (Single.widen x)

def Body.fields : Body → List (String × Json)
  | .constant _ value => [("value", .ofSingle value)]
  | .picture _ s =>
    [("width", .ofNat s.width), ("height", .ofNat s.height), ("channels", .ofNat s.channels),
      ("fill", .ofSingle s.fill), ("pattern", .string s.pattern.name)]
  | .transition _ s =>
    [("mat_type", .ofInt s.elementType.code), ("move_type", .ofInt s.move.code)]
  | .start _ | .finish _ | .branch _ | .scripted _ _ _ => []

/-- The document of a node; its identity is written as `remap` has it. -/
def Node.save (n : Node) (remap : Remap) : Json :=
  .ofFields <|
    [("type", .string n.info.name), ("id", .string (remap.resolve n.id).toText),
      ("version", .ofNat n.info.version), ("name", .string n.name),
      ("position", .array [.ofSingle n.position.x, .ofSingle n.position.y]),
      ("enabled", .bool n.enabled)] ++ n.body.fields

end Patchbay
