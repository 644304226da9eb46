import Patchbay.Document.GraphDocument
import Patchbay.Proofs.Likeness

/-!
# What documents rely on in node types

A reader of documents leaves two things to the type of a node: how a new node is made, and what the node
makes of its document. A host may bring types of its own, so statements about readers are statements
about every `Registry`, with what they rely on as a hypothesis. There are two such hypotheses.

* `Factory.WarnsOfFields`: nodes of the type warn of fields only. Warnings about entries are the reader's
  own.
* `Factory.Regular`: a new node has the identity that it is asked for and new identities for its pins,
  a document changes neither, and otherwise identities play no part in what the node comes to be.

The types of a catalog are regular (`NodeType.factory_regular`). So is a host type that overrides how its
nodes read documents, as long as they restore what all nodes have first and read fields of their own then
(`Factory.overriding_regular`), and types can be registered at will (`Registry.All.register`).
-/

namespace Patchbay

namespace Factory

/-- What becomes of a new node that reads a document. -/
def restore (f : Factory) (id : NodeId) (s : Supply) (fields : Fields) :
    Except LoadError (Node × List LoadWarning) :=
  f.load (f.create id s).1 fields

/-- What nodes of the type have to say about their documents is which fields they could not use. -/
def WarnsOfFields (f : Factory) : Prop :=
  ∀ {id s fields n ws}, f.restore id s fields = .ok (n, ws) →
    ∀ w ∈ ws, ∃ m key fault, w = .malformedField m key fault

/-- Identities play no part in what new nodes of the type are and in how they read documents. -/
structure Regular (f : Factory) : Prop where
  /-- A new node has the identity that it is asked for. -/
  identity : ∀ id s, (f.create id s).1.id = id
  /-- Its pins have new identities. -/
  pins : ∀ id s, (f.create id s).1.DrawnBetween s (f.create id s).2
  /-- Pins are fixed when a node is made. A document changes neither the identity of the node nor those of
  its pins. -/
  kept : ∀ {id s fields n ws}, f.restore id s fields = .ok (n, ws) →
    n.id = (f.create id s).1.id ∧ n.pins.map Pin.id = (f.create id s).1.pins.map Pin.id
  /-- New nodes have the default configuration of their type, and documents restore configurations. So what
  becomes of a new node that reads a document is the same under any identities. -/
  alike : ∀ fields id id' s s', LoadsAlike (f.restore id s fields) (f.restore id' s' fields)

/-- A regular type warns of the fields of its nodes. -/
theorem Regular.warnsOfFields {f : Factory} (h : f.Regular) : f.WarnsOfFields := by
  intro id s fields n ws hrestore w hw
  have halike := h.alike fields id id s s
  rw [hrestore] at halike
  obtain ⟨_, -, hself⟩ := halike.exists_ok
  obtain ⟨faults, hfaults, -⟩ := hself.warnings
  obtain rfl : ws = faults.map (.ofField n.id) := hfaults
  obtain ⟨fault, -, rfl⟩ := List.mem_map.mp hw
  exact ⟨n.id, fault.1, fault.2, rfl⟩

/-- What a regular type restores has the identity asked for and new pins. -/
theorem Regular.restored {f : Factory} (h : f.Regular) {id : NodeId} {s : Supply} {fields : Fields}
    {n : Node} {ws : List LoadWarning} (hrestore : f.restore id s fields = .ok (n, ws)) :
    n.id = id ∧ n.DrawnBetween s (f.create id s).2 := by
  obtain ⟨hid, hpins⟩ := h.kept hrestore
  obtain ⟨hreaches, is, hnodup, hbounds, hids⟩ := h.pins id s
  exact ⟨hid.trans (h.identity id s), hreaches, is, hnodup, hbounds, hpins.trans hids⟩

/-- The types of a catalog are regular with any way of reading documents that treats alike nodes alike and
keeps to their settings. -/
theorem regular_of_load (t : NodeType) {load : Node → Fields → Except LoadError (Node × List LoadWarning)}
    (halike : ∀ {a b : Node}, a.blank = b.blank → ∀ fields, LoadsAlike (load a fields) (load b fields))
    (hkept : ∀ {n m : Node} {fields ws}, load n fields = .ok (m, ws) → m.id = n.id ∧ m.pins = n.pins) :
    (Factory.mk t.create load).Regular where
  identity id s := (t.create_spec id s).1
  pins id s := (t.create_spec id s).2.between
  kept h := ⟨(hkept h).1, by rw [(hkept h).2]⟩
  alike fields id id' s s' := halike (t.create_blank id id' s s') fields

end Factory

/-- Built-in and scripted types are regular. -/
theorem NodeType.factory_regular (t : NodeType) : t.factory.Regular :=
  Factory.regular_of_load t Node.load_alike Node.load_kept

/-! ## Host types that read fields of their own -/

/-- The host type of a body, with the settings that a script has. -/
def Body.hostType? : Body → Option ScriptedType
  | .scripted t _ _ => some t
  | _ => none

/-- The body with other settings of its host type. -/
def Body.withHostType (t : ScriptedType) : Body → Body
  | .scripted _ inputs outputs => .scripted t inputs outputs
  | b => b

theorem Body.hostType?_blank (b : Body) : b.blank.hostType? = b.hostType? := by
  cases b <;> rfl

theorem Body.withHostType_blank (t : ScriptedType) (b : Body) :
    (b.withHostType t).blank = b.blank.withHostType t := by
  cases b <;> rfl

theorem Body.withHostType_inputs (t : ScriptedType) (b : Body) :
    (b.withHostType t).inputs = b.inputs := by
  cases b <;> rfl

theorem Body.withHostType_outputs (t : ScriptedType) (b : Body) :
    (b.withHostType t).outputs = b.outputs := by
  cases b <;> rfl

/-- How a host type reads fields of its own: what its settings are from then on and what is wrong with
the fields, or why the document is refused. -/
abbrev OwnFields :=
  Fields → ScriptedType → Except LoadError (ScriptedType × List (String × FieldFault))

/-- Restores what every node has, and then what the fields of the host type say. -/
def Node.loadOwn (read : OwnFields) (n : Node) (fields : Fields) :
    Except LoadError (Node × List LoadWarning) :=
  match n.load fields with
  | .error e => .error e
  | .ok (m, ws) =>
    match m.body.hostType? with
    | none => .ok (m, ws)
    | some t =>
      match read fields t with
      | .error e => .error e
      | .ok (t, faults) =>
        .ok ({ m with body := m.body.withHostType t }, ws ++ faults.map (.ofField m.id))

theorem Node.loadOwn_alike (read : OwnFields) {a b : Node} (h : a.blank = b.blank) (fields : Fields) :
    LoadsAlike (a.loadOwn read fields) (b.loadOwn read fields) := by
  have halike := Node.load_alike h fields
  rw [loadOwn, loadOwn]
  generalize a.load fields = x, b.load fields = y at halike
  cases halike with
  | refused e => exact .refused e
  | @restored r r' halike =>
    obtain ⟨hblank, faults, hr, hr'⟩ := halike
    have hbody : r.1.body.blank = r'.1.body.blank := congrArg Node.body hblank
    have htype : r.1.body.hostType? = r'.1.body.hostType? := by
      rw [← Body.hostType?_blank, hbody, Body.hostType?_blank]
    dsimp only
    rw [htype]
    cases r'.1.body.hostType? with
    | none => exact .restored ⟨hblank, faults, hr, hr'⟩
    | some t =>
      dsimp only
      cases read fields t with
      | error e => exact .refused e
      | ok own =>
        refine .restored ⟨?_, faults ++ own.2, ?_, ?_⟩
        · show { r.1.blank with body := (r.1.body.withHostType own.1).blank } =
            { r'.1.blank with body := (r'.1.body.withHostType own.1).blank }
          rw [Body.withHostType_blank, Body.withHostType_blank, hbody, hblank]
        · rw [hr, List.map_append]
        · rw [hr', List.map_append]

theorem Node.loadOwn_kept {read : OwnFields} {n m : Node} {fields : Fields} {ws : List LoadWarning}
    (h : n.loadOwn read fields = .ok (m, ws)) : m.id = n.id ∧ m.pins = n.pins := by
  rw [loadOwn] at h
  split at h
  · cases h
  · rename_i a _ hload
    obtain ⟨hid, hpins⟩ := Node.load_kept hload
    split at h
    · cases h
      exact ⟨hid, hpins⟩
    · split at h
      · cases h
      · rename_i t _ _
        cases h
        have hsame : Node.pins { a with body := a.body.withHostType t } = a.pins := by
          simp only [Node.pins, Node.inputs, Node.outputs, Body.withHostType_inputs,
            Body.withHostType_outputs]
        exact ⟨hid, hsame.trans hpins⟩

/-- The factory of a host type whose nodes read fields of their own. -/
def Factory.overriding (t : ScriptedType) (read : OwnFields) : Factory :=
  ⟨(NodeType.scripted t).create, Node.loadOwn read⟩

/-- **Overriding how documents are read** is regular if what all nodes have is restored first and the
fields of the type are read then. -/
theorem Factory.overriding_regular (t : ScriptedType) (read : OwnFields) :
    (Factory.overriding t read).Regular :=
  regular_of_load (.scripted t) (fun h => Node.loadOwn_alike read h) Node.loadOwn_kept

/-! ## Registries -/

namespace Registry

/-- All types that are known have the property. -/
def All (P : Factory → Prop) (r : Registry) : Prop := ∀ name f, r name = some f → P f

/-- Nodes of all types warn of fields only. -/
def WarnsOfFields (r : Registry) : Prop := r.All Factory.WarnsOfFields

def Regular (r : Registry) : Prop := r.All Factory.Regular

theorem Regular.warnsOfFields {r : Registry} (h : r.Regular) : r.WarnsOfFields :=
  fun name f hf => (h name f hf).warnsOfFields

/-- The registry with a factory for a type name, in the place of the one that was there if any. -/
def register (r : Registry) (name : String) (f : Factory) : Registry :=
  fun other => if other = name then some f else r other

theorem All.register {P : Factory → Prop} {r : Registry} (h : r.All P) (name : String) {f : Factory}
    (hf : P f) : (r.register name f).All P := by
  intro other f' hother
  rw [Registry.register] at hother
  split at hother
  · exact Option.some.inj hother ▸ hf
  · exact h other f' hother

end Registry

/-- The types of a catalog are regular. -/
theorem Catalog.registry_regular (c : Catalog) : c.registry.Regular := by
  intro name f hf
  obtain ⟨t, -, rfl⟩ := Option.map_eq_some_iff.mp hf
  exact t.factory_regular

end Patchbay
