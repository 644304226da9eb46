import Patchbay.Proofs.Likeness
import Patchbay.Proofs.Number.Precision
import Patchbay.Proofs.Run.Builtin

/-!
# Nodes are restored from their own documents

The document of a built-in node holds each of its settings under a key of its own, and the rule for
that key reads the setting back. So a node of the same kind that reads the document, whatever its
settings were, becomes like the node that was saved, and nothing is reported (`Node.load_save`).

Two things limit what can be kept. Sizes have sixty-four bits, and a number that is not finite has no
place in a document: the node that reads the document leaves its own setting as it is, and reports the
field (`Node.load_savedFields`). `Node.Storable` asks for neither.
-/

namespace Patchbay

/-! ## Fields of objects -/

namespace Fields

theorem get?_cons (k k' : String) (v : Json) (fs : Fields) :
    get? ((k', v) :: fs) k = if k = k' then some v else get? fs k := by
  by_cases h : k = k'
  · simp [get?, h]
  · simp [get?, List.lookup_cons, beq_false_of_ne h, h]

/-- Setting a field gives it the value and leaves every other field alone. -/
theorem get?_set (fs : Fields) (key k : String) (v : Json) :
    (set key v fs).get? k = if k = key then some v else fs.get? k := by
  induction fs with
  | nil => exact get?_cons k key v []
  | cons f rest ih =>
    obtain ⟨k', v'⟩ := f
    by_cases hkey : key = k'
    · subst hkey
      rw [set, if_pos rfl, get?_cons, get?_cons]
      split_ifs <;> rfl
    · by_cases hlt : key < k'
      · rw [set, if_neg hkey, if_pos hlt, get?_cons]
      · rw [set, if_neg hkey, if_neg hlt, get?_cons, get?_cons, ih]
        by_cases hk : k = key
        · have hk' : ¬k = k' := hk ▸ hkey
          rw [if_neg hk', if_pos hk, if_pos hk]
        · rw [if_neg hk, if_neg hk]

theorem get?_foldl_set_of_not_mem (fs : List (String × Json)) (acc : Fields) {k : String}
    (h : k ∉ fs.map Prod.fst) :
    get? (fs.foldl (fun acc f => set f.1 f.2 acc) acc) k = acc.get? k := by
  induction fs generalizing acc with
  | nil => rfl
  | cons f rest ih =>
    rw [List.map_cons, List.mem_cons, not_or] at h
    rw [List.foldl_cons, ih _ h.2, get?_set, if_neg h.1]

/-- An object holds its fields, if no key is repeated. -/
theorem get?_ofList {fs : List (String × Json)} (h : (fs.map Prod.fst).Nodup) {k : String}
    {v : Json} (hmem : (k, v) ∈ fs) : (ofList fs).get? k = some v := by
  suffices ∀ acc, get? (fs.foldl (fun acc f => set f.1 f.2 acc) acc) k = some v from this []
  induction fs with
  | nil => cases hmem
  | cons f rest ih =>
    intro acc
    obtain ⟨hf, hrest⟩ := List.nodup_cons.mp h
    rw [List.foldl_cons]
    rcases List.mem_cons.mp hmem with rfl | hmem
    · rw [get?_foldl_set_of_not_mem rest _ hf, get?_set, if_pos rfl]
    · exact ih hrest hmem _

end Fields

/-! ## Values that are read as they were written -/

namespace Json

/-- A number is read back exactly if it is finite. -/
theorem single?_ofSingle (x : Float32) :
    (ofSingle x).single? = if x.isFinite then some x else none := by
  by_cases h : x.isFinite = true
  · rw [ofSingle, ofDouble, if_pos (Single.isFinite_widen h), single?, Single.narrow_widen h, if_pos h]
  · rw [ofSingle, ofDouble, Single.isFinite_widen_of_not (Bool.eq_false_iff.mpr h), if_neg h]
    rfl

theorem natBelow?_ofNat {bits n : Nat} (h : n < 2 ^ bits) : (ofNat n).natBelow? bits = some n := by
  have hcast : (n : Int) < Int.ofNat (Nat.pow 2 bits) := Int.ofNat_lt.mpr h
  rw [natBelow?, ofNat, intWithin?, if_pos ⟨Int.natCast_nonneg n, hcast⟩]
  rfl

theorem pattern?_name (p : Pattern) : pattern? (.string p.name) = some p := by
  cases p <;> rfl

/-- A place is read back exactly if it is finite. -/
theorem point?_ofSingle (p : Point) : point? (.array [.ofSingle p.x, .ofSingle p.y]) =
    if p.x.isFinite && p.y.isFinite then some p else none := by
  simp only [point?, single?_ofSingle]
  cases p.x.isFinite <;> cases p.y.isFinite <;> rfl

end Json

theorem Move.ofCode?_code (m : Move) :
    ((Json.ofInt m.code).int64?).bind Move.ofCode? = some m := by
  cases m <;> rfl

theorem ElementType.ofCode?_code (t : ElementType) :
    ((Json.ofInt t.code).int64?).bind ElementType.ofCode? = some t := by
  cases t <;> rfl

/-! ## Settings -/

/-- The settings that a body holds, as edits that make them. -/
def Body.settings : Body → List NodeChange
  | .constant _ value => [.value value]
  | .picture _ s =>
    [.width s.width, .height s.height, .channels s.channels, .fill s.fill, .pattern s.pattern]
  | .transition _ s => [.elementType s.elementType, .move s.move]
  | .start _ | .finish _ | .branch _ | .scripted _ _ _ => []

/-- The settings that a node holds, as edits that make them. -/
def Node.settings (n : Node) : List NodeChange :=
  [.name n.name, .position n.position, .enabled n.enabled] ++ n.body.settings

/-- Whether a document has a place for what is assigned. -/
def NodeChange.isFinite : NodeChange → Bool
  | .position p => p.x.isFinite && p.y.isFinite
  | .value x | .fill x => x.isFinite
  | _ => true

/-- The sizes in the settings have sixty-four bits. -/
def Body.Sized : Body → Prop
  | .picture _ s => s.width < 2 ^ 64 ∧ s.height < 2 ^ 64 ∧ s.channels < 2 ^ 64
  | _ => True

/-- What a document can keep of a body: finite numbers, and sizes of sixty-four bits. -/
def Body.Storable : Body → Prop
  | .constant _ value => value.isFinite = true
  | .picture _ s =>
    s.fill.isFinite = true ∧ s.width < 2 ^ 64 ∧ s.height < 2 ^ 64 ∧ s.channels < 2 ^ 64
  | .start _ | .finish _ | .branch _ | .transition _ _ | .scripted _ _ _ => True

/-- What a document can keep of a node. -/
structure Node.Storable (n : Node) : Prop where
  x : n.position.x.isFinite = true
  y : n.position.y.isFinite = true
  body : n.body.Storable

/-- A body can be kept if its sizes are not too large and all its settings are finite. -/
theorem Body.storable_iff {b : Body} :
    b.Storable ↔ b.Sized ∧ ∀ c ∈ b.settings, c.isFinite = true := by
  cases b with
  | picture out s => simp [Storable, Sized, settings, NodeChange.isFinite, and_comm]
  | _ => simp [Storable, Sized, settings, NodeChange.isFinite]

/-- A node can be kept if its sizes are not too large and all its settings are finite. -/
theorem Node.storable_iff {n : Node} :
    n.Storable ↔ n.body.Sized ∧ ∀ c ∈ n.settings, c.isFinite = true := by
  have hparts : n.Storable ↔
      (n.position.x.isFinite = true ∧ n.position.y.isFinite = true) ∧ n.body.Storable :=
    ⟨fun h => ⟨⟨h.x, h.y⟩, h.body⟩, fun h => ⟨h.1.1, h.1.2, h.2⟩⟩
  simp only [hparts, Body.storable_iff, settings, List.forall_mem_append, List.forall_mem_cons,
    NodeChange.isFinite, Bool.and_eq_true, List.not_mem_nil, false_imp_iff, implies_true, true_and,
    and_true]
  tauto

/-- A node that makes the settings of another one of its kind becomes like it. -/
theorem Node.applyAll_settings {m n : Node} (hn : n.body.isBuiltin = true)
    (hclass : m.body.nodeClass = n.body.nodeClass) : (m.applyAll n.settings).blank = n.blank := by
  obtain ⟨_, _, _, _, body⟩ := n
  obtain ⟨_, _, _, _, body'⟩ := m
  cases body with
  | scripted => cases hn
  | _ => cases body' <;> first | rfl | cases hclass

/-! ## Reading what was written -/

/-- Bodies of one built-in kind have the same type and read the same fields. -/
theorem Body.of_nodeClass {b b' : Body} (hb : b.isBuiltin = true)
    (hclass : b'.nodeClass = b.nodeClass) : b'.info = b.info ∧ b'.fieldRules = b.fieldRules := by
  cases b with
  | scripted => cases hb
  | _ => cases b' <;> first | exact ⟨rfl, rfl⟩ | cases hclass

/-- Versions of built-in types have thirty-two bits. -/
theorem Body.version_lt {b : Body} (hb : b.isBuiltin = true) : b.info.version < 2 ^ 32 := by
  cases b with
  | scripted => cases hb
  | _ => exact (by decide : 1 < 2 ^ 32)

/-- The rule finds its field among these and reads the change from it, if the document has a place
for it. -/
def FieldRule.Finds (fs : List (String × Json)) (r : FieldRule) (c : NodeChange) : Prop :=
  ∃ j, (r.key, j) ∈ fs ∧ r.change? j = (if c.isFinite then some c else none) ∧
    (c.isFinite = false → r.fault j = .shape)

/-- The fields of the rules whose changes cannot be read, with what is wrong with them. -/
def FieldRule.lost (rules : List FieldRule) (changes : List NodeChange) :
    List (String × FieldFault) :=
  ((rules.zip changes).filter fun x => !x.2.isFinite).map fun x => (x.1.key, .shape)

theorem FieldRule.lost_cons (r : FieldRule) (rules : List FieldRule) (c : NodeChange)
    (changes : List NodeChange) : lost (r :: rules) (c :: changes) =
      if c.isFinite then lost rules changes else (r.key, .shape) :: lost rules changes := by
  cases hfinite : c.isFinite <;> simp [lost, hfinite]

/-- The changes that rules find are made in order as far as they can be read, and the other fields are
reported. -/
theorem FieldRule.foldl_read {fs : List (String × Json)} (hfs : (fs.map Prod.fst).Nodup)
    {rules : List FieldRule} {changes : List NodeChange}
    (h : List.Forall₂ (Finds fs) rules changes) (n : Node) (ws : List LoadWarning) :
    rules.foldl (FieldRule.read (Fields.ofList fs)) (n, ws) =
      (n.applyAll (changes.filter NodeChange.isFinite),
        ws ++ (lost rules changes).map (.ofField n.id)) := by
  induction h generalizing n ws with
  | nil => simp [lost, Node.applyAll]
  | @cons r c rules changes hr _ ih =>
    obtain ⟨j, hmem, hchange, hfault⟩ := hr
    rw [List.foldl_cons, lost_cons]
    cases hfinite : c.isFinite with
    | true =>
      rw [hfinite, if_pos rfl] at hchange
      have hread : r.read (Fields.ofList fs) (n, ws) = (n.apply c, ws) := by
        simp only [read, Fields.get?_ofList hfs hmem, hchange]
      rw [hread, ih, Node.apply_id, List.filter_cons_of_pos hfinite, if_pos rfl]
      rfl
    | false =>
      rw [hfinite, if_neg Bool.false_ne_true] at hchange
      have hread : r.read (Fields.ofList fs) (n, ws) =
          (n, ws ++ [.malformedField n.id r.key .shape]) := by
        simp only [read, Fields.get?_ofList hfs hmem, hchange, hfault hfinite]
      rw [hread, ih, List.filter_cons_of_neg (by rw [hfinite]; exact Bool.false_ne_true),
        if_neg Bool.false_ne_true, List.append_assoc]
      rfl

theorem FieldRule.change?_coded {α : Type} {key : String} {ofCode? : Int → Option α}
    {change : α → NodeChange} {j : Json} {a : α} (h : j.int64?.bind ofCode? = some a) :
    (coded key ofCode? change).change? j = some (change a) := by
  simp only [coded, h, Option.map_some]

theorem FieldRule.Finds.of_finite {fs : List (String × Json)} {r : FieldRule} {c : NodeChange}
    {j : Json} (hmem : (r.key, j) ∈ fs) (hchange : r.change? j = some c) (hfinite : c.isFinite = true) :
    Finds fs r c :=
  ⟨j, hmem, by rw [hchange, hfinite, if_pos rfl], fun h => absurd (hfinite.symm.trans h) (by decide)⟩

theorem FieldRule.Finds.of_shaped {α : Type} {fs : List (String × Json)} {key : String}
    {decode : Json → Option α} {change : α → NodeChange} {a : α} {j : Json} (hmem : (key, j) ∈ fs)
    (hdecode : decode j = if (change a).isFinite then some a else none) :
    Finds fs (shaped key decode change) (change a) :=
  ⟨j, hmem, by simp only [shaped, hdecode]; split_ifs <;> rfl, fun _ => rfl⟩

theorem commonRules_find (n : Node) {fs : List (String × Json)}
    (hname : ("name", .string n.name) ∈ fs)
    (hposition : ("position", .array [.ofSingle n.position.x, .ofSingle n.position.y]) ∈ fs)
    (henabled : ("enabled", .bool n.enabled) ∈ fs) :
    List.Forall₂ (FieldRule.Finds fs) commonRules
      [.name n.name, .position n.position, .enabled n.enabled] :=
  .cons (.of_shaped hname rfl)
    (.cons (.of_shaped hposition (Json.point?_ofSingle _)) (.cons (.of_shaped henabled rfl) .nil))

/-- The rules of a body find its settings in its fields. -/
theorem Body.fieldRules_find {b : Body} (h : b.Sized) :
    List.Forall₂ (FieldRule.Finds b.fields) b.fieldRules b.settings := by
  cases b with
  | start | finish | branch | scripted => exact .nil
  | constant out value => exact .cons (.of_shaped (.head _) (Json.single?_ofSingle value)) .nil
  | picture out s =>
    obtain ⟨hwidth, hheight, hchannels⟩ := h
    refine .cons (.of_shaped (j := .ofNat s.width) ?_ (Json.natBelow?_ofNat hwidth)) <|
      .cons (.of_shaped (j := .ofNat s.height) ?_ (Json.natBelow?_ofNat hheight)) <|
      .cons (.of_shaped (j := .ofNat s.channels) ?_ (Json.natBelow?_ofNat hchannels)) <|
      .cons (.of_shaped (j := .ofSingle s.fill) ?_ (Json.single?_ofSingle s.fill)) <|
      .cons (.of_shaped (j := .string s.pattern.name) ?_ (Json.pattern?_name s.pattern)) .nil
    all_goals simp [fields]
  | transition pins s =>
    refine .cons (.of_finite ?_ (FieldRule.change?_coded s.elementType.ofCode?_code) rfl) <|
      .cons (.of_finite ?_ (FieldRule.change?_coded s.move.ofCode?_code) rfl) .nil
    all_goals simp [fields, FieldRule.coded]

/-- The fields of a saved node. -/
def Node.savedFields (n : Node) (remap : Remap) : List (String × Json) :=
  [("type", .string n.info.name), ("id", .string (remap.resolve n.id).toText),
    ("version", .ofNat n.info.version), ("name", .string n.name),
    ("position", .array [.ofSingle n.position.x, .ofSingle n.position.y]),
    ("enabled", .bool n.enabled)] ++ n.body.fields

namespace Node

theorem save_eq (n : Node) (remap : Remap) : n.save remap = .ofFields (n.savedFields remap) := rfl

/-- No key of a node document is repeated. -/
theorem savedFields_nodup (n : Node) (remap : Remap) :
    ((n.savedFields remap).map Prod.fst).Nodup := by
  obtain ⟨_, _, _, _, body⟩ := n
  cases body <;> simp [savedFields, Body.fields]

/-- The document of a node holds its fields. -/
theorem get?_savedFields {n : Node} {remap : Remap} {k : String} {v : Json}
    (h : (k, v) ∈ n.savedFields remap) : (Fields.ofList (n.savedFields remap)).get? k = some v :=
  Fields.get?_ofList (n.savedFields_nodup remap) h

/-- The document of a node has its type. -/
theorem typeName?_savedFields (n : Node) (remap : Remap) :
    (Fields.ofList (n.savedFields remap)).typeName? = some n.info.name := by
  rw [Fields.typeName?, get?_savedFields (v := .string n.info.name) (by simp [savedFields]),
    Option.bind_some, Json.string?]

/-- Every rule finds its field in the document of a node and reads the setting of the node. -/
theorem fieldRules_find {n : Node} (hn : n.body.Sized) (remap : Remap) :
    List.Forall₂ (FieldRule.Finds (n.savedFields remap)) n.fieldRules n.settings := by
  have hbody : List.Forall₂ (FieldRule.Finds (n.savedFields remap)) n.body.fieldRules
      n.body.settings :=
    (Body.fieldRules_find hn).imp fun r c ⟨j, hj, hc⟩ => ⟨j, List.mem_append_right _ hj, hc⟩
  refine List.rel_append (commonRules_find n ?_ ?_ ?_) hbody <;> simp [savedFields]

/-- The fields of a node whose settings have no place in a document. -/
def lost (n : Node) : List (String × FieldFault) := FieldRule.lost n.fieldRules n.settings

/-- A document of the type of a node and of no newer version is accepted. -/
theorem checkDocument_ok {m : Node} {fields : Fields} {j : Json} {version : Nat}
    (htype : fields.typeName? = some m.info.name) (hversion : fields.get? "version" = some j)
    (hj : j.natBelow? 32 = some version) (hold : ¬m.info.version < version) :
    m.checkDocument fields = .ok [] := by
  simp only [checkDocument, htype, hversion, hj, hold, if_true, if_false]

/-- A node accepts the document of a node of its kind. -/
theorem checkDocument_savedFields {m n : Node} (hbuiltin : n.body.isBuiltin = true)
    (hclass : m.body.nodeClass = n.body.nodeClass) (remap : Remap) :
    m.checkDocument (Fields.ofList (n.savedFields remap)) = .ok [] := by
  have hinfo : m.info = n.info := (Body.of_nodeClass hbuiltin hclass).1
  refine checkDocument_ok (by rw [typeName?_savedFields, hinfo])
    (get?_savedFields (v := .ofNat n.info.version) (by simp [savedFields]))
    (Json.natBelow?_ofNat (Body.version_lt hbuiltin)) ?_
  rw [hinfo]
  exact Nat.lt_irrefl _

/-- **Reading a saved node**: a node that reads the document of a node of its kind makes those of its
settings that are finite, and reports the fields of the others. -/
theorem load_savedFields {m n : Node} (hn : n.body.Sized) (hbuiltin : n.body.isBuiltin = true)
    (hclass : m.body.nodeClass = n.body.nodeClass) (remap : Remap) :
    m.load (Fields.ofList (n.savedFields remap)) =
      .ok (m.applyAll (n.settings.filter NodeChange.isFinite), n.lost.map (.ofField m.id)) := by
  have hrules : m.fieldRules = n.fieldRules :=
    congrArg (commonRules ++ ·) (Body.of_nodeClass hbuiltin hclass).2
  rw [load_eq, checkDocument_savedFields hbuiltin hclass]
  simp only [hrules]
  exact congrArg _ (FieldRule.foldl_read (n.savedFields_nodup remap) (fieldRules_find hn remap) m [])

/-- Nothing is lost of a node exactly if all its settings are finite. -/
theorem lost_eq_nil {n : Node} (hn : n.body.Sized) :
    n.lost = [] ↔ ∀ c ∈ n.settings, c.isFinite = true := by
  have hzip : (n.fieldRules.zip n.settings).map Prod.snd = n.settings :=
    List.map_snd_zip (fieldRules_find hn []).length_eq.ge
  rw [lost, FieldRule.lost, List.map_eq_nil_iff, List.filter_eq_nil_iff]
  conv_rhs => rw [← hzip, List.forall_mem_map]
  simp

/-- **Round trip of nodes**: a node that reads the document of a node of its kind becomes like it. -/
theorem load_save {m n : Node} (hn : n.Storable) (hbuiltin : n.body.isBuiltin = true)
    (hclass : m.body.nodeClass = n.body.nodeClass) (remap : Remap) :
    ∃ m', m.load (Fields.ofList (n.savedFields remap)) = .ok (m', []) ∧ m'.id = m.id ∧
      m'.blank = n.blank := by
  obtain ⟨hsized, hfinite⟩ := storable_iff.mp hn
  refine ⟨m.applyAll n.settings, ?_, (m.applyAll_kept n.settings).1,
    applyAll_settings hbuiltin hclass⟩
  rw [load_savedFields hsized hbuiltin hclass, (lost_eq_nil hsized).mpr hfinite,
    List.filter_eq_self.mpr hfinite]
  rfl

end Node

end Patchbay
