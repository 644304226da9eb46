import Patchbay.Proofs.Document.Accounting
import Patchbay.Proofs.Document.Lenient
import Patchbay.Proofs.Document.Restored
import Patchbay.Session

/-!
# Documents of newer versions

Two gates read the version of a document. That of graph documents reads integers of 64 bits, and refuses all
that are newer. That of node documents reads integers of 32 bits only, and a version that is no such number is
a malformed field like any other: it is reported, and the rest of the document is read. So a newer version is
refused if it has 32 bits, and overlooked if it has more (`Node.meetsNewer`).

In a graph document this is decided for each entry by itself. `Loading.mem_warnings` carries what the entry of
a node gives rise to, in whatever state it is read, into the report on the whole document.

**`Graph.newer_documents`** says what becomes of newer documents, of nodes and of graphs.
-/

namespace Patchbay

/-! ## Versions -/

/-- An integer that fits is read in fewer bits if it fits there as well. -/
theorem Json.natBelow?_narrow {bits bits' n : Nat} {j : Json} (h : j.natBelow? bits = some n) :
    j.natBelow? bits' = if n < 2 ^ bits' then some n else none := by
  obtain ⟨i, hi, rfl⟩ := Option.map_eq_some_iff.mp h
  cases j with
  | number x =>
    cases x with
    | int k =>
      simp only [intWithin?, Option.ite_none_right_eq_some, Option.some.injEq] at hi
      obtain ⟨⟨hlow, -⟩, rfl⟩ := hi
      simp only [natBelow?, intWithin?, hlow, true_and, Int.toNat_lt hlow]
      exact apply_ite (Option.map Int.toNat) _ _ _
    | double => cases hi
  | _ => cases hi

/-- The version that a document names, if it is an integer of 64 bits without sign. -/
def Fields.version? (fields : Fields) : Option Nat := (fields.get? "version").bind (Json.natBelow? 64)

theorem Fields.get?_of_version? {fields : Fields} {found : Nat} (h : fields.version? = some found) :
    ∃ j, fields.get? "version" = some j ∧
      j.natBelow? 32 = if found < 2 ^ 32 then some found else none := by
  obtain ⟨j, hj, hfound⟩ := Option.bind_eq_some_iff.mp h
  exact ⟨j, hj, Json.natBelow?_narrow hfound⟩

/-! ## Documents of nodes -/

namespace Node

variable {n : Node} {fields : Fields} {found : Nat}

/-- What a node makes of a document that names the newer version `found`. -/
structure MeetsNewer (n : Node) (fields : Fields) (found : Nat) : Prop where
  /-- A version of 32 bits is refused, and nothing is changed. -/
  refused : found < 2 ^ 32 → ∀ ws, restore fields (n, ws) =
    (.error (.newerNode n.info.name found n.info.version), n, ws)
  /-- A version of more bits is malformed, and all other fields are read. -/
  overlooked : 2 ^ 32 ≤ found → ("version", .shape) ∈ n.complaints fields ∧ ∀ ws,
    restore fields (n, ws) = (.ok (), n.restored fields, ws ++ (n.complaints fields).map (.ofField n.id))

/-- **Newer versions of 32 bits are refused, and larger ones are overlooked.** -/
theorem meetsNewer (htype : ∀ name, fields.get? "type" = some (.string name) → name = n.info.name)
    (hversion : fields.version? = some found) (hnewer : n.info.version < found) :
    n.MeetsNewer fields found := by
  obtain ⟨j, hj, hread⟩ := Fields.get?_of_version? hversion
  constructor
  case refused =>
    intro hfits ws
    rw [if_pos hfits] at hread
    have hrefuses : n.checkDocument fields =
        .error (.newerNode n.info.name found n.info.version) := by
      simp only [checkDocument, hj, hread, if_pos hnewer]
      cases hname : fields.typeName? with
      | none => rfl
      | some name => exact if_pos (htype name (Fields.typeName?_eq_some.mp hname))
    rw [restore_eq, hrefuses]
  case overlooked =>
    intro hlarge
    rw [if_neg (Nat.not_lt.mpr hlarge)] at hread
    have haccepts : n.Accepts fields := by
      refine ⟨htype, fun j' version hj' hversion => ?_⟩
      obtain rfl := Option.some.inj (hj.symm.trans hj')
      rw [hread] at hversion
      cases hversion
    refine ⟨?_, restore_of_accepts haccepts⟩
    simp [complaints, Fields.complaint, hj, hread]

end Node

/-! ## Entries of nodes -/

namespace Loading

variable {r : Registry} {j : Json} {index : Nat}

/-- What every state makes of an entry is in the report after all entries. -/
theorem mem_warnings (hr : r.WarnsOfFields) {w : LoadWarning}
    (hw : ∀ st, w ∈ (loadNodeBy r st (j, index)).report.warnings)
    {js : List Json} {k : Nat} (h : (j, index) ∈ js.zipIdx k) (st : Loading) :
    w ∈ ((js.zipIdx k).foldl (loadNodeBy r) st).report.warnings := by
  induction js generalizing k st with
  | nil => cases h
  | cons j' js ih =>
    rw [List.zipIdx_cons] at h ⊢
    rcases List.mem_cons.mp h with heq | h
    · obtain ⟨_, ws, -, hrest⟩ := nodes_accounts hr js (k + 1) (loadNodeBy r st (j', k))
      rw [List.foldl_cons, hrest.warnings]
      exact List.mem_append_left _ (heq ▸ hw st)
    · exact ih h (loadNodeBy r st (j', k))

end Loading

/-- The report on a document has what every state makes of one of its entries. -/
theorem Graph.mem_warnings_of_merge {g : Graph} {r : Registry} (hr : r.WarnsOfFields) {s : Supply}
    {doc : Json} {merged : Loading} (hmerge : g.mergeBy r s doc = .ok merged) {j : Json} {index : Nat}
    (h : (j, index) ∈ (doc.listed "nodes").zipIdx) {w : LoadWarning}
    (hw : ∀ st, w ∈ (Loading.loadNodeBy r st (j, index)).report.warnings) :
    w ∈ merged.report.warnings := by
  rcases mergeBy_cases doc with ⟨e, hrefused⟩ | ⟨ws, bad, -, -, hread⟩
  · rw [hrefused] at hmerge
    cases hmerge
  obtain ⟨st, hst, hread⟩ := hread g r s
  obtain rfl := Except.ok.inj (hread.symm.trans hmerge)
  obtain ⟨_, ws', -, hlinks⟩ := Loading.links_accounts (doc.listed "links") 0
    ⟨st.graph, st.supply, st.loaded, st.report.warn bad⟩
  rw [hlinks.warnings]
  refine List.mem_append_left _ (List.mem_append_left _ ?_)
  rw [hst]
  exact Loading.mem_warnings hr hw h _

namespace Loading

variable {c : Catalog} {j : Json} {index : Nat} {e : NodeEntry} {t : NodeType} {found : Nat}

/-- What becomes of an entry that names the newer version `found` of its type, in any state of the reader and
in the outcome of merging the document that it stands in. -/
structure MeetsNewer (c : Catalog) (j : Json) (index : Nat) (e : NodeEntry) (t : NodeType) (found : Nat)
    (merged : Loading) : Prop where
  /-- A version of 32 bits is refused: the entry is left out, with a warning. -/
  refused : found < 2 ^ 32 →
    let w : LoadWarning := .nodeRejected index e.typeName (.load (.newerNode e.typeName found t.info.version))
    w ∈ merged.report.warnings ∧ ∀ st, ∃ s, loadNode c st (j, index) =
      ⟨st.graph, s, st.loaded, st.report.warn (st.repeated index (e.claim st.supply).1 ++ [w])⟩
  /-- A version of more bits is malformed: the entry is taken in as it is without its version. -/
  overlooked : 2 ^ 32 ≤ found → ∀ st : Loading, ∃ (n : Node) (s : Supply),
    n.info = t.info ∧ ("version", .shape) ∈ n.complaints e.fields ∧
      let written := (e.claim st.supply).1
      loadNode c st (j, index) = addNode ⟨st.graph, s, st.loaded,
        st.report.warn (st.repeated index written ++ (n.complaints e.fields).map (.ofField n.id))⟩
          index e.typeName written (st.loaded.has written) (n.restored e.fields)

/-- Reading an entry of a known type is up to a new node of this type. -/
theorem exists_loadNode_eq (hentry : readEntry j = .ok e) (hfind : c.find? e.typeName = some t)
    (index : Nat) (st : Loading) : ∃ (n : Node) (s : Supply), n.info = t.info ∧
      let written := (e.claim st.supply).1
      loadNode c st (j, index) = match n.load e.fields with
        | .error r => ⟨st.graph, s, st.loaded,
            st.report.warn (st.repeated index written ++ [.nodeRejected index e.typeName (.load r)])⟩
        | .ok (n, warnings) => addNode ⟨st.graph, s, st.loaded,
            st.report.warn (st.repeated index written ++ warnings)⟩ index e.typeName written
              (st.loaded.has written) n := by
  set st₁ : Loading := { st with supply := (e.claim st.supply).2 }
  have hinfo := t.info_create (st₁.chosen (e.claim st.supply).1).1 (st₁.chosen (e.claim st.supply).1).2
  rcases hcreate : t.create (st₁.chosen (e.claim st.supply).1).1 (st₁.chosen (e.claim st.supply).1).2 with
    ⟨n, s⟩
  refine ⟨n, s, by rw [← hinfo, hcreate], ?_⟩
  rw [loadNode, loadNodeBy_of_ok hentry, restoreNodeBy_registry, Catalog.create?_of_find? hfind, hcreate]
  rfl

theorem meetsNewer (hentry : readEntry j = .ok e) (hfind : c.find? e.typeName = some t)
    (hversion : e.fields.version? = some found) (hnewer : t.info.version < found) {g : Graph} {s : Supply}
    {doc : Json} {merged : Loading} (hmerge : g.merge c s doc = .ok merged)
    (hmem : (j, index) ∈ (doc.listed "nodes").zipIdx) : MeetsNewer c j index e t found merged := by
  have hnode : ∀ n : Node, n.info = t.info → n.MeetsNewer e.fields found := by
    intro n hn
    refine Node.meetsNewer (fun name hname => ?_) hversion (hn ▸ hnewer)
    rw [hn, Catalog.find?_name hfind]
    exact Option.some.inj ((Fields.typeName?_eq_some.mpr hname).symm.trans (typeName?_of_readEntry hentry))
  constructor
  case refused =>
    intro hfits w
    have hread : ∀ st, ∃ s, loadNode c st (j, index) =
        ⟨st.graph, s, st.loaded, st.report.warn (st.repeated index (e.claim st.supply).1 ++ [w])⟩ := by
      intro st
      obtain ⟨n, s, hn, heq⟩ := exists_loadNode_eq hentry hfind index st
      have hrefuses : n.load e.fields = .error (.newerNode e.typeName found t.info.version) := by
        rw [Node.load, (hnode n hn).refused hfits, hn, Catalog.find?_name hfind]
      exact ⟨s, by rw [heq, hrefuses]⟩
    refine ⟨Graph.mem_warnings_of_merge c.registry_regular.warnsOfFields hmerge hmem fun st => ?_, hread⟩
    obtain ⟨s, heq⟩ := hread st
    rw [← loadNode, heq]
    exact List.mem_append_right _ List.mem_concat_self
  case overlooked =>
    intro hlarge st
    obtain ⟨n, s, hn, heq⟩ := exists_loadNode_eq hentry hfind index st
    obtain ⟨hcomplains, hrestores⟩ := (hnode n hn).overlooked hlarge
    have hload : n.load e.fields =
        .ok (n.restored e.fields, (n.complaints e.fields).map (.ofField n.id)) := by
      rw [Node.load, hrestores]
      rfl
    exact ⟨n, s, hn, hcomplains, by rw [heq, hload]⟩

end Loading

/-! ## Documents of graphs -/

theorem checkFormat_newer {root : Fields} {found : Nat} (hversion : root.version? = some found)
    (hnewer : formatVersion < found) : checkFormat root = .error (.newerDocument found) := by
  obtain ⟨j, hj, hfound⟩ := Option.bind_eq_some_iff.mp hversion
  simp only [checkFormat, hj, hfound, if_pos hnewer]

namespace Graph

theorem merge_newer (g : Graph) (c : Catalog) (s : Supply) {doc : Json} {root : Fields} {found : Nat}
    (hroot : doc.fields? = some root) (hversion : root.version? = some found)
    (hnewer : formatVersion < found) : g.merge c s doc = .error (.newerDocument found) := by
  simp only [merge, mergeBy, hroot, checkFormat_newer hversion hnewer]

/-- **What becomes of newer documents.** The version of a document is an integer of 64 bits. A node refuses the
document if this is newer and of 32 bits, and overlooks it if it is larger. So does merging, with each of the
entries of nodes in a document; an entry that cannot be read is left out whatever its version is. A graph
document of a newer version is refused in any case, and the session that would read it stays as it is. -/
theorem newer_documents {fields : Fields} {found : Nat} (hversion : fields.version? = some found) :
    (∀ n : Node, (∀ name, fields.get? "type" = some (.string name) → name = n.info.name) →
      n.info.version < found → n.MeetsNewer fields found) ∧
    (∀ (g : Graph) (c : Catalog) (s : Supply) (doc : Json) (merged : Loading),
      g.merge c s doc = .ok merged → ∀ j index, (j, index) ∈ (doc.listed "nodes").zipIdx →
      (∀ e t, Loading.readEntry j = .ok e → e.fields = fields → c.find? e.typeName = some t →
        t.info.version < found → Loading.MeetsNewer c j index e t found merged) ∧
      ∀ fault, Loading.readEntry j = .error fault →
        .malformedNode index fault ∈ merged.report.warnings ∧
          ∀ st, Loading.loadNode c st (j, index) = st.warn (.malformedNode index fault)) ∧
    (formatVersion < found → ∀ doc : Json, doc.fields? = some fields →
      (∀ g c s, Graph.merge g c s doc = .error (.newerDocument found)) ∧
      (∀ c s, Graph.load c s doc = .error (.newerDocument found)) ∧
      ∀ session : Session,
        Session.merge doc session = (.error (.load (.newerDocument found)), session) ∧
        Session.load doc session = (.error (.load (.newerDocument found)), session)) := by
  refine ⟨fun n htype hnewer => Node.meetsNewer htype hversion hnewer, ?_, fun hnewer doc hroot => ?_⟩
  · intro g c s doc merged hmerge j index hmem
    constructor
    · rintro e t hentry rfl hfind hnewer
      exact Loading.meetsNewer hentry hfind hversion hnewer hmerge hmem
    · intro fault hentry
      have hleft := Loading.loadNodeBy_of_error (r := c.registry) hentry
      refine ⟨mem_warnings_of_merge c.registry_regular.warnsOfFields hmerge hmem fun st => ?_,
        fun st => hleft st index⟩
      rw [hleft st index]
      exact List.mem_concat_self
  · have hmerge : ∀ g c s, Graph.merge g c s doc = .error (.newerDocument found) :=
      fun g c s => g.merge_newer c s hroot hversion hnewer
    have hadopt : ∀ (memory : Memory) (session : Session),
        Session.adopt memory (.error (.newerDocument found)) session =
          (.error (.load (.newerDocument found)), session) := fun _ _ => rfl
    refine ⟨hmerge, fun c s => hmerge _ c s, fun session => ⟨?_, ?_⟩⟩
    · show Session.adopt session.memory (Graph.merge _ _ _ doc) session = _
      rw [hmerge, hadopt]
    · show Session.adopt .empty (Graph.merge _ _ _ doc) session = _
      rw [hmerge, hadopt]

/-- A constant, and a document of it. -/
def five : Node := exampleNode 5 (.constant ⟨Uuid.ofNat 51⟩ 5)

def five.document (version : Nat) : Fields :=
  [("type", .string "Float"), ("value", .number (.int 6)), ("version", .ofNat version)]

/-- The next version is refused, alone, in a graph document and as the version of a graph document. -/
theorem five_refused :
    let doc : Json := .object [("nodes", .array [.object (five.document 2)])]
    five.load (five.document 2) = .error (.newerNode "Float" 2 1) ∧
    (∃ merged, pullAhead.merge .builtin (.countingFrom 200) doc = .ok merged ∧
      LoadWarning.nodeRejected 0 "Float" (.load (.newerNode "Float" 2 1)) ∈ merged.report.warnings) ∧
    ∀ session : Session, (Session.merge (.object (five.document 2)) session).2 = session := by
  intro doc
  have hversion : (five.document 2).version? = some 2 := by decide +kernel
  obtain ⟨hnode, hentry, hgraph⟩ := newer_documents hversion
  refine ⟨?_, ?_, fun session => ?_⟩
  · rw [Node.load, (hnode five (fun name hname => by cases hname; rfl) (by decide)).refused (by decide)]
    rfl
  · obtain ⟨merged, hmerge⟩ := (mergeBy_isOk_iff pullAhead Catalog.builtin.registry (.countingFrom 200) doc).mpr
      ⟨rfl, fun version hversion => by cases hversion⟩
    have hmeets := (hentry _ _ _ doc merged hmerge (.object (five.document 2)) 0
      (List.mem_singleton.mpr rfl)).1 ⟨five.document 2, "Float", none⟩ (.builtin .constant) rfl rfl rfl
        (by decide)
    exact ⟨merged, hmerge, (hmeets.refused (by decide)).1⟩
  · rw [((hgraph (by decide) _ rfl).2.2 session).1]

/-- The first version of more than 32 bits is overlooked. -/
theorem five_overlooked :
    (five.document (2 ^ 32)).version? = some (2 ^ 32) ∧ five.info.version < 2 ^ 32 ∧
      ∃ n, five.load (five.document (2 ^ 32)) = .ok (n, [.malformedField five.id "version" .shape]) ∧
        n.body = .constant ⟨Uuid.ofNat 51⟩ 6 := by
  refine ⟨by decide +kernel, by decide, _, rfl, ?_⟩
  decide +kernel

end Graph

end Patchbay
