import Patchbay.Proofs.Document.Lenient
import Patchbay.Proofs.Document.Restored

/-!
# What a clean load has restored

A report without warnings is to mean that everything in the document has been restored. For the two lists
of a document it does: both are lists if they are there, every entry has brought in what it stands for, in
order, and every field that its kind of entry knows has been read (`Graph.Reflects`). For the name of the
graph it does not. A name that is no text is passed over without a warning, and the graph is called
`Untitled` as if no name were given.

The proof goes from the single field to the document. A node makes of its document what `Node.restored` says,
and where nothing is reported this is what the fields say (`Node.shows_of_load`). An entry that brings in its
node without a warning brings it in under the identity that it writes, so that identities lead to themselves
(`Loading.loadNodeBy_clean`) and links join the nodes that they name. **`Graph.load_clean`** puts it together.
-/

namespace Patchbay

/-! ## Nodes and their documents -/

/-- If the field is there, it is read as `a`. -/
def Fields.Reads {α : Type} (fields : Fields) (key : String) (decode : Json → Option α) (a : α) :
    Prop :=
  ∀ j, fields.get? key = some j → decode j = some a

/-- The settings of a body are what the fields of its kind say. -/
def Body.Shows (fields : Fields) : Body → Prop
  | .constant _ value => fields.Reads "value" Json.single? value
  | .picture _ s =>
    fields.Reads "width" (Json.natBelow? 64) s.width ∧
      fields.Reads "height" (Json.natBelow? 64) s.height ∧
      fields.Reads "channels" (Json.natBelow? 64) s.channels ∧
      fields.Reads "fill" Json.single? s.fill ∧ fields.Reads "pattern" Json.pattern? s.pattern
  | .transition _ s =>
    fields.Reads "mat_type" (fun j => j.int64?.bind ElementType.ofCode?) s.elementType ∧
      fields.Reads "move_type" (fun j => j.int64?.bind Move.ofCode?) s.move
  | .start _ | .finish _ | .branch _ | .scripted _ _ _ => True

/-- A node is what its document says, in every field that is there. -/
structure Node.Shows (n : Node) (fields : Fields) : Prop where
  typeName : fields.get? "type" = some (.string n.info.name)
  id : fields.Reads "id" (fun j => j.string?.bind Uuid.ofText?) n.id.uuid
  version : ∀ j, fields.get? "version" = some j →
    ∃ version, j.natBelow? 32 = some version ∧ version ≤ n.info.version
  name : fields.Reads "name" Json.string? n.name
  position : fields.Reads "position" Json.point? n.position
  enabled : fields.Reads "enabled" Json.bool? n.enabled
  body : n.body.Shows fields

section Reads

variable {fields : Fields}

/-- A field of which nothing is reported can be read if it is there. -/
theorem Fields.exists_of_complaint {α : Type} {key : String} {decode : Json → Option α}
    {fault : Json → FieldFault} (h : fields.complaint key decode fault = []) {j : Json}
    (hj : fields.get? key = some j) : ∃ a, decode j = some a := by
  simp only [complaint, hj] at h
  split_ifs at h with hsome
  exact Option.isSome_iff_exists.mp hsome

/-- If nothing is reported of a field, then the setting is what the field says. -/
theorem Fields.reads_pick {α : Type} {key : String} {decode : Json → Option α}
    {fault : Json → FieldFault} (h : fields.complaint key decode fault = []) (old : α) :
    fields.Reads key decode (fields.pick key decode old) := by
  intro j hj
  obtain ⟨a, ha⟩ := exists_of_complaint h hj
  simp only [pick, hj, Option.bind_some, ha, Option.getD_some]

theorem Body.shows_restored {b : Body} (h : b.complaints fields = []) : (b.restored fields).Shows fields := by
  cases b with
  | start | finish | branch | scripted => trivial
  | constant out value => exact Fields.reads_pick h _
  | picture out s =>
    simp only [complaints, List.append_eq_nil_iff] at h
    obtain ⟨⟨⟨⟨hwidth, hheight⟩, hchannels⟩, hfill⟩, hpattern⟩ := h
    exact ⟨Fields.reads_pick hwidth _, Fields.reads_pick hheight _, Fields.reads_pick hchannels _,
      Fields.reads_pick hfill _, Fields.reads_pick hpattern _⟩
  | transition pins s =>
    obtain ⟨htype, hmove⟩ := List.append_eq_nil_iff.mp h
    exact ⟨Fields.reads_pick htype _, Fields.reads_pick hmove _⟩

/-- **A node that accepts a document of its type without a warning** is what the document says. -/
theorem Node.shows_of_load {m n : Node} (hload : m.load fields = .ok (n, []))
    (htype : fields.typeName? = some m.info.name)
    (hid : fields.Reads "id" (fun j => j.string?.bind Uuid.ofText?) m.id.uuid) :
    n.Shows fields := by
  obtain ⟨haccepts, rfl, hwarnings⟩ := load_eq_ok.mp hload
  obtain ⟨hsame, -, hinfo⟩ := m.restored_kept fields
  have hnone := List.map_eq_nil_iff.mp hwarnings
  simp only [complaints, List.append_eq_nil_iff] at hnone
  obtain ⟨⟨⟨⟨hversion, hname⟩, hposition⟩, henabled⟩, hbody⟩ := hnone
  refine ⟨?_, hsame ▸ hid, fun j hj => ?_, Fields.reads_pick hname _, Fields.reads_pick hposition _,
    Fields.reads_pick henabled _, Body.shows_restored hbody⟩
  · rw [hinfo]
    exact Fields.typeName?_eq_some.mp htype
  · obtain ⟨version, hread⟩ := Fields.exists_of_complaint hversion hj
    exact ⟨version, hread, hinfo ▸ haccepts.version j version hj hread⟩

end Reads

/-! ## Entries that are read without a warning -/

namespace Loading

variable {c : Catalog} {st : Loading} {j : Json}

/-- Identities lead to the nodes that have them, and nowhere else. -/
def Direct (st : Loading) : Prop :=
  ∀ d, st.loaded.get? d = if d ∈ st.graph.nodeIds then some d else none

/-- The node is what its entry says. -/
def Shows (j : Json) (n : Node) : Prop := ∃ fields, j.fields? = some fields ∧ n.Shows fields

/-- The fields of an entry that can be read, and the identity that they give it. -/
theorem readEntry_spec {e : NodeEntry} (h : readEntry j = .ok e) : j.fields? = some e.fields ∧
    ∀ d, e.fields.Reads "id" (fun j => j.string?.bind Uuid.ofText?) (e.claim d).1.uuid := by
  rw [readEntry] at h
  split at h
  · cases h
  · rename_i fields hfields
    split at h
    · cases h
    · cases hid : fields.get? "id" with
      | none =>
        simp only [Fields.nodeId?, hid, Option.map_none] at h
        obtain rfl := Except.ok.inj h
        exact ⟨hfields, fun d j hj => absurd (hid.symm.trans hj) (by simp)⟩
      | some i =>
        simp only [Fields.nodeId?, hid, Option.map_some] at h
        cases hu : i.string?.bind Uuid.ofText? with
        | none => simp [hu] at h
        | some u =>
          simp only [hu] at h
          obtain rfl := Except.ok.inj h
          refine ⟨hfields, fun d j hj => ?_⟩
          obtain rfl := Option.some.inj (hid.symm.trans hj)
          exact hu

/-- A new node is of the type that has been asked for. -/
theorem create?_typeName {name : String} {id : NodeId} {s s' : Supply} {n : Node}
    (h : c.create? name id s = some (n, s')) : n.info.name = name := by
  obtain ⟨t, ht, hmade⟩ := Option.map_eq_some_iff.mp h
  obtain rfl := congrArg Prod.fst hmade
  rw [t.info_create, Catalog.find?_name ht]

/-- Adding a node gives rise to one warning at most, and to none if the node comes in. -/
theorem addNode_warns (st : Loading) (index : Nat) (typeName : String) (written : NodeId)
    (isRepeat : Bool) (n : Node) :
    (∃ g, st.graph.addNode n = .ok g ∧
      (st.addNode index typeName written isRepeat n).report.warnings = st.report.warnings) ∨
      ∃ w, (st.addNode index typeName written isRepeat n).report.warnings =
        st.report.warnings ++ [w] := by
  cases hadd : st.graph.addNode n with
  | error e =>
    exact .inr ⟨.nodeRejected index typeName (.graph e), by
      simp only [addNode, hadd, warn, LoadReport.warn]⟩
  | ok g =>
    refine .inl ⟨g, rfl, ?_⟩
    simp only [addNode, hadd]
    split <;> rfl

/-- An identity that no entry has had is chosen as it is. -/
theorem Direct.chosen_eq (hst : st.Direct) {d : NodeId} (hnew : st.loaded.has d = false) :
    st.chosen d = (d, st.supply) := by
  have hfree : st.graph.hasNode d = false := by
    rw [← Bool.not_eq_true, Graph.hasNode_iff]
    intro hd
    simp [Table.has, hst d, hd] at hnew
  simp only [chosen, identityFor, hnew, hfree, Bool.or_false, Bool.false_eq_true, if_false]

/-- Identities go on leading to the nodes that have them when a node comes in under the identity that its
entry goes by. -/
theorem Direct.takeIn (hst : st.Direct) {e : NodeEntry} {n : Node}
    (hid : n.id = (e.claim st.supply).1) {g : Graph} (hadd : st.graph.addNode n = .ok g) (s : Supply)
    (ws : List LoadWarning) : (st.takeIn e n g s ws).Direct := by
  have hnodes : (st.takeIn e n g s ws).graph.nodeIds = st.graph.nodeIds ++ [n.id] := by
    simp [Graph.nodeIds, Loading.takeIn, (Graph.addNode_parts hadd).2.1]
  intro d
  rw [get?_takeIn, hst d, hnodes, ← hid]
  by_cases hd : d ∈ st.graph.nodeIds
  · simp [hd]
  · by_cases hnd : n.id = d
    · simp [hd, hnd]
    · simp [hd, hnd, Ne.symm hnd]

/-- **The entry of a node that is read without a warning** brings in a node that is what the entry says. -/
theorem loadNodeBy_clean (hst : st.Direct) {index : Nat}
    (h : (loadNodeBy c.registry st (j, index)).report.warnings = st.report.warnings) :
    ∃ n, Shows j n ∧ (loadNodeBy c.registry st (j, index)).graph.nodes = st.graph.nodes ++ [n] ∧
      (loadNodeBy c.registry st (j, index)).Direct := by
  cases hentry : readEntry j with
  | error fault => simp [loadNodeBy_of_error hentry, warn, LoadReport.warn] at h
  | ok e =>
    obtain ⟨hfields, hid⟩ := readEntry_spec hentry
    rw [loadNodeBy_of_ok hentry, restoreNodeBy_registry] at h ⊢
    set st₁ : Loading := { st with supply := (e.claim st.supply).2 }
    set d := (e.claim st.supply).1
    cases hcreate : c.create? e.typeName (st₁.chosen d).1 (st₁.chosen d).2 with
    | none => simp [hcreate, LoadReport.warn, st₁] at h
    | some created =>
      obtain ⟨blank, s⟩ := created
      cases hload : blank.load e.fields with
      | error refusal => simp [hcreate, hload, LoadReport.warn, st₁] at h
      | ok restored =>
        obtain ⟨n, faults⟩ := restored
        simp only [hcreate, hload] at h ⊢
        rcases addNode_warns ⟨st.graph, s, st.loaded,
          st.report.warn (st₁.repeated index d ++ faults)⟩ index e.typeName d (st.loaded.has d) n with
          ⟨g, hcame, hwarned⟩ | ⟨w, hwarned⟩
        · -- nothing has been said, so the identity is new and the fields are in order
          have hnothing := hwarned.symm.trans h
          simp only [LoadReport.warn, List.append_right_eq_self, List.append_eq_nil_iff] at hnothing
          obtain ⟨hrepeated, rfl⟩ := hnothing
          have hnew : st.loaded.has d = false := by simpa [repeated, st₁] using hrepeated
          have hdirect : st₁.Direct := hst
          have hchosen := hdirect.chosen_eq hnew
          have hblank : blank.id = d := by rw [(Catalog.create?_spec hcreate).1, hchosen]
          have hshows := Node.shows_of_load hload (create?_typeName hcreate ▸ typeName?_of_readEntry hentry)
            (hblank ▸ hid st.supply)
          have hadd : st.graph.addNode n = .ok g := hcame
          rw [addNode_eq_takeIn hadd]
          exact ⟨n, ⟨e.fields, hfields, hshows⟩, (Graph.addNode_parts hadd).2.1,
            hst.takeIn ((Node.load_kept hload).1.trans hblank) hadd s _⟩
        · rw [hwarned] at h
          simp [LoadReport.warn] at h

/-- **The nodes of a document that are read without a warning**, one for each entry. -/
theorem nodes_clean (hst : st.Direct) (js : List Json) (k : Nat)
    (h : ((js.zipIdx k).foldl (loadNodeBy c.registry) st).report.warnings = st.report.warnings) :
    ∃ ns, List.Forall₂ Shows js ns ∧
      ((js.zipIdx k).foldl (loadNodeBy c.registry) st).graph.nodes = st.graph.nodes ++ ns ∧
      ((js.zipIdx k).foldl (loadNodeBy c.registry) st).Direct := by
  induction js generalizing k st with
  | nil => exact ⟨[], .nil, (List.append_nil _).symm, hst⟩
  | cons j js ih =>
    rw [List.zipIdx_cons, List.foldl_cons] at h ⊢
    -- warnings are not taken back, so none has been given on the way
    obtain ⟨o, ws, -, hfirst⟩ :=
      loadNodeBy_accounts c.registry_regular.warnsOfFields st j k
    obtain ⟨os, ws', -, hrest⟩ :=
      nodes_accounts c.registry_regular.warnsOfFields js (k + 1) (loadNodeBy c.registry st (j, k))
    have hall := hrest.warnings
    rw [h, hfirst.warnings, List.append_assoc, List.self_eq_append_right,
      List.append_eq_nil_iff] at hall
    have hquiet := hfirst.warnings
    rw [hall.1, List.append_nil] at hquiet
    obtain ⟨n, hn, hnodes, hdirect⟩ := loadNodeBy_clean hst hquiet
    obtain ⟨ns, hns, hnodes', hdirect'⟩ := ih hdirect (k + 1) (h.trans hquiet.symm)
    exact ⟨n :: ns, .cons hn hns, by rw [hnodes', hnodes, List.append_assoc]; rfl, hdirect'⟩

theorem exists_of_gaps {α : Type} {os : List (Option α)} {k : Nat} (h : gaps os k = []) :
    ∃ xs : List α, os = xs.map some := by
  induction os generalizing k with
  | nil => exact ⟨[], rfl⟩
  | cons o os ih =>
    cases o with
    | none => cases h
    | some x =>
      obtain ⟨xs, rfl⟩ := ih (k := k + 1) h
      exact ⟨x :: xs, rfl⟩

/-- Entries that give rise to no warnings bring in something each. -/
theorem Accounts.clean {α : Type} {R : Json → α → Prop} {s : Subject} {js : List Json} {k : Nat}
    {os : List (Option α)} (h : Accounts R s js k os []) :
    List.Forall₂ R js os.reduceOption := by
  obtain ⟨xs, rfl⟩ := exists_of_gaps h.leftOut.symm
  have hrestored := List.forall₂_map_right_iff.mp h.restored
  rw [List.reduceOption, List.filterMap_map, Function.id_comp, List.filterMap_some]
  exact hrestored.imp fun j x hx => hx x rfl

/-! ## The name of the graph -/

/-- Reading the entry of a node leaves the name of the graph alone. -/
theorem loadNodeBy_name (r : Registry) (st : Loading) (entry : Json × Nat) :
    (loadNodeBy r st entry).graph.name = st.graph.name := by
  obtain ⟨j, index⟩ := entry
  cases hentry : readEntry j with
  | error fault => rw [loadNodeBy_of_error hentry, warn]
  | ok e =>
    rw [loadNodeBy_of_ok hentry, restoreNodeBy_eq]
    split
    · rfl
    · split
      · rfl
      · rename_i n _ _
        cases hadd : st.graph.addNode n with
        | error e => simp only [addNode, hadd, warn]
        | ok g =>
          simp only [addNode, hadd]
          split <;> exact (Graph.addNode_parts hadd).1

/-- Reading the entry of a link leaves the name of the graph alone. -/
theorem loadLink_name (st : Loading) (entry : Json × Nat) :
    (loadLink st entry).graph.name = st.graph.name := by
  simp only [loadLink]
  split
  · rfl
  · split
    · rfl
    · split
      · rfl
      · rename_i hlink
        obtain ⟨-, -, -, -, -, -, -, -, -, rfl, -⟩ := Graph.link_spec hlink
        rfl

theorem foldl_name {step : Loading → Json × Nat → Loading}
    (hstep : ∀ st entry, (step st entry).graph.name = st.graph.name) (entries : List (Json × Nat))
    (st : Loading) : (entries.foldl step st).graph.name = st.graph.name :=
  List.foldlRecOn (motive := fun st' : Loading => st'.graph.name = st.graph.name) entries step rfl
    fun st' hst' entry _ => (hstep st' entry).trans hst'

end Loading

/-! ## Documents -/

/-- The link joins the pins that its entry names. -/
def Graph.JoinsNamed (g : Graph) (j : Json) (l : Link) : Prop :=
  ∃ e, Loading.linkEntry? j = some e ∧ l.fromNode = e.fromNode ∧ l.toNode = e.toNode ∧
    (g.findPin? e.fromNode .output e.fromPin).map Pin.id = some l.fromPin ∧
    (g.findPin? e.toNode .input e.toPin).map Pin.id = some l.toPin

/-- What the two lists of a document say is in the graph, entry by entry, and nothing else is. -/
structure Graph.Reflects (g : Graph) (doc : Json) : Prop where
  version : ∃ version, (doc.field? "version").bind (Json.natBelow? 64) = some version ∧
    version ≤ formatVersion
  nodeList : ∀ j, doc.field? "nodes" = some j → j = .array (doc.listed "nodes")
  linkList : ∀ j, doc.field? "links" = some j → j = .array (doc.listed "links")
  nodes : List.Forall₂ Loading.Shows (doc.listed "nodes") g.nodes
  links : List.Forall₂ g.JoinsNamed (doc.listed "links") g.links

namespace Graph

/-- A pin that is found by its name is one of the node. -/
theorem findPin?_some {g : Graph} {n : NodeId} {d : Direction} {name : String} {p : Pin}
    (h : g.findPin? n d name = some p) : ∃ m ∈ g.nodes, m.id = n ∧ p ∈ m.pins := by
  obtain ⟨m, hm, hp⟩ := Option.bind_eq_some_iff.mp h
  obtain ⟨hmem, hid⟩ := node?_some hm
  have hside : p ∈ m.body.side d := List.mem_of_find?_eq_some hp
  refine ⟨m, hmem, hid, List.mem_append.mpr ?_⟩
  cases d with
  | input => exact .inl hside
  | output => exact .inr hside

/-- **The entry of a link that has come in** names the pins that the link joins, if identities lead to the
nodes that have them. -/
theorem joinsNamed_of_direct {st : Loading} (hg : st.graph.WellFormed) (hst : st.Direct) {j : Json}
    {l : Link} (hl : l ∈ st.graph.links) (h : st.Joins j l) : st.graph.JoinsNamed j l := by
  obtain ⟨e, hentry, hends⟩ := h
  obtain ⟨a, b, p, q, hj⟩ := hg.joins l hl
  have hself : ∀ {d i : NodeId}, st.loaded.get? d = some i → i = d := fun {d i} h => by
    rw [hst d] at h
    split_ifs at h
    exact (Option.some.inj h).symm
  rw [Loading.linkEnds] at hends
  split at hends
  · cases hends
  · rename_i m hfrom
    obtain rfl := hself hfrom
    split at hends
    · cases hends
    · rename_i n hto
      obtain rfl := hself hto
      split at hends
      · cases hends
      · rename_i source hsource
        split at hends
        · cases hends
        · rename_i target htarget
          simp only [Except.ok.injEq, Prod.mk.injEq] at hends
          obtain ⟨hpin, hpin'⟩ := hends
          obtain ⟨a', ha', haid, hp'⟩ := findPin?_some hsource
          obtain ⟨b', hb', hbid, hq'⟩ := findPin?_some htarget
          obtain ⟨rfl, rfl⟩ := hg.eq_of_pin ha' hj.source hp' hj.owns_source
            (hpin.trans hj.fromPin)
          obtain ⟨rfl, rfl⟩ := hg.eq_of_pin hb' hj.target hq' hj.owns_target
            (hpin'.trans hj.toPin)
          exact ⟨e, hentry, hj.fromNode.trans haid, hj.toNode.trans hbid,
            by rw [hsource, Option.map_some, hpin], by rw [htarget, Option.map_some, hpin']⟩

/-- A list that is read without a warning is one, if it is there. -/
theorem array_of_entries {doc : Json} {root : Fields} (hroot : doc.fields? = some root) {key : String}
    (h : (Loading.entries root key).2 = []) :
    ∀ j, doc.field? key = some j → j = .array (doc.listed key) := by
  intro j hj
  have hget : root.get? key = some j := by rw [← hj, Json.field?, hroot, Option.bind_some]
  rw [Json.listed, hj]
  cases j with
  | array items => rfl
  | _ => simp [Loading.entries, hget] at h

/-- A version that is read without a warning is a known one. -/
theorem version_of_checkFormat {doc : Json} {root : Fields} (hroot : doc.fields? = some root)
    (h : checkFormat root = .ok []) :
    ∃ version, (doc.field? "version").bind (Json.natBelow? 64) = some version ∧
      version ≤ formatVersion := by
  rw [Json.field?, hroot, Option.bind_some]
  cases hget : root.get? "version" with
  | none => simp [checkFormat, hget] at h
  | some j =>
    cases hj : j.natBelow? 64 with
    | none => simp [checkFormat, hget, hj] at h
    | some version =>
      refine ⟨version, hj, Nat.le_of_not_lt fun hnewer => ?_⟩
      simp [checkFormat, hget, hj, hnewer] at h

variable {c : Catalog} {s : Supply} {doc : Json} {st : Loading}

/-- A graph that is loaded has the name that the document gives it, or is called `Untitled`. -/
theorem load_name (h : Graph.load c s doc = .ok st) : st.graph.name = documentName doc := by
  simp only [load, loadBy, mergeBy] at h
  split at h
  · cases h
  · split at h
    · cases h
    · obtain rfl := Except.ok.inj h
      rw [Loading.foldl_name Loading.loadLink_name, Loading.foldl_name (Loading.loadNodeBy_name _)]
      rfl

/-- **A clean report leaves nothing out of the two lists.** -/
theorem load_reflects (h : Graph.load c s doc = .ok st) (hg : st.graph.WellFormed)
    (hclean : st.report.warnings = []) : st.graph.Reflects doc := by
  simp only [load, loadBy, mergeBy] at h
  cases hroot : doc.fields? with
  | none => simp [hroot] at h
  | some root =>
    obtain ⟨bad, -, hnodeList⟩ := Loading.entries_eq hroot "nodes"
    obtain ⟨bad', -, hlinkList⟩ := Loading.entries_eq hroot "links"
    cases hformat : checkFormat root with
    | error e => simp [hroot, hformat] at h
    | ok ws =>
      simp only [hroot, hformat, hnodeList, hlinkList] at h
      set start : Loading := ⟨empty (documentName doc), s, [], (LoadReport.empty.warn ws).warn bad⟩
      set read := (doc.listed "nodes").zipIdx.foldl (Loading.loadNodeBy c.registry) start
      obtain ⟨ns, ws₁, -, hin⟩ :=
        Loading.nodes_accounts c.registry_regular.warnsOfFields (doc.listed "nodes") 0 start
      obtain ⟨ls, ws₂, hlinks, hin'⟩ := Loading.links_accounts (doc.listed "links") 0
        ⟨read.graph, read.supply, read.loaded, read.report.warn bad'⟩
      rw [Except.ok.inj h] at hin'
      have hall : ws ++ bad ++ ws₁ ++ bad' ++ ws₂ = [] := by
        have hread : read.report.warnings = ws ++ bad ++ ws₁ := hin.warnings
        rw [← hclean, hin'.warnings, LoadReport.warn, hread]
      simp only [List.append_eq_nil_iff] at hall
      obtain ⟨⟨⟨⟨rfl, rfl⟩, rfl⟩, rfl⟩, rfl⟩ := hall
      have hstart : start.Direct := fun d => rfl
      obtain ⟨ns', hnodes, hcame, hdirect⟩ := Loading.nodes_clean hstart (doc.listed "nodes") 0
        (hin.warnings.trans (List.append_nil _))
      have hloaded := Loading.foldl_loadLink_loaded (doc.listed "links").zipIdx
        ⟨read.graph, read.supply, read.loaded, read.report.warn []⟩
      have hsame := hin'.nodes
      rw [List.append_nil] at hsame
      rw [Except.ok.inj h] at hloaded
      have hdirect' : st.Direct := fun d => by
        rw [hloaded, Graph.nodeIds, hsame]
        exact hdirect d
      refine ⟨version_of_checkFormat hroot hformat, array_of_entries hroot (by rw [hnodeList]),
        array_of_entries hroot (by rw [hlinkList]), ?_, ?_⟩
      · rw [hsame, hcame]
        exact hnodes
      · have hlinked : st.graph.links = ls.reduceOption := by
          have hbefore : read.graph.links = [] := hin.links
          rw [hin'.links, hbefore, List.nil_append]
        have hjoins := Loading.joins_congr hloaded hsame
        have hpaired := hjoins ▸ hlinks.clean
        rw [← hlinked, List.forall₂_iff_zip] at hpaired
        rw [List.forall₂_iff_zip]
        exact ⟨hpaired.1, fun {j l} hjl => joinsNamed_of_direct hg hdirect' (List.of_mem_zip hjl).2
          (hpaired.2 hjl)⟩

/-- **What a clean load has restored**: everything that the two lists of the document say, and the name of
the graph exactly if the document gives it as a text. Any other name is passed over, and the graph is
called `Untitled`, as it is if no name is given. -/
theorem load_clean (h : Graph.load c s doc = .ok st)
    (hs : ∀ i j, s.next ≤ i → i < j → j < st.supply.next → s.draw i ≠ s.draw j)
    (hclean : st.report.isClean = true) : st.graph.Reflects doc ∧
      ((∀ j, doc.field? "name" = some j → j = .string st.graph.name) ↔
        ∀ j, doc.field? "name" = some j → ∃ text, j = .string text) ∧
      ((∀ text, doc.field? "name" ≠ some (.string text)) → st.graph.name = "Untitled") := by
  have hg : st.graph.WellFormed := (merge_healthy (healthy_empty _ hs) h).wellFormed le_rfl
  refine ⟨load_reflects h hg (List.isEmpty_iff.mp hclean), ?_, fun htext => ?_⟩
  · refine ⟨fun hname j hj => ⟨_, hname j hj⟩, fun htext j hj => ?_⟩
    obtain ⟨text, rfl⟩ := htext j hj
    rw [load_name h, documentName, hj]
    rfl
  · rw [load_name h, documentName]
    cases hname : doc.field? "name" with
    | none => rfl
    | some j =>
      cases j with
      | string text => exact absurd hname (htext text)
      | _ => rfl

/-- A document with a constant that a transition takes. -/
def tidy : Json :=
  .ofFields
    [("version", .ofNat 1), ("name", .string "tidy"),
      ("nodes", .array
        [exampleEntry "Float" 5 [("name", .string "Half"), ("value", .number (.double 0.5))],
          exampleEntry "Move Transform" 6 [("position", .array [.ofNat 3, .ofNat 4]),
            ("move_type", .ofNat 1)]]),
      ("links", .array [Loading.LinkEntry.toJson ⟨⟨.ofNat 5⟩, "Out", ⟨.ofNat 6⟩, "Pos"⟩])]

/-- All of the document is restored. -/
theorem tidy_reflected : ∃ st, Graph.load .builtin (.countingFrom 100) tidy = .ok st ∧
    st.report.isClean = true ∧ st.graph.Reflects tidy ∧ st.graph.name = "tidy" := by
  have hloads : (Graph.load .builtin (.countingFrom 100) tidy).toOption.map
      (fun st => (st.supply.next, st.report.isClean)) = some (8, true) := by decide +kernel
  cases hload : Graph.load .builtin (.countingFrom 100) tidy with
  | error e => simp [hload, Except.toOption] at hloads
  | ok st =>
    rw [hload] at hloads
    obtain ⟨hnext, hclean⟩ := Prod.mk.inj (Option.some.inj hloads)
    obtain ⟨hreflects, hname, -⟩ := load_clean hload
      (fun i j _ hij hj => Supply.countingFrom_distinct hij (by omega)) hclean
    have htext : tidy.field? "name" = some (.string "tidy") := rfl
    have hnamed := hname.mpr (fun j hj => ⟨"tidy", Option.some.inj (hj.symm.trans htext)⟩) _ htext
    exact ⟨st, rfl, hclean, hreflects, (Json.string.inj hnamed).symm⟩

/-- A document whose name is a number. -/
def misnamed : Json :=
  .ofFields
    [("version", .ofNat 1), ("name", .ofNat 5), ("nodes", .array []), ("links", .array [])]

/-- That document is loaded without a warning, but its name is lost. -/
theorem misnamed_clean : ∃ st, Graph.load .builtin (.countingFrom 100) misnamed = .ok st ∧
    st.report.isClean = true ∧ misnamed.field? "name" = some (.ofNat 5) ∧
    st.graph.name = "Untitled" := by
  have hloads : (Graph.load .builtin (.countingFrom 100) misnamed).toOption.map
      (fun st => (st.report.isClean, st.graph.name)) = some (true, "Untitled") := by decide +kernel
  cases hload : Graph.load .builtin (.countingFrom 100) misnamed with
  | error e => simp [hload, Except.toOption] at hloads
  | ok st =>
    rw [hload] at hloads
    obtain ⟨hclean, hname⟩ := Prod.mk.inj (Option.some.inj hloads)
    exact ⟨st, rfl, hclean, rfl, hname⟩

end Graph

end Patchbay
