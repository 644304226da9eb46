import Patchbay.Proofs.Document.Entries
import Patchbay.Proofs.Document.RoundTrip

/-!
# What documents do not keep

A document has no place for a number that is not finite. A setting with such a number is lost when its node
is saved: what reads the document is a new node, which leaves its own setting as it is and reports the
field. `Node.kept` is the node as it comes back, and `Node.lost` says which fields are reported.

**`Graph.load_save_kept`** says that there is nothing else to it: a graph is read from its document as if
its nodes were as they come back, with the losses in front of all other warnings. Since what comes back
can be kept, that document is read back without any.
-/

namespace Patchbay

/-! ## Nodes as they come back -/

/-- Where a node comes back that was saved at this place. -/
def Point.kept (p : Point) : Point := if p.x.isFinite && p.y.isFinite then p else .zero

/-- The body as it comes back from its document: numbers that are not finite are as in a new node. -/
def Body.kept : Body → Body
  | .constant out value => .constant out (if value.isFinite then value else 0)
  | .picture out s =>
    .picture out { s with fill := if s.fill.isFinite then s.fill else Picture.standard.fill }
  | b => b

/-- The node as it comes back from its document. -/
def Node.kept (n : Node) : Node := { n with position := n.position.kept, body := n.body.kept }

/-- The graph with its nodes as they come back from its document. -/
def Graph.kept (g : Graph) : Graph := { g with nodes := g.nodes.map Node.kept }

theorem Single.isFinite_zero : (0 : Float32).isFinite = true := by decide +kernel

theorem Single.isFinite_one : (1 : Float32).isFinite = true := by decide +kernel

/-- What comes back of a body can be kept. -/
theorem Body.kept_storable {b : Body} (h : b.Sized) : b.kept.Storable := by
  cases b with
  | constant out value =>
    show (if value.isFinite then value else 0).isFinite = true
    split_ifs with hfinite
    · exact hfinite
    · exact Single.isFinite_zero
  | picture out s =>
    refine ⟨?_, h⟩
    show (if s.fill.isFinite then s.fill else Picture.standard.fill).isFinite = true
    split_ifs with hfinite
    · exact hfinite
    · exact Single.isFinite_one
  | _ => trivial

theorem Point.isFinite_kept (p : Point) : p.kept.x.isFinite = true ∧ p.kept.y.isFinite = true := by
  rw [kept]
  split_ifs with hfinite
  · exact Bool.and_eq_true_iff.mp hfinite
  · exact ⟨Single.isFinite_zero, Single.isFinite_zero⟩

/-- What comes back can be kept. -/
theorem Node.kept_storable {n : Node} (h : n.body.Sized) : n.kept.Storable :=
  ⟨n.position.isFinite_kept.1, n.position.isFinite_kept.2, Body.kept_storable h⟩

/-- A body that can be kept comes back as it was. -/
theorem Body.kept_eq_self {b : Body} (h : b.Storable) : b.kept = b := by
  cases b with
  | constant out value =>
    have hvalue : value.isFinite = true := h
    rw [kept, if_pos hvalue]
  | picture out s => rw [kept, if_pos h.1]
  | _ => rfl

/-- A node that can be kept comes back as it was. -/
theorem Node.kept_eq_self {n : Node} (h : n.Storable) : n.kept = n := by
  have hposition : n.position.kept = n.position := if_pos (Bool.and_eq_true_iff.mpr ⟨h.x, h.y⟩)
  rw [kept, hposition, Body.kept_eq_self h.body]

theorem Node.kept_pins (n : Node) : n.kept.pins = n.pins := by
  obtain ⟨_, _, _, _, body⟩ := n
  cases body <;> rfl

theorem Node.kept_nodeClass (n : Node) : n.kept.body.nodeClass = n.body.nodeClass := by
  obtain ⟨_, _, _, _, body⟩ := n
  cases body <;> rfl

theorem Node.kept_info (n : Node) : n.kept.info = n.info := by
  obtain ⟨_, _, _, _, body⟩ := n
  cases body <;> rfl

theorem Node.kept_isBuiltin (n : Node) : n.kept.body.isBuiltin = n.body.isBuiltin := by
  obtain ⟨_, _, _, _, body⟩ := n
  cases body <;> rfl

namespace Graph

variable {g : Graph}

theorem WellFormed.kept (hg : g.WellFormed) : g.kept.WellFormed :=
  hg.mapNodes (fun _ => rfl) Node.kept_pins

theorem kept_isBuiltin (hb : g.IsBuiltin) : g.kept.IsBuiltin :=
  List.forall_mem_map.mpr fun n hn => n.kept_isBuiltin.trans (hb n hn)

theorem kept_pins (g : Graph) : g.kept.pins = g.pins := by
  simp only [pins, Graph.kept, List.flatMap_map, Node.kept_pins]

theorem kept_nodeIds (g : Graph) : g.kept.nodeIds = g.nodeIds := List.map_map ..

theorem kept_pin? (g : Graph) (i : PinId) : g.kept.pin? i = g.pin? i := by
  have hnode : ∀ n, g.kept.node? n = (g.node? n).map Node.kept := fun n => List.find?_map ..
  have howner : g.kept.owner? i = g.owner? i := rfl
  rw [pin?, pin?, howner]
  refine congrArg _ (funext fun n => ?_)
  rw [hnode]
  cases g.node? n with
  | none => rfl
  | some m => exact congrArg (List.find? fun p => p.id == i) m.kept_pins

/-- Links by the names of their pins have nothing to do with settings. -/
theorem kept_entryOf? (g : Graph) : g.kept.entryOf? = g.entryOf? := by
  funext l
  simp only [entryOf?, kept_pin?]

theorem kept_saveLink? (g : Graph) (remap : Remap) : g.kept.saveLink? remap = g.saveLink? remap := by
  funext l
  rw [saveLink?_eq, saveLink?_eq, kept_entryOf?]

end Graph

/-! ## Reading nodes -/

/-- A number that is not finite is as in a new body. -/
theorem Body.applyAll_finite {b : Body} {k : Builtin} (hclass : b.nodeClass = .builtin k)
    {m : Node} {s : Supply} (hm : m.body = (NodeType.makeBuiltin k s).1) :
    m.applyAll (b.settings.filter NodeChange.isFinite) = m.applyAll b.kept.settings := by
  obtain ⟨_, _, _, _, body⟩ := m
  obtain rfl : body = _ := hm
  cases b with
  | constant out value =>
    cases hclass
    rw [kept, settings, settings, List.filter_cons, NodeChange.isFinite, List.filter_nil]
    cases value.isFinite <;> rfl
  | picture out p =>
    cases hclass
    simp only [kept, settings, List.filter_cons, NodeChange.isFinite, List.filter_nil, if_true]
    cases p.fill.isFinite <;> rfl
  | _ => rfl

/-- **What comes back**: a new node that makes those settings of a node that are finite makes the settings
of the node as it comes back, as far as a new node does not have them already. -/
theorem Node.applyAll_finite {n : Node} {k : Builtin} (hclass : n.body.nodeClass = .builtin k)
    (id : NodeId) (s : Supply) :
    ((NodeType.builtin k).create id s).1.applyAll (n.settings.filter NodeChange.isFinite) =
      ((NodeType.builtin k).create id s).1.applyAll n.kept.settings := by
  set m := ((NodeType.builtin k).create id s).1 with hm
  have hcommon : m.applyAll ([.name n.name, .position n.position, .enabled n.enabled].filter
      NodeChange.isFinite) = { m with name := n.name, position := n.position.kept, enabled := n.enabled } := by
    simp only [List.filter_cons, NodeChange.isFinite, List.filter_nil, if_true, Point.kept]
    cases n.position.x.isFinite && n.position.y.isFinite <;> rfl
  have hsplit : ∀ cs ds, m.applyAll (cs ++ ds) = (m.applyAll cs).applyAll ds :=
    fun cs ds => List.foldl_append
  rw [settings, settings, List.filter_append, hsplit, hsplit, hcommon]
  exact Body.applyAll_finite hclass rfl

/-- A new node makes of the document of a node what it makes of the document of the node as it comes back,
and reports the losses. -/
theorem Node.load_save_kept {n : Node} (hn : n.body.Sized) {k : Builtin}
    (hclass : n.body.nodeClass = .builtin k) (remap : Remap) (id : NodeId) (s : Supply) :
    ∃ m, ((NodeType.builtin k).create id s).1.load (Fields.ofList (n.savedFields remap)) =
        .ok (m, n.lost.map (.ofField id)) ∧
      ((NodeType.builtin k).create id s).1.load (Fields.ofList (n.kept.savedFields remap)) =
        .ok (m, []) := by
  obtain ⟨hsized, hfinite⟩ := storable_iff.mp (kept_storable hn)
  have hbuiltin : n.body.isBuiltin = true := by
    cases hbody : n.body with
    | scripted => rw [hbody] at hclass; cases hclass
    | _ => rfl
  have hnew := NodeType.nodeClass_create k id s
  refine ⟨_, load_savedFields hn hbuiltin (hnew.trans hclass.symm) remap, ?_⟩
  rw [load_savedFields hsized (n.kept_isBuiltin.trans hbuiltin)
    (hnew.trans (n.kept_nodeClass.trans hclass).symm) remap, (lost_eq_nil hsized).mpr hfinite,
    List.filter_eq_self.mpr hfinite, applyAll_finite hclass id s]
  rfl

namespace Loading

/-- The document of a node is read as an entry of its type that writes its identity. -/
theorem readEntry_save (n : Node) (remap : Remap) : readEntry (n.save remap) =
    .ok ⟨Fields.ofList (n.savedFields remap), n.info.name, some (remap.resolve n.id)⟩ := by
  simp only [readEntry, Node.save_eq, Json.ofFields, Json.fields?, Node.typeName?_savedFields,
    Node.nodeId?_savedFields]

/-- What has been read, with warnings that were given before. -/
def after (ws : List LoadWarning) (st : Loading) : Loading :=
  { st with report := { st.report with warnings := ws ++ st.report.warnings } }

variable {c : Catalog} {st : Loading}

/-- **A node is restored** as if it were as it comes back, and the losses are reported. -/
theorem loadNode_save_kept (hc : c.HasBuiltins) {n : Node} (hn : n.body.Sized)
    (hb : n.body.isBuiltin = true) (remap : Remap) (hclean : st.report.warnings = [])
    (hloaded : st.loaded.has (remap.resolve n.id) = false)
    (hfree : st.graph.hasNode (remap.resolve n.id) = false) (index : Nat) (ws : List LoadWarning) :
    loadNode c (st.after ws) (n.save remap, index) =
      (loadNode c st (n.kept.save remap, index)).after
        (ws ++ n.lost.map (.ofField (remap.resolve n.id))) := by
  obtain ⟨k, hclass, hinfo⟩ := Body.exists_builtin hb
  have hfind : c.find? n.info.name = some (.builtin k) := by
    rw [show n.info = k.info from hinfo, hc k]
  obtain ⟨m, hload, hkept⟩ := Node.load_save_kept hn hclass remap (remap.resolve n.id) st.supply
  have hread : readEntry (n.kept.save remap) =
      .ok ⟨Fields.ofList (n.kept.savedFields remap), n.info.name, some (remap.resolve n.id)⟩ := by
    rw [readEntry_save, n.kept_info]
    rfl
  rw [loadNode, loadNodeBy_of_ok (readEntry_save n remap), loadNodeBy_of_ok hread]
  simp only [NodeEntry.claim, restoreNodeBy, after, hloaded, identityFor, hfree, Bool.or_false,
    Bool.false_eq_true, if_false, Catalog.registry_of_find? hfind, NodeType.factory, hload, hkept,
    addNode]
  cases st.graph.addNode m with
  | error e => simp [warn, LoadReport.warn, hclean]
  | ok g => simp [LoadReport.warn, hclean]

/-- **All nodes are restored** as if they were as they come back, one after the other. -/
theorem NodesRestored.foldl_kept {k : Nat} {name : String} {remap : Remap} {s : Supply}
    (hc : c.HasBuiltins) (rest : List Node)
    (hrest : ∀ n ∈ rest, n.body.Sized ∧ n.body.isBuiltin = true) {ps : List (Node × Node)}
    (h : NodesRestored k name remap s ps st)
    (hids : ((ps.map Prod.fst ++ rest).map fun n => remap.resolve n.id).Nodup) (index : Nat)
    (ws : List LoadWarning) :
    ((rest.map fun n => n.save remap).zipIdx index).foldl (loadNode c) (st.after ws) =
      ((((rest.map Node.kept).map fun n => n.save remap).zipIdx index).foldl (loadNode c) st).after
        (ws ++ rest.flatMap fun n => n.lost.map (.ofField (remap.resolve n.id))) := by
  induction rest generalizing ps st index ws with
  | nil => simp
  | cons n rest ih =>
    obtain ⟨hn, hb⟩ := hrest n List.mem_cons_self
    have hnew := new_of_nodup hids
    obtain ⟨hloaded, hfree⟩ := h.free hnew
    have hkept := loadNode_save_kept hc hn hb remap (by rw [h.report]) hloaded hfree index ws
    obtain ⟨m, hm⟩ := h.step hc (Node.kept_storable hn) (n.kept_isBuiltin.trans hb)
      hnew index
    have hmap : ((ps ++ [(n.kept, m)]).map Prod.fst ++ rest).map (fun n => remap.resolve n.id) =
        (ps.map Prod.fst ++ n :: rest).map fun n => remap.resolve n.id := by
      simp [Node.kept]
    simp only [List.map_cons, List.zipIdx_cons, List.foldl_cons, hkept]
    rw [ih (fun a ha => hrest a (List.mem_cons_of_mem _ ha)) hm (hmap ▸ hids), List.flatMap_cons,
      List.append_assoc]

/-- A link is made whatever has been reported. -/
theorem loadLink_after (ws : List LoadWarning) (entry : Json × Nat) :
    loadLink (st.after ws) entry = (loadLink st entry).after ws := by
  have hends : ∀ e, (st.after ws).linkEnds e = st.linkEnds e := fun _ => rfl
  simp only [loadLink, hends]
  cases linkEntry? entry.1 with
  | none => simp [after, warn, LoadReport.warn]
  | some e =>
    simp only
    cases st.linkEnds e with
    | error missing => simp [after, warn, LoadReport.warn]
    | ok ends =>
      simp only [after]
      cases st.graph.link st.supply.takeLink.1 ends.1 ends.2 <;> simp [warn, LoadReport.warn]

/-- All links are made whatever has been reported. -/
theorem foldl_loadLink_after (ws : List LoadWarning) (entries : List (Json × Nat)) :
    entries.foldl loadLink (st.after ws) = (entries.foldl loadLink st).after ws := by
  induction entries generalizing st with
  | nil => rfl
  | cons entry entries ih => rw [List.foldl_cons, loadLink_after, ih, List.foldl_cons]

end Loading

/-! ## Graphs -/

namespace Graph

/-- What the document of a graph does not keep, as it is reported. -/
def lost (g : Graph) (remap : Remap) : List LoadWarning :=
  g.nodes.flatMap fun n => n.lost.map (.ofField (remap.resolve n.id))

/-- Under a renaming that keeps nodes apart no identity is written twice. -/
theorem WellFormed.resolve_nodup {g : Graph} (hg : g.WellFormed) {remap : Remap}
    (hinj : Set.InjOn remap.resolve {n | n ∈ g.nodeIds}) :
    (g.nodes.map fun n => remap.resolve n.id).Nodup := by
  have hnd := hg.nodes_nodup.map_on fun a ha b hb heq => hinj ha hb heq
  rwa [nodeIds, List.map_map] at hnd

/-- Reading begins with no nodes. -/
theorem nodesRestored_empty {n : Nat} {s : Supply} (name : String) (remap : Remap)
    (hs : ∀ i j, s.next ≤ i → i < j → j < n → s.draw i ≠ s.draw j) :
    Loading.NodesRestored n name remap s [] ⟨Graph.empty name, s, [], .empty⟩ :=
  ⟨rfl, rfl, rfl, by simp, by simp, fun _ => rfl, rfl, rfl, healthy_empty name hs⟩

section Reading

variable {g : Graph} (hg : g.WellFormed) (hb : g.IsBuiltin) {c : Catalog} (hc : c.HasBuiltins)
  {s : Supply} (hs : ∀ i j, s.next ≤ i → i < j → j < s.next + g.pins.length → s.draw i ≠ s.draw j)
include hg hb hc hs

/-- A graph that can be kept is read back as a copy of it beside nothing, and the report is clean. -/
theorem load_save_storable {remap : Remap} (hstorable : ∀ n ∈ g.nodes, n.Storable)
    (hinj : Set.InjOn remap.resolve {n | n ∈ g.nodeIds}) :
    ∃ st ps ks, Graph.load c s (g.save remap) = .ok st ∧
      Beside (Graph.empty g.name) g st.graph ps ks ∧ (∀ a ∈ ps, a.2.id = remap.resolve a.1.id) ∧
      st.report = ⟨[], [], st.graph.nodeIds, g.links.length⟩ := by
  have hstart := nodesRestored_empty g.name remap hs
  obtain ⟨ps, hps, hnodes⟩ := hstart.run hc g.nodes (fun n hn => ⟨hstorable n hn, hb n hn⟩)
    (hg.resolve_nodup hinj) 0
  rw [List.map_nil, List.nil_append] at hps
  have hspent := hnodes.supply
  rw [← List.flatMap_map, hps] at hspent
  have hwf := hnodes.healthy.wellFormed (by rw [hspent]; exact Nat.le_refl _)
  have hnone : Beside (Graph.empty g.name) { g with links := [] } _ ps [] := {
    wellFormed_host := wellFormed_empty g.name
    wellFormed := hg.restrict (List.nil_sublist _)
    wellFormed' := hwf
    name := hnodes.name
    nodes := hps.symm
    nodes' := hnodes.nodes
    links := rfl
    links' := hnodes.links
    alike := hnodes.alike
    linked := List.forall_mem_nil _ }
  have hlinks := Loading.LinksRestored.run hg hb hnodes.ids g.links (List.Sublist.refl _)
    ⟨⟨[], hnone⟩, hnodes.loaded, hnodes.report⟩ 0
  obtain ⟨ks, hcopy⟩ := hlinks.copied
  exact ⟨_, ps, ks, load_save_eq g remap c s, hcopy, hnodes.ids, hlinks.report⟩

/-- **A graph is read back** as a copy of what its document keeps, and the losses are reported. -/
theorem load_save_beside {remap : Remap} (hsized : ∀ n ∈ g.nodes, n.body.Sized)
    (hinj : Set.InjOn remap.resolve {n | n ∈ g.nodeIds}) :
    ∃ st ps ks, Graph.load c s (g.save remap) = .ok st ∧
      Beside (Graph.empty g.name) g.kept st.graph ps ks ∧ (∀ a ∈ ps, a.2.id = remap.resolve a.1.id) ∧
      st.report = ⟨g.lost remap, [], st.graph.nodeIds, g.links.length⟩ := by
  obtain ⟨st, ps, ks, hload, hcopy, hids, hreport⟩ := load_save_storable hg.kept (kept_isBuiltin hb) hc
    (by rwa [kept_pins]) (List.forall_mem_map.mpr fun n hn => Node.kept_storable (hsized n hn))
    (by rwa [kept_nodeIds])
  have hnodes := (nodesRestored_empty g.name remap hs).foldl_kept hc g.nodes
    (fun n hn => ⟨hsized n hn, hb n hn⟩) (hg.resolve_nodup hinj) 0 []
  refine ⟨st.after (g.lost remap), ps, ks, ?_, hcopy, hids, ?_⟩
  · rw [load_save_eq, kept_saveLink?] at hload
    rw [load_save_eq, ← Except.ok.inj hload, lost, ← Loading.foldl_loadLink_after]
    exact congrArg (fun st => Except.ok (List.foldl Loading.loadLink st _)) hnodes
  · rw [Loading.after, hreport, List.append_nil]
    rfl

end Reading

end Graph

end Patchbay
