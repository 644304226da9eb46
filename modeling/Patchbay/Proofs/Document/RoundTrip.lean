import Patchbay.Proofs.Document.Loading
import Patchbay.Proofs.Document.NodeRoundTrip
import Patchbay.Proofs.Graph.Beside
import Patchbay.Proofs.Run.Once
import Patchbay.Proofs.Uuid

/-!
# Graphs are restored from their own documents

A saved graph of built-in nodes is read back without a warning, and what comes in is a copy of it
(`Graph.load_save_copy`): the same nodes in the same order under the identities that the document
gives them, and the same links in the same order, said by nodes and pin names. The pins have new
identities, so links can only be told by the names of their pins, and a built-in node finds each of
its pins by its name.

The document may rename the nodes, as long as it does not give two of them one identity. The other
thing that is asked for is that the identities drawn for the pins differ.

The proof follows the reading. `Loading.NodesRestored` is what holds while the nodes come in,
`Loading.LinksRestored` while the links do, and each has a lemma for one entry and one for all of
them.
-/

namespace Patchbay

open Loading (LinkEntry)

/-- The catalog has the built-in types under their names. -/
def Catalog.HasBuiltins (c : Catalog) : Prop :=
  ∀ b : Builtin, c.find? b.info.name = some (.builtin b)

theorem Catalog.hasBuiltins_builtin : Catalog.builtin.HasBuiltins := fun b => by
  cases b <;> rfl

/-! ## Links -/

namespace Loading

/-- The ends of a link as a document has them. -/
def LinkEntry.toJson (e : LinkEntry) : Json :=
  .ofFields
    [("from_node", .string e.fromNode.toText), ("from_pin", .string e.fromPin),
      ("to_node", .string e.toNode.toText), ("to_pin", .string e.toPin)]

/-- The ends of a link are read as they were written. -/
theorem linkEntry?_toJson (e : LinkEntry) : linkEntry? e.toJson = some e := by
  have hfield : ∀ {k v}, (k, v) ∈ [("from_node", Json.string e.fromNode.toText),
      ("from_pin", .string e.fromPin), ("to_node", .string e.toNode.toText),
      ("to_pin", .string e.toPin)] → e.toJson.field? k = some v := fun hmem =>
    Fields.get?_ofList (by simp) hmem
  have hfromNode := hfield (.head _)
  have hfromPin := hfield (.tail _ (.head _))
  have htoNode := hfield (.tail _ (.tail _ (.head _)))
  have htoPin := hfield (.tail _ (.tail _ (.tail _ (.head _))))
  simp [ linkEntry?, hfromNode, hfromPin, htoNode, htoPin, Json.string?, NodeId.toText,
    Uuid.ofText?_toText]

end Loading

/-- A document has a link by its ends. -/
theorem Graph.saveLink?_eq (g : Graph) (remap : Remap) (l : Link) :
    g.saveLink? remap l = (g.entryOf? l).map fun e => (e.rename remap.resolve).toJson := by
  cases hp : g.pin? l.fromPin with
  | none => simp [saveLink?, entryOf?, hp]
  | some p =>
    cases hq : g.pin? l.toPin with
    | none => simp [saveLink?, entryOf?, hp, hq]
    | some q => simp [saveLink?, entryOf?, hp, hq, LinkEntry.toJson, LinkEntry.rename]

/-! ## Nodes -/

/-- Every pin of a built-in node is found by its direction and name. -/
theorem Node.findPin?_of_mem {n : Node} (hn : n.body.isBuiltin = true) {p : Pin} (hp : p ∈ n.pins) :
    n.findPin? p.direction p.name = some p := by
  obtain ⟨_, _, _, _, body⟩ := n
  cases body with
  | scripted => cases hn
  | _ =>
    simp only [pins, inputs, outputs, Body.inputs, Body.outputs, List.nil_append, List.cons_append,
      List.append_nil, List.mem_cons, List.not_mem_nil, or_false] at hp
    rcases hp with rfl | rfl | rfl | rfl | rfl | rfl <;> rfl

/-- A node reads its identity from its document. -/
theorem Node.nodeId?_savedFields (n : Node) (remap : Remap) :
    (Fields.ofList (n.savedFields remap)).nodeId? = some (.ok (remap.resolve n.id)) := by
  rw [Fields.nodeId?, get?_savedFields (v := .string (remap.resolve n.id).toText)
    (by simp [savedFields])]
  simp [Json.string?, NodeId.toText, Uuid.ofText?_toText]

/-- A built-in node has the type of its kind. -/
theorem Body.exists_builtin {b : Body} (hb : b.isBuiltin = true) :
    ∃ k : Builtin, b.nodeClass = .builtin k ∧ b.info = k.info := by
  cases b with
  | scripted => cases hb
  | _ => exact ⟨_, rfl, rfl⟩

/-- A new node of a built-in type is of that kind. -/
theorem NodeType.nodeClass_create (k : Builtin) (id : NodeId) (s : Supply) :
    ((NodeType.builtin k).create id s).1.body.nodeClass = .builtin k := by
  cases k <;> rfl

namespace Loading

/-- The document of a node is restored under the identity that it has there, if that is free: what
comes in is like the node, its pins are new, and nothing is reported. -/
theorem loadNode_save {c : Catalog} (hc : c.HasBuiltins) {n : Node} (hn : n.Storable)
    (hb : n.body.isBuiltin = true) (remap : Remap) {st : Loading}
    (hloaded : st.loaded.has (remap.resolve n.id) = false)
    (hfree : st.graph.hasNode (remap.resolve n.id) = false) (index : Nat) :
    ∃ m g s, m.id = remap.resolve n.id ∧ m.blank = n.blank ∧ m.DrawnFrom st.supply s ∧
      st.graph.addNode m = .ok g ∧
      loadNode c st (n.save remap, index) =
        ⟨g, s, st.loaded.set m.id m.id, { st.report with nodes := st.report.nodes ++ [m.id] }⟩ := by
  obtain ⟨k, hclass, hinfo⟩ := Body.exists_builtin hb
  rcases hmade : (NodeType.builtin k).create (remap.resolve n.id) st.supply with ⟨m₀, s⟩
  have hclass₀ : m₀.body.nodeClass = n.body.nodeClass := by
    have hkind := NodeType.nodeClass_create k (remap.resolve n.id) st.supply
    rw [hmade] at hkind
    rw [hkind, hclass]
  have hfind : c.find? n.info.name = some (.builtin k) := by
    rw [show n.info = k.info from hinfo, hc k]
  have hcreate := hmade ▸ Catalog.create?_of_find? hfind (remap.resolve n.id) st.supply
  obtain ⟨hid₀, d, hpins₀, hs⟩ := Catalog.create?_spec hcreate
  obtain ⟨m, hload, hid, hblank⟩ := Node.load_save hn hb hclass₀ remap
  have hid : m.id = remap.resolve n.id := hid.trans hid₀
  have hpins : m.pins.map Pin.id = st.supply.pinIds d := by rw [(Node.load_kept hload).2, hpins₀]
  obtain ⟨g, hadd⟩ : ∃ g, st.graph.addNode m = .ok g :=
    Graph.addNode_isOk (by rw [← Graph.hasNode_iff, hid, hfree]; exact Bool.false_ne_true)
  refine ⟨m, g, s, hid, hblank, ⟨d, hpins, hs⟩, hadd, ?_⟩
  simp only [loadNode, loadNodeBy, Node.save_eq, Json.ofFields, Json.fields?,
    Node.typeName?_savedFields, entryId, Node.nodeId?_savedFields, restoreNodeBy, hloaded, identityFor,
    hfree, Bool.or_false, Bool.false_eq_true, if_false, Catalog.registry_of_find? hfind,
    NodeType.factory, hmade, hload, addNode, hadd, LoadReport.warn, hid, if_true, List.append_nil]

/-- The nodes `ps` of a graph have been restored, and nothing else has happened. -/
structure NodesRestored (n : Nat) (name : String) (remap : Remap) (s : Supply)
    (ps : List (Node × Node)) (st : Loading) : Prop where
  name : st.graph.name = name
  nodes : st.graph.nodes = ps.map Prod.snd
  links : st.graph.links = []
  /-- What was restored is like what was saved. -/
  alike : ∀ a ∈ ps, a.1.blank = a.2.blank
  ids : ∀ a ∈ ps, a.2.id = remap.resolve a.1.id
  loaded : ∀ i, st.loaded.get? i = if i ∈ st.graph.nodeIds then some i else none
  report : st.report = ⟨[], [], st.graph.nodeIds, 0⟩
  supply : st.supply = s.skip (ps.flatMap fun a => a.1.pins).length
  healthy : st.Healthy n

variable {k : Nat} {name : String} {remap : Remap} {s : Supply} {c : Catalog}

theorem NodesRestored.nodeIds {ps : List (Node × Node)} {st : Loading}
    (h : NodesRestored k name remap s ps st) :
    st.graph.nodeIds = ps.map fun a => remap.resolve a.1.id := by
  rw [Graph.nodeIds, h.nodes, List.map_map]
  exact List.map_congr_left h.ids

/-- An identity that none of the nodes has is free. -/
theorem NodesRestored.free {ps : List (Node × Node)} {st : Loading}
    (h : NodesRestored k name remap s ps st) {n : Node}
    (hnew : ∀ a ∈ ps, remap.resolve n.id ≠ remap.resolve a.1.id) :
    st.loaded.has (remap.resolve n.id) = false ∧ st.graph.hasNode (remap.resolve n.id) = false := by
  have habsent : remap.resolve n.id ∉ st.graph.nodeIds := by
    rw [h.nodeIds]
    rintro hmem
    obtain ⟨a, ha, heq⟩ := List.mem_map.mp hmem
    exact hnew a ha heq.symm
  constructor
  · rw [Table.has, h.loaded, if_neg habsent]
    rfl
  · rw [Bool.eq_false_iff, Ne, Graph.hasNode_iff]
    exact habsent

/-- One more node is restored. -/
theorem NodesRestored.step (hc : c.HasBuiltins) {ps : List (Node × Node)} {st : Loading}
    (h : NodesRestored k name remap s ps st) {n : Node} (hn : n.Storable)
    (hb : n.body.isBuiltin = true) (hnew : ∀ a ∈ ps, remap.resolve n.id ≠ remap.resolve a.1.id)
    (index : Nat) :
    ∃ m, NodesRestored k name remap s (ps ++ [(n, m)]) (loadNode c st (n.save remap, index)) := by
  obtain ⟨hloaded, hfree⟩ := h.free hnew
  obtain ⟨m, g, s', hid, hblank, hdrawn, hadd, hload⟩ :=
    loadNode_save hc hn hb remap hloaded hfree index
  have hhealthy := loadNode_healthy h.healthy c (n.save remap, index)
  rw [hload] at hhealthy ⊢
  obtain ⟨hname, hnodes, hlinks⟩ := Graph.addNode_parts hadd
  have hids : g.nodeIds = st.graph.nodeIds ++ [m.id] := by
    rw [Graph.nodeIds, hnodes, List.map_append]
    rfl
  refine ⟨m, hname.trans h.name, ?_, hlinks.trans h.links, ?_, ?_, fun i => ?_, ?_, ?_, hhealthy⟩
  · rw [hnodes, h.nodes, List.map_append]
    rfl
  · exact List.forall_mem_append.mpr ⟨h.alike, List.forall_mem_singleton.mpr hblank.symm⟩
  · exact List.forall_mem_append.mpr ⟨h.ids, List.forall_mem_singleton.mpr hid⟩
  · rw [Table.get?_set, h.loaded, hids]
    by_cases hi : m.id = i
    · simp [hi]
    · simp [hi, Ne.symm hi]
  · rw [h.report, hids]
  · obtain ⟨d, hd, rfl⟩ := hdrawn
    have hlen : d = n.pins.length := by
      have hm := congrArg List.length hd
      have hn := congrArg List.length (Node.pins_of_blank hblank)
      simp only [List.length_map, Supply.pinIds, List.length_range'] at hm hn
      omega
    simp [Supply.skip, h.supply, hlen, Nat.add_assoc]

/-- The next node has an identity of its own. -/
theorem new_of_nodup {ps : List (Node × Node)} {n : Node} {rest : List Node}
    (h : ((ps.map Prod.fst ++ n :: rest).map fun n => remap.resolve n.id).Nodup) :
    ∀ a ∈ ps, remap.resolve n.id ≠ remap.resolve a.1.id := by
  intro a ha heq
  rw [List.map_append] at h
  refine List.disjoint_of_nodup_append h (List.mem_map_of_mem (List.mem_map_of_mem ha)) ?_
  exact List.mem_map.mpr ⟨n, List.mem_cons_self, heq⟩

/-- All nodes are restored, one after the other. -/
theorem NodesRestored.run (hc : c.HasBuiltins) (rest : List Node)
    (hrest : ∀ n ∈ rest, n.Storable ∧ n.body.isBuiltin = true) {ps : List (Node × Node)}
    {st : Loading} (h : NodesRestored k name remap s ps st)
    (hids : ((ps.map Prod.fst ++ rest).map fun n => remap.resolve n.id).Nodup) (index : Nat) :
    ∃ qs, qs.map Prod.fst = ps.map Prod.fst ++ rest ∧ NodesRestored k name remap s qs
      (((rest.map fun n => n.save remap).zipIdx index).foldl (loadNode c) st) := by
  induction rest generalizing ps st index with
  | nil => exact ⟨ps, (List.append_nil _).symm, h⟩
  | cons n rest ih =>
    have hnew := new_of_nodup hids
    obtain ⟨hn, hb⟩ := hrest n List.mem_cons_self
    obtain ⟨m, hm⟩ := h.step hc hn hb hnew index
    have hmap : (ps ++ [(n, m)]).map Prod.fst ++ rest = ps.map Prod.fst ++ n :: rest := by simp
    obtain ⟨qs, hqs, hst⟩ := ih (fun a ha => hrest a (List.mem_cons_of_mem _ ha)) hm
      (hmap ▸ hids) (index + 1)
    exact ⟨qs, hqs.trans hmap, hst⟩

end Loading

/-! ## Links of a saved graph -/

/-- The links of a well-formed graph can be made again one by one. -/
theorem Graph.WellFormed.relink {g : Graph} (hg : g.WellFormed) {done : List Link} {l : Link}
    (hsub : (done ++ [l]).Sublist g.links) {a b : Node} {p q : Pin} (hj : g.Joins l a b p q) :
    { g with links := done }.link l.id p.id q.id = .ok { g with links := done ++ [l] } := by
  have hdone := hg.restrict ((List.sublist_append_left done [l]).trans hsub)
  have hfree : ∀ k ∈ done, k.toPin ≠ q.id := by
    have hnd := hg.targets_nodup.sublist (hsub.map Link.toPin)
    rw [List.map_append, List.map_singleton] at hnd
    intro k hk heq
    refine List.disjoint_of_nodup_append hnd (List.mem_map_of_mem hk) ?_
    rw [heq, hj.toPin, List.mem_singleton]
  have hmatch : p.canLinkTo q = true := by
    simp [Pin.canLinkTo, hj.output, hj.input, hj.types]
  have hl : l = ⟨l.id, a.id, p.id, b.id, q.id, p.isFlow⟩ := by
    rw [← hj.fromNode, ← hj.fromPin, ← hj.toNode, ← hj.toPin, hj.isFlow_eq.1]
  rw [hdone.link_eq l.id hj.source hj.target hj.owns_source hj.owns_target hmatch hj.apart hfree,
    ← hl]

/-- A pin of a restored node is found under the name that it had. -/
theorem Graph.Beside.findPin?_of_builtin {host g g' : Graph} {ps : List (Node × Node)}
    {ks : List (Link × Link)} (h : Beside host g g' ps ks) {x : Node × Node} (hx : x ∈ ps)
    (hb : x.1.body.isBuiltin = true) {p : Pin} (hp : p ∈ x.1.pins) :
    ∃ p', (p, p') ∈ x.1.pins.zip x.2.pins ∧ g'.findPin? x.2.id p.direction p.name = some p' := by
  have hrel := h.findPin? hx p.direction p.name
  have hfind : g.findPin? x.1.id p.direction p.name = some p := by
    rw [Graph.findPin?, h.wellFormed.node?_of_mem (h.mem_left hx)]
    exact Node.findPin?_of_mem hb hp
  rw [hfind] at hrel
  generalize g'.findPin? x.2.id p.direction p.name = o at hrel ⊢
  cases hrel with
  | some hmem => exact ⟨_, hmem, rfl⟩

namespace Loading

/-- The links `ls` of the graph have been restored beside nothing, the nodes before. -/
structure LinksRestored (g : Graph) (ps : List (Node × Node)) (ls : List Link) (st : Loading) :
    Prop where
  copied : ∃ ks, Graph.Beside (Graph.empty g.name) { g with links := ls } st.graph ps ks
  loaded : ∀ i, st.loaded.get? i = if i ∈ st.graph.nodeIds then some i else none
  report : st.report = ⟨[], [], st.graph.nodeIds, ls.length⟩

/-- One more link is restored. -/
theorem LinksRestored.step {g : Graph} (hg : g.WellFormed) (hb : g.IsBuiltin) {remap : Remap}
    {ps : List (Node × Node)} (hids : ∀ a ∈ ps, a.2.id = remap.resolve a.1.id) {done : List Link}
    {l : Link} (hsub : (done ++ [l]).Sublist g.links) {st : Loading}
    (h : LinksRestored g ps done st) (index : Nat) :
    ∃ j, g.saveLink? remap l = some j ∧
      LinksRestored g ps (done ++ [l]) (loadLink st (j, index)) := by
  obtain ⟨⟨ks, hcopy⟩, hloaded, hreport⟩ := h
  obtain ⟨a, b, p, q, hj⟩ := hg.joins l (hsub.subset (by simp))
  have hp := hg.pin?_of_mem hj.source hj.owns_source
  have hq := hg.pin?_of_mem hj.target hj.owns_target
  have hentry : g.entryOf? l = some ⟨a.id, p.name, b.id, q.name⟩ := by
    simp [Graph.entryOf?, hj.fromPin, hj.toPin, hp, hq, hj.fromNode, hj.toNode]
  have hnodes : g.nodes = ps.map Prod.fst := hcopy.nodes
  obtain ⟨x, hx, rfl⟩ := List.mem_map.mp (hnodes ▸ hj.source)
  obtain ⟨y, hy, rfl⟩ := List.mem_map.mp (hnodes ▸ hj.target)
  obtain ⟨p', hpp, hfindp⟩ := hcopy.findPin?_of_builtin hx (hb _ hj.source) hj.owns_source
  obtain ⟨q', hqq, hfindq⟩ := hcopy.findPin?_of_builtin hy (hb _ hj.target) hj.owns_target
  rw [hj.output] at hfindp
  rw [hj.input] at hfindq
  obtain ⟨g', k, hlink, hcopy'⟩ := hcopy.link hx hy hpp hqq (hg.relink hsub hj)
    st.supply.takeLink.1
  have hmem : ∀ z ∈ ps, st.loaded.get? z.2.id = some z.2.id := fun z hz => by
    rw [hloaded, if_pos (Graph.mem_nodeIds.mpr ⟨_, hcopy.mem_right hz, rfl⟩)]
  have hsame : g'.nodeIds = st.graph.nodeIds := by
    rw [Graph.nodeIds, hcopy'.nodes', Graph.nodeIds, hcopy.nodes']
  have hends : st.linkEnds ⟨remap.resolve x.1.id, p.name, remap.resolve y.1.id, q.name⟩ =
      .ok (p'.id, q'.id) := by
    simp only [linkEnds, ← hids x hx, ← hids y hy, hmem x hx, hmem y hy, hfindp, hfindq]
  have hload : loadLink st ((LinkEntry.rename remap.resolve
      ⟨x.1.id, p.name, y.1.id, q.name⟩).toJson, index) =
        ⟨g', st.supply.takeLink.2, st.loaded, { st.report with links := st.report.links + 1 }⟩ := by
    simp only [loadLink, linkEntry?_toJson, LinkEntry.rename, hends, hlink]
  refine ⟨_, by rw [Graph.saveLink?_eq, hentry, Option.map_some], ?_⟩
  rw [hload]
  refine ⟨⟨_, hcopy'⟩, fun i => ?_, ?_⟩
  · rw [hsame, hloaded]
  · rw [hsame, hreport, List.length_append, List.length_singleton]

/-- All links are restored, one after the other. -/
theorem LinksRestored.run {g : Graph} (hg : g.WellFormed) (hb : g.IsBuiltin) {remap : Remap}
    {ps : List (Node × Node)} (hids : ∀ a ∈ ps, a.2.id = remap.resolve a.1.id) (rest : List Link)
    {done : List Link} (hsub : (done ++ rest).Sublist g.links) {st : Loading}
    (h : LinksRestored g ps done st) (index : Nat) :
    LinksRestored g ps (done ++ rest)
      (((rest.filterMap (g.saveLink? remap)).zipIdx index).foldl loadLink st) := by
  induction rest generalizing done st index with
  | nil => rwa [List.append_nil]
  | cons l rest ih =>
    have hmap : done ++ [l] ++ rest = done ++ l :: rest := by simp
    obtain ⟨j, hj, hst⟩ := h.step hg hb hids
      ((hmap ▸ List.sublist_append_left (done ++ [l]) rest).trans hsub) index
    rw [List.filterMap_cons_some hj, ← hmap]
    exact ih (hmap ▸ hsub) hst (index + 1)

end Loading

/-! ## Graphs -/

@[simp] theorem LoadReport.warn_nil (r : LoadReport) : r.warn [] = r := by
  rw [warn, List.append_nil]

namespace Graph

/-- The document of a graph is restored node by node and then link by link. -/
theorem load_save_eq (g : Graph) (remap : Remap) (c : Catalog) (s : Supply) :
    Graph.load c s (g.save remap) = .ok
      (((g.links.filterMap (g.saveLink? remap)).zipIdx).foldl Loading.loadLink
        (((g.nodes.map fun n => n.save remap).zipIdx).foldl (Loading.loadNode c)
          ⟨Graph.empty g.name, s, [], LoadReport.empty⟩)) := by
  set fs := [("version", Json.ofNat formatVersion), ("name", .string g.name),
    ("nodes", .array (g.nodes.map fun n => n.save remap)),
    ("links", .array (g.links.filterMap (g.saveLink? remap)))] with hfs
  have hfield : ∀ {k v}, (k, v) ∈ fs → (Fields.ofList fs).get? k = some v := fun hmem =>
    Fields.get?_ofList (by simp [hfs]) hmem
  have hversion := hfield (.head _)
  have hname := hfield (.tail _ (.head _))
  have hnodes := hfield (.tail _ (.tail _ (.head _)))
  have hlinks := hfield (.tail _ (.tail _ (.tail _ (.head _))))
  have hformat : (Json.ofNat formatVersion).natBelow? 64 = some formatVersion :=
    Json.natBelow?_ofNat (by decide)
  simp only [load, loadBy, documentName, save, Json.ofFields, Json.field?, Json.fields?,
    Option.bind_some, ← hfs, hname, Json.string?, Option.getD_some, mergeBy, checkFormat, hversion,
    hformat, Nat.lt_irrefl, if_false, Loading.entries, hnodes, hlinks, LoadReport.warn_nil,
    Loading.loadNode]

/-- **Round trip of graphs**: a graph of built-in nodes with finite numbers, saved under any renaming
that keeps its nodes apart, is read without a warning, and the outcome is a copy of it. -/
theorem load_save_copy {g : Graph} (hg : g.WellFormed) (hb : g.IsBuiltin)
    (hstorable : ∀ n ∈ g.nodes, n.Storable) {c : Catalog} (hc : c.HasBuiltins) {remap : Remap}
    (hinj : Set.InjOn remap.resolve {n | n ∈ g.nodeIds}) {s : Supply}
    (hs : ∀ i j, s.next ≤ i → i < j → j < s.next + g.pins.length → s.draw i ≠ s.draw j) :
    ∃ st, Graph.load c s (g.save remap) = .ok st ∧
      st.report = ⟨[], [], g.nodeIds.map remap.resolve, g.links.length⟩ ∧
      st.graph.WellFormed ∧ st.graph.name = g.name ∧
      st.graph.nodeIds = g.nodeIds.map remap.resolve ∧
      st.graph.nodes.map Node.blank = g.nodes.map Node.blank ∧
      st.graph.links.map st.graph.entryOf? =
        g.links.map fun l => (g.entryOf? l).map (LinkEntry.rename remap.resolve) := by
  set k := s.next + g.pins.length
  have hids : (g.nodes.map fun n => remap.resolve n.id).Nodup := by
    have hnd := hg.nodes_nodup.map_on fun a ha b hb heq => hinj ha hb heq
    rwa [nodeIds, List.map_map] at hnd
  have hstart : Loading.NodesRestored k g.name remap s [] ⟨Graph.empty g.name, s, [], .empty⟩ :=
    ⟨rfl, rfl, rfl, by simp, by simp, fun _ => rfl, rfl, rfl, healthy_empty g.name hs⟩
  obtain ⟨ps, hps, hnodes⟩ := hstart.run hc g.nodes (fun n hn => ⟨hstorable n hn, hb n hn⟩) hids 0
  rw [List.map_nil, List.nil_append] at hps
  set st := ((g.nodes.map fun n => n.save remap).zipIdx).foldl (Loading.loadNode c)
    ⟨Graph.empty g.name, s, [], LoadReport.empty⟩
  have hwf : st.graph.WellFormed := by
    refine hnodes.healthy.wellFormed ?_
    rw [hnodes.supply, ← List.flatMap_map, hps]
    exact Nat.le_refl k
  have hcopy : Beside (Graph.empty g.name) { g with links := [] } st.graph ps [] := {
    wellFormed_host := wellFormed_empty g.name
    wellFormed := hg.restrict (List.nil_sublist _)
    wellFormed' := hwf
    name := hnodes.name
    nodes := hps.symm
    nodes' := hnodes.nodes
    links := rfl
    links' := hnodes.links
    alike := hnodes.alike
    linked := List.forall_mem_nil _ }
  have hlinks : Loading.LinksRestored g ps [] st := ⟨⟨[], hcopy⟩, hnodes.loaded, hnodes.report⟩
  obtain ⟨⟨ks, hall⟩, -, hreport⟩ := hlinks.run hg hb hnodes.ids g.links (List.Sublist.refl _) 0
  have hnodeIds : ∀ {g' : Graph}, g'.nodes = [] ++ ps.map Prod.snd →
      g'.nodeIds = g.nodeIds.map remap.resolve := fun hg' => by
    rw [nodeIds, hg', nodeIds, ← hps, List.nil_append, List.map_map, List.map_map, List.map_map]
    exact List.map_congr_left hnodes.ids
  refine ⟨_, load_save_eq g remap c s, ?_, hall.wellFormed', hall.name, hnodeIds hall.nodes', ?_, ?_⟩
  · rw [hreport, hnodeIds hall.nodes']
    rfl
  · rw [hall.nodes']
    exact hall.nodes_blank
  · rw [hall.links']
    exact hall.entries fun a ha => (hnodes.ids a ha).symm

/-- Two nodes of the example change their identities. -/
def exchanged : Remap := [(⟨.ofNat 1⟩, ⟨.ofNat 5⟩), (⟨.ofNat 5⟩, ⟨.ofNat 1⟩)]

/-- The example is read back from a document in which two nodes have changed their identities. -/
theorem pullAhead_load_save : ∃ st,
    Graph.load .builtin (.countingFrom 100) (pullAhead.save exchanged) = .ok st ∧
      st.report = ⟨[], [], [⟨.ofNat 5⟩, ⟨.ofNat 2⟩, ⟨.ofNat 3⟩, ⟨.ofNat 4⟩, ⟨.ofNat 1⟩], 6⟩ ∧
      st.graph.nodes.map Node.blank = pullAhead.nodes.map Node.blank ∧
      st.graph.links.map st.graph.entryOf? =
        [some ⟨⟨.ofNat 5⟩, "Start", ⟨.ofNat 2⟩, "Enter"⟩,
          some ⟨⟨.ofNat 2⟩, "Exit", ⟨.ofNat 3⟩, "Enter"⟩,
          some ⟨⟨.ofNat 3⟩, "Exit", ⟨.ofNat 4⟩, "End"⟩,
          some ⟨⟨.ofNat 3⟩, "Out", ⟨.ofNat 2⟩, "In 1"⟩,
          some ⟨⟨.ofNat 2⟩, "Out", ⟨.ofNat 4⟩, "In"⟩,
          some ⟨⟨.ofNat 1⟩, "Out", ⟨.ofNat 2⟩, "Pos"⟩] := by
  have hstorable : ∀ n ∈ pullAhead.nodes, n.Storable := by
    intro n hn
    simp only [pullAhead, List.mem_cons, List.not_mem_nil, or_false] at hn
    rcases hn with rfl | rfl | rfl | rfl | rfl
    · exact ⟨by decide +kernel, by decide +kernel, trivial⟩
    · exact ⟨by decide +kernel, by decide +kernel, trivial⟩
    · exact ⟨by decide +kernel, by decide +kernel, trivial⟩
    · exact ⟨by decide +kernel, by decide +kernel, trivial⟩
    · exact ⟨by decide +kernel, by decide +kernel,
        (by decide +kernel : (1 : Float32).isFinite = true)⟩
  have hbuiltins : Catalog.builtin.HasBuiltins := fun b => by cases b <;> rfl
  have hinj : Set.InjOn exchanged.resolve {n | n ∈ pullAhead.nodeIds} :=
    (by decide : ∀ a ∈ pullAhead.nodeIds, ∀ b ∈ pullAhead.nodeIds,
      exchanged.resolve a = exchanged.resolve b → a = b)
  have hpins : pullAhead.pins.length = 16 := by decide
  obtain ⟨st, hload, hreport, -, -, -, hnodes, hlinks⟩ :=
    load_save_copy pullAhead_wellFormed pullAhead_isBuiltin hstorable hbuiltins hinj
      (s := .countingFrom 100) fun i j _ hij hj => Supply.countingFrom_distinct hij (by
        rw [hpins] at hj
        show 100 + j < 2 ^ 122
        have : (Supply.countingFrom 100).next = 0 := rfl
        omega)
  refine ⟨st, hload, hreport.trans ?_, hnodes, hlinks.trans ?_⟩
  · rfl
  · rfl

end Graph

end Patchbay
