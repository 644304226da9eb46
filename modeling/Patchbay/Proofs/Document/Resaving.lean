import Patchbay.Proofs.Document.Keeping
import Patchbay.Proofs.Document.Restored

/-!
# Saving what has been loaded

The reader is lenient, but what it lets in is nearly always something that the writer can write: names,
identities and sizes are in the graph as documents have them, and links are between pins that have names.
Numbers are the exception. The reader takes any number for one of single precision; a large one becomes
infinite, the writer has no place for it, and the reader refuses what stands there the next time.

**`Graph.load_again_iff`** says what this comes to, for every document. The graph that has been loaded is
saved and loaded once more as a copy of what documents keep of it (`Graph.Resaved`), and that copy can be
kept. Loading it is clean, its settings are those of the graph and its document is that of the graph, if all
numbers that the first document has brought in are finite, and none of this is true otherwise.
-/

namespace Patchbay

open Loading (LinkEntry)

/-! ## Documents of copies -/

theorem Body.fields_blank (b : Body) : b.blank.fields = b.fields := by
  cases b <;> rfl

theorem Body.storable_blank (b : Body) : b.blank.Storable ↔ b.Storable := by
  cases b <;> exact Iff.rfl

theorem Body.isBuiltin_blank (b : Body) : b.blank.isBuiltin = b.isBuiltin := by
  cases b <;> rfl

namespace Node

variable {a b : Node} (h : a.blank = b.blank)
include h

theorem parts_of_blank :
    a.name = b.name ∧ a.position = b.position ∧ a.enabled = b.enabled ∧
      a.body.blank = b.body.blank := by
  simp only [blank, mk.injEq] at h
  exact h.2

theorem isBuiltin_of_blank : a.body.isBuiltin = b.body.isBuiltin := by
  rw [← a.body.isBuiltin_blank, (parts_of_blank h).2.2.2, b.body.isBuiltin_blank]

/-- Alike nodes have the same document under the same identity. -/
theorem save_of_blank (hid : a.id = b.id) (remap : Remap) : a.save remap = b.save remap := by
  obtain ⟨hname, hposition, henabled, hbody⟩ := parts_of_blank h
  have hfields : a.body.fields = b.body.fields := by
    rw [← a.body.fields_blank, hbody, b.body.fields_blank]
  rw [save, save, info_eq_of_blank h, hid, hname, hposition, henabled, hfields]

/-- What a document can keep of alike nodes is the same. -/
theorem storable_of_blank (ha : a.Storable) : b.Storable := by
  obtain ⟨-, hposition, -, hbody⟩ := parts_of_blank h
  refine ⟨hposition ▸ ha.x, hposition ▸ ha.y, b.body.storable_blank.mp ?_⟩
  rw [← hbody, a.body.storable_blank]
  exact ha.body

end Node

namespace Graph

/-- The document of a copy in which the nodes keep their identities is the document of the graph. -/
theorem Beside.save_eq {g g' : Graph} {ps : List (Node × Node)} {ks : List (Link × Link)}
    (h : Beside (Graph.empty g.name) g g' ps ks) (hids : ∀ a ∈ ps, a.2.id = a.1.id) :
    g'.save [] = g.save [] := by
  have hnodes : g'.nodes.map (fun n => n.save []) = g.nodes.map fun n => n.save [] := by
    rw [h.nodes', h.nodes]
    simp only [Graph.empty, List.nil_append, List.map_map]
    exact List.map_congr_left fun a ha =>
      (Node.save_of_blank (h.alike a ha) (hids a ha).symm []).symm
  have hentries : g'.links.map g'.entryOf? = g.links.map g.entryOf? := by
    rw [h.links', Graph.empty, List.nil_append, h.entries (f := id) fun a ha => (hids a ha).symm]
    exact List.map_congr_left fun l _ => Option.map_id'
  have hsave : ∀ g : Graph, g.links.filterMap (g.saveLink? []) = (g.links.map g.entryOf?).filterMap
      fun o => o.map fun e => (e.rename (Remap.resolve [])).toJson := fun g => by
    rw [List.filterMap_map]
    exact congrArg (g.links.filterMap ·) (funext (g.saveLink?_eq []))
  rw [save, save, hnodes, hsave, hsave, hentries, h.name]
  rfl

/-- All numbers in the settings are finite. -/
def IsFinite (g : Graph) : Prop := ∀ n ∈ g.nodes, ∀ c ∈ n.settings, c.isFinite = true

instance (g : Graph) : Decidable g.IsFinite :=
  inferInstanceAs (Decidable (∀ n ∈ g.nodes, ∀ c ∈ n.settings, c.isFinite = true))

section Finite

variable {g : Graph} (hsized : ∀ n ∈ g.nodes, n.body.Sized)
include hsized

/-- Nothing is lost exactly if all numbers are finite. -/
theorem lost_eq_nil_iff {remap : Remap} : g.lost remap = [] ↔ g.IsFinite := by
  rw [lost, List.flatMap_eq_nil_iff]
  exact forall₂_congr fun n hn => by rw [List.map_eq_nil_iff, Node.lost_eq_nil (hsized n hn)]

/-- Then documents keep the graph as it is. -/
theorem kept_eq_self (hfinite : g.IsFinite) : g.kept = g := by
  have hnodes : g.nodes.map Node.kept = g.nodes.map id := List.map_congr_left fun n hn =>
    Node.kept_eq_self (Node.storable_iff.mpr ⟨hsized n hn, hfinite n hn⟩)
  rw [kept, hnodes, List.map_id]

end Finite

/-- The graph `g` has been saved and loaded again as what documents keep of it, which can be kept. -/
structure Resaved (g : Graph) (again : Loading) : Prop where
  /-- Nothing but the losses is reported, and no node has a new identity. -/
  report : again.report = ⟨g.lost [], [], g.nodeIds, g.links.length⟩
  wellFormed : again.graph.WellFormed
  isBuiltin : again.graph.IsBuiltin
  name : again.graph.name = g.name
  nodeIds : again.graph.nodeIds = g.nodeIds
  /-- The settings are those that documents keep. -/
  nodes : again.graph.nodes.map Node.blank = g.kept.nodes.map Node.blank
  /-- The links are the same by nodes and pin names, in the same order. -/
  links : again.graph.links.map again.graph.entryOf? = g.links.map g.entryOf?
  save : again.graph.save [] = g.kept.save []
  storable : ∀ n ∈ again.graph.nodes, n.Storable

section Again

variable {g : Graph} (hg : g.WellFormed) (hb : g.IsBuiltin) (hsized : ∀ n ∈ g.nodes, n.body.Sized)
  {c : Catalog} (hc : c.HasBuiltins)
  {s : Supply} (hs : ∀ i j, s.next ≤ i → i < j → j < s.next + g.pins.length → s.draw i ≠ s.draw j)
include hg hb hsized hc hs

/-- What is loaded from the document of a graph. -/
theorem load_save_resaved :
    ∃ again, Graph.load c s (g.save []) = .ok again ∧ g.Resaved again := by
  have hinj : Set.InjOn (Remap.resolve []) {n | n ∈ g.nodeIds} := fun _ _ _ _ h => h
  obtain ⟨again, ps, ks, hload, hcopy, hids, hreport⟩ := load_save_beside hg hb hc hs hsized hinj
  have hsame : ∀ a ∈ ps, a.2.id = a.1.id := hids
  have hnodes : again.graph.nodes = ps.map Prod.snd := hcopy.nodes'
  have hlinks : again.graph.links = ks.map Prod.snd := hcopy.links'
  have hback : again.graph.nodeIds = g.nodeIds := by
    rw [← g.kept_nodeIds, nodeIds, nodeIds, hnodes, hcopy.nodes, List.map_map, List.map_map]
    exact List.map_congr_left hsame
  have halike : ∀ n ∈ again.graph.nodes, ∃ m ∈ g.nodes, m.kept.blank = n.blank := by
    rw [hnodes]
    refine List.forall_mem_map.mpr fun a ha => ?_
    obtain ⟨m, hm, hkept⟩ := List.mem_map.mp (hcopy.mem_left ha)
    exact ⟨m, hm, hkept ▸ hcopy.alike a ha⟩
  refine ⟨again, hload, ?_, hcopy.wellFormed', fun n hn => ?_, hcopy.name, hback, ?_, ?_,
    hcopy.save_eq hsame, fun n hn => ?_⟩
  · rw [hreport, hback]
  · obtain ⟨m, hm, hblank⟩ := halike n hn
    rw [← Node.isBuiltin_of_blank hblank, m.kept_isBuiltin]
    exact hb m hm
  · rw [hnodes]
    exact hcopy.nodes_blank
  · rw [hlinks, hcopy.entries (f := id) fun a ha => (hsame a ha).symm, ← g.kept_entryOf?]
    exact List.map_congr_left fun l _ => Option.map_id'
  · obtain ⟨m, hm, hblank⟩ := halike n hn
    exact Node.storable_of_blank hblank (Node.kept_storable (hsized m hm))

/-- If the document is that of what documents keep, nothing is lost. -/
theorem lost_of_save_eq (hsame : g.kept.save [] = g.save []) : g.lost [] = [] := by
  have hkept : ∀ n ∈ g.kept.nodes, n.Storable :=
    List.forall_mem_map.mpr fun n hn => Node.kept_storable (hsized n hn)
  obtain ⟨again, hload, hagain⟩ := load_save_resaved hg hb hsized hc hs
  obtain ⟨again', hload', hagain'⟩ := load_save_resaved hg.kept (kept_isBuiltin hb)
    (fun n hn => (Node.storable_iff.mp (hkept n hn)).1) hc (by rwa [kept_pins])
  obtain rfl : again = again' := Except.ok.inj ((hsame ▸ hload).symm.trans hload')
  have hlost : g.lost [] = g.kept.lost [] :=
    congrArg LoadReport.warnings (hagain.report.symm.trans hagain'.report)
  rw [hlost, lost_eq_nil_iff fun n hn => (Node.storable_iff.mp (hkept n hn)).1]
  exact fun n hn => (Node.storable_iff.mp (hkept n hn)).2

end Again

section Exact

variable {g : Graph} (hsized : ∀ n ∈ g.nodes, n.body.Sized) {again : Loading} (h : g.Resaved again)
include hsized h

theorem Resaved.isClean_iff : again.report.isClean = true ↔ g.IsFinite := by
  rw [h.report, LoadReport.isClean, List.isEmpty_iff, lost_eq_nil_iff hsized]

theorem Resaved.nodes_iff :
    again.graph.nodes.map Node.blank = g.nodes.map Node.blank ↔ g.IsFinite := by
  constructor
  · intro hnodes n hn
    obtain ⟨m, hm, hblank⟩ := List.mem_map.mp (hnodes ▸ List.mem_map_of_mem (f := Node.blank) hn)
    exact (Node.storable_iff.mp (Node.storable_of_blank hblank (h.storable m hm))).2
  · intro hfinite
    rw [h.nodes, kept_eq_self hsized hfinite]

end Exact

/-- **Loading what has been loaded and saved**: whatever the document was, the graph is loaded again as
what documents keep of it. Loading is clean, the settings are the same, and saving gives the same
document, each exactly if all numbers are finite that the document has brought in. -/
theorem load_again_iff {s₀ : Supply} {doc : Json} {st : Loading}
    (h : Graph.load .builtin s₀ doc = .ok st)
    (hs₀ : ∀ i j, s₀.next ≤ i → i < j → j < st.supply.next → s₀.draw i ≠ s₀.draw j) {s : Supply}
    (hs : ∀ i j, s.next ≤ i → i < j → j < s.next + st.graph.pins.length → s.draw i ≠ s.draw j) :
    ∃ again, Graph.load .builtin s (st.graph.save []) = .ok again ∧ st.graph.Resaved again ∧
      (again.report.isClean = true ↔ st.graph.IsFinite) ∧
      (again.graph.nodes.map Node.blank = st.graph.nodes.map Node.blank ↔ st.graph.IsFinite) ∧
      (again.graph.save [] = st.graph.save [] ↔ st.graph.IsFinite) := by
  have hbuiltins := Catalog.hasBuiltins_builtin
  obtain ⟨hb, hsized⟩ := load_builtin h
  have hg : st.graph.WellFormed := (merge_healthy (healthy_empty _ hs₀) h).wellFormed le_rfl
  obtain ⟨again, hload, hagain⟩ := load_save_resaved hg hb hsized hbuiltins hs
  refine ⟨again, hload, hagain, hagain.isClean_iff hsized, hagain.nodes_iff hsized, ?_⟩
  rw [hagain.save]
  exact ⟨fun hsame => (lost_eq_nil_iff hsized).mp (lost_of_save_eq hg hb hsized hbuiltins hs hsame),
    fun hfinite => by rw [kept_eq_self hsized hfinite]⟩

/-- A document with a constant under an identity that `pullAhead` has, another one under the same
identity, an entry of no known type, and a transition that is to take the constant twice. -/
def part : Json :=
  let taken := Loading.LinkEntry.toJson ⟨⟨.ofNat 5⟩, "Out", ⟨.ofNat 6⟩, "Pos"⟩
  .ofFields
    [("name", .string "part"),
      ("nodes", .array
        [exampleEntry "Float" 5 [("value", .bool true)], exampleEntry "Float" 5 [],
          exampleEntry "Mystery" 7 [], exampleEntry "Move Transform" 6 []]),
      ("links", .array [taken, taken])]

/-- Much of the document `part` is left out with a warning. What has been loaded is loaded again without any,
and its document stays the same. -/
theorem part_load_again : ∃ st again,
    Graph.load .builtin (.countingFrom 100) part = .ok st ∧ st.report.isClean = false ∧
      Graph.load .builtin (.countingFrom 200) (st.graph.save []) = .ok again ∧
      again.report.isClean = true ∧
      again.graph.nodes.map Node.blank = st.graph.nodes.map Node.blank ∧
      again.graph.save [] = st.graph.save [] := by
  have hloads : (Graph.load .builtin (.countingFrom 100) part).toOption.map
      (fun st => (st.supply.next, st.graph.pins.length, st.report.isClean, decide st.graph.IsFinite)) =
        some (10, 8, false, true) := by decide +kernel
  cases hload : Graph.load .builtin (.countingFrom 100) part with
  | error e => simp [hload, Except.toOption] at hloads
  | ok st =>
    rw [hload] at hloads
    simp only [Except.toOption, Option.map_some, Option.some.injEq, Prod.mk.injEq] at hloads
    obtain ⟨hnext, hpins, hclean, hfinite⟩ := hloads
    obtain ⟨again, hagain, -, hclean', hnodes, hsave⟩ := load_again_iff hload
      (fun i j _ hij hj => Supply.countingFrom_distinct hij (by omega))
      (s := .countingFrom 200) fun i j _ hij hj => Supply.countingFrom_distinct hij (by
        have hnext : (Supply.countingFrom 200).next = 0 := rfl
        omega)
    have hfinite := of_decide_eq_true hfinite
    exact ⟨st, again, rfl, hclean, hagain, hclean'.mpr hfinite, hnodes.mpr hfinite, hsave.mpr hfinite⟩

/-- A document with a number that single precision cannot hold. -/
def oversized : Json :=
  .ofFields
    [("version", .ofNat 1), ("name", .string "g"),
      ("nodes", .array [exampleEntry "Float" 1 [("value", .number (.double 1e300))]]),
      ("links", .array [])]

/-- The values that the nodes of a document have. -/
def nodeValues (doc : Json) : List (Option Float32) :=
  (doc.listed "nodes").map fun j => (j.field? "value").bind Json.single?

/-- That document is loaded without a warning, but what has been loaded is not loaded again without one,
and its document does not stay the same. -/
theorem oversized_lossy : ∃ st again,
    Graph.load .builtin (.countingFrom 100) oversized = .ok st ∧ st.report.isClean = true ∧
      Graph.load .builtin (.countingFrom 200) (st.graph.save []) = .ok again ∧
      again.report.isClean = false ∧ again.graph.save [] ≠ st.graph.save [] := by
  have hruns : (Graph.load .builtin (.countingFrom 100) oversized).toOption.bind (fun st =>
      (Graph.load .builtin (.countingFrom 200) (st.graph.save [])).toOption.map fun again =>
        (st.report.isClean, again.report.isClean, nodeValues (st.graph.save []),
          nodeValues (again.graph.save []))) = some (true, false, [none], [some 0]) := by decide +kernel
  cases hload : Graph.load .builtin (.countingFrom 100) oversized with
  | error e => simp [hload, Except.toOption] at hruns
  | ok st =>
    rw [hload, Except.toOption, Option.bind_some] at hruns
    cases hagain : Graph.load .builtin (.countingFrom 200) (st.graph.save []) with
    | error e => simp [hagain, Except.toOption] at hruns
    | ok again =>
      simp only [hagain, Except.toOption, Option.map_some, Option.some.injEq, Prod.mk.injEq] at hruns
      obtain ⟨hclean, hclean', hvalues, hvalues'⟩ := hruns
      refine ⟨st, again, rfl, hclean, hagain, hclean', fun hsame => ?_⟩
      rw [hsame, hvalues] at hvalues'
      simp at hvalues'

end Graph

end Patchbay
