import Patchbay.Proofs.Graph.FlowCycles
import Patchbay.Proofs.Graph.Reach

/-!
# Automatic wiring never loses a connection

A host type may advertise any of its pins to automatic wiring, so a splice can be refused at either
half or at both. What has been unlinked for it is linked again then, and that is never refused: the end
of the link is free, for nothing but the link led there. If neither half is refused, they join what the
link has joined, because the two pins belong to one node.

`Graph.Keeps` says what holds of the links after any step of wiring. Its main use is
**`Graph.autoLink_keeps`**: after wiring, flow leads wherever it led before, only the link that was
picked for the splice may be gone, and a graph that could run still can.
-/

namespace Patchbay

open Relation

/-- The flow pins that a node advertises are pins of its own. -/
theorem Node.mem_pins_of_flow {n : Node} {p : Pin}
    (h : n.advertised.flowIn = some p ∨ n.advertised.flowOut = some p) : p ∈ n.pins := by
  by_cases hn : n.body.isBuiltin = true
  · exact h.elim (fun h => (flowIn_spec hn h).1) fun h => (flowOut_spec hn h).1
  · simp only [advertised, Body.advertised] at h
    cases hbody : n.body with
    | scripted t ins outs =>
      simp only [hbody, Option.bind_eq_some_iff] at h
      rcases h with ⟨r, -, hr⟩ | ⟨r, -, hr⟩
      all_goals exact mem_pins_of_resolve? (hbody ▸ hr)
    | _ => simp [hbody, Body.isBuiltin] at hn

namespace Graph

/-! ## Links that share a pin -/

section Joins

variable {g : Graph} (hg : g.WellFormed) {l k : Link} {a b c d : Node} {p q p' q' : Pin}
  (hl : g.Joins l a b p q) (hk : g.Joins k c d p' q')
include hg hl hk

/-- Links that leave one pin leave one node, and carry the same. -/
theorem Joins.source_eq (h : k.fromPin = l.fromPin) :
    k.fromNode = l.fromNode ∧ k.flow = l.flow := by
  obtain ⟨rfl, rfl⟩ := hg.eq_of_pin hk.source hl.source hk.owns_source hl.owns_source
    (hk.fromPin.symm.trans (h.trans hl.fromPin))
  exact ⟨hk.fromNode.trans hl.fromNode.symm, hk.isFlow_eq.1.symm.trans hl.isFlow_eq.1⟩

/-- Links that lead to one pin lead to one node, and carry the same. -/
theorem Joins.target_eq (h : k.toPin = l.toPin) : k.toNode = l.toNode ∧ k.flow = l.flow := by
  obtain ⟨rfl, rfl⟩ := hg.eq_of_pin hk.target hl.target hk.owns_target hl.owns_target
    (hk.toPin.symm.trans (h.trans hl.toPin))
  exact ⟨hk.toNode.trans hl.toNode.symm, hk.isFlow_eq.2.symm.trans hl.isFlow_eq.2⟩

end Joins

/-! ## What wiring keeps -/

/-- All links are kept but the one picked, if any; that is a flow link, and flow still leads from its
source to its target. -/
structure Keeps (g : Graph) (picked : Option Link) (g' : Graph) : Prop where
  nodes : g'.nodes = g.nodes
  links : ∀ l ∈ g.links, l ∈ g'.links ∨
    l.flow = true ∧ picked = some l ∧ TransGen g'.FlowLink l.fromNode l.toNode

namespace Keeps

variable {g g' g'' : Graph} {picked : Option Link}

/-- Adding links keeps all of them. -/
theorem of_adds {P : Link → Prop} (h : g.Adds P g') (picked : Option Link) : g.Keeps picked g' := by
  obtain ⟨new, rfl, -⟩ := h
  exact ⟨rfl, fun l hl => Or.inl (List.mem_append_left _ hl)⟩

/-- Adding links afterwards takes nothing away. -/
theorem adds {P : Link → Prop} (h : g.Keeps picked g') (h' : g'.Adds P g'') :
    g.Keeps picked g'' := by
  obtain ⟨new, rfl, -⟩ := h'
  refine ⟨h.nodes, fun l hl => ?_⟩
  rcases h.links l hl with hl | ⟨hflow, hpicked, hway⟩
  · exact Or.inl (List.mem_append_left _ hl)
  · refine Or.inr ⟨hflow, hpicked, hway.lift id ?_⟩
    rintro x y ⟨k, hk, hxy⟩
    exact ⟨k, List.mem_append_left _ hk, hxy⟩

/-- Flow leads wherever it led before. -/
theorem reach (h : g.Keeps picked g') {x y : NodeId} (hxy : TransGen g.FlowLink x y) :
    TransGen g'.FlowLink x y := by
  refine hxy.lift' id ?_
  rintro _ _ ⟨l, hl, hflow, rfl, rfl⟩
  rcases h.links l hl with hl | ⟨-, -, hway⟩
  · exact .single ⟨l, hl, hflow, rfl, rfl⟩
  · exact hway

/-- A graph that could run still can, from the same entry node. -/
theorem checkRunnable (h : g.Keeps picked g') {e : NodeId} (he : g.checkRunnable = .ok e) :
    g'.checkRunnable = .ok e := by
  obtain ⟨hentry, x, hexit, hreach⟩ := checkRunnable_eq_ok.mp he
  refine checkRunnable_eq_ok.mpr ⟨?_, x, ?_, ?_⟩
  · rw [← hentry, entryNode, entryNode, h.nodes]
  · rw [exitNodes, h.nodes]
    exact hexit
  · rcases reflTransGen_iff_eq_or_transGen.mp hreach with rfl | hreach
    · exact .refl
    · exact (h.reach hreach).to_reflTransGen

end Keeps

/-! ## Splicing -/

/-- Unlinking what bears one of two identities takes back links with these identities, if no others
have them. -/
lemma unlink_unlink_new {g : Graph} {i j : LinkId} (hg : ∀ k ∈ g.links, k.id ≠ i ∧ k.id ≠ j)
    (new : List Link) (hnew : ∀ k ∈ new, k.id = i ∨ k.id = j) :
    (Graph.unlink { g with links := g.links ++ new } i).unlink j = g := by
  have hold : ∀ k ∈ g.links, (k.id != j && k.id != i) = true := fun k hk => by simp [hg k hk]
  have hgone : ∀ k ∈ new, ¬ (k.id != j && k.id != i) = true := fun k hk => by
    rcases hnew k hk with h | h <;> simp [h]
  simp only [Graph.unlink, List.filter_filter, List.filter_append, List.filter_eq_self.mpr hold,
    List.filter_eq_nil_iff.mpr hgone, List.append_nil]

section Splice

variable {g : Graph} (hg : g.WellFormed) (hids : (g.links.map Link.id).Nodup) {l : Link}
  (hl : l ∈ g.links) (hflow : l.flow = true)
include hids hl

/-- A link is kept unless it is the one that is unlinked. -/
lemma mem_unlink_or_eq {k : Link} (hk : k ∈ g.links) : k ∈ (g.unlink l.id).links ∨ k = l := by
  by_cases heq : k.id = l.id
  · exact Or.inr (List.inj_on_of_nodup_map hids hk hl heq)
  · exact Or.inl (by simp [Graph.unlink, hk, heq])

include hflow

/-- If flow still leads from the source of the unlinked link to its target, nothing is lost. -/
lemma keeps_of_way {new : List Link}
    (hway : TransGen { g with links := (g.unlink l.id).links ++ new }.FlowLink
      l.fromNode l.toNode) :
    g.Keeps (some l) { g with links := (g.unlink l.id).links ++ new } := by
  refine ⟨rfl, fun k hk => ?_⟩
  rcases mem_unlink_or_eq hids hl hk with hk | rfl
  · exact Or.inl (List.mem_append_left _ hk)
  · exact Or.inr ⟨hflow, rfl, hway⟩

include hg

/-- **Two halves join what the link has joined**, if they meet at one node. -/
lemma keeps_halved {m : Node} (hm : m ∈ g.nodes) {p q : Pin} (hp : p ∈ m.pins) (hq : q ∈ m.pins)
    {headId tailId : LinkId} {mid done : Graph}
    (hhead : (g.unlink l.id).link headId l.fromPin p.id = .ok mid)
    (htail : mid.link tailId q.id l.toPin = .ok done) : g.Keeps (some l) done := by
  obtain ⟨a, b, p', q', hj⟩ := hg.joins l hl
  obtain ⟨head, a₁, b₁, p₁, q₁, hj₁, -, hfrom₁, hto₁, rfl, -⟩ := link_spec hhead
  obtain ⟨tail, a₂, b₂, p₂, q₂, hj₂, -, hfrom₂, hto₂, rfl, -⟩ := link_spec htail
  obtain ⟨hsource, hheadFlow⟩ := hj.source_eq hg { hj₁ with } hfrom₁
  obtain ⟨htarget, htailFlow⟩ := hj.target_eq hg { hj₂ with } hto₂
  have hin : head.toNode = m.id := by
    obtain ⟨rfl, -⟩ := hg.eq_of_pin hj₁.target hm hj₁.owns_target hp (hj₁.toPin.symm.trans hto₁)
    exact hj₁.toNode
  have hout : tail.fromNode = m.id := by
    obtain ⟨rfl, -⟩ :=
      hg.eq_of_pin hj₂.source hm hj₂.owns_source hq (hj₂.fromPin.symm.trans hfrom₂)
    exact hj₂.fromNode
  have heq : { (g.unlink l.id) with links := (g.unlink l.id).links ++ [head] ++ [tail] } =
      { g with links := (g.unlink l.id).links ++ [head, tail] } := by
    rw [List.append_assoc]
    rfl
  exact heq ▸ keeps_of_way hids hl hflow
    (.head ⟨head, by simp, hheadFlow.trans hflow, hsource, hin⟩
      (.single ⟨tail, by simp, htailFlow.trans hflow, hout, htarget⟩))

omit hids hflow in
/-- **A refused splice is undone.** What has been unlinked can be linked again, behind all other
links. -/
lemma link_again (id : LinkId) : (g.unlink l.id).link id l.fromPin l.toPin =
    .ok { g with links := (g.unlink l.id).links ++ [{ l with id }] } := by
  obtain ⟨a, b, p, q, hj⟩ := hg.joins l hl
  have hmatch : p.canLinkTo q = true := by
    simp [Pin.canLinkTo, hj.output, hj.input, hj.types]
  have hfree : ∀ k ∈ (g.unlink l.id).links, k.toPin ≠ q.id := fun k hk =>
    hj.toPin ▸ hg.toPin_ne_of_mem_unlink hl hk
  have hlink := (hg.unlink l.id).link_eq id hj.source hj.target hj.owns_source hj.owns_target hmatch
    hj.apart hfree
  rw [hj.isFlow_eq.1, ← hj.fromNode, ← hj.fromPin, ← hj.toNode, ← hj.toPin] at hlink
  exact hlink

omit hids hflow in
/-- **What a splice comes to**, whatever pins it runs through: both halves are accepted, or it is
undone and nothing is recorded. The identities drawn for the two halves have to be new to the graph,
because whatever bears one of them is unlinked if the splice is undone. -/
lemma splice_cases {w : Wired} (hw : w.graph = g)
    (hnew : ∀ k ∈ g.links, k.id ≠ w.supply.takeLink.1 ∧ k.id ≠ w.supply.takeLink.2.takeLink.1)
    (input output : PinId) :
    (∃ mid done, (g.unlink l.id).link w.supply.takeLink.1 l.fromPin input = .ok mid ∧
      mid.link w.supply.takeLink.2.takeLink.1 output l.toPin = .ok done ∧
      (w.splice l input output).graph = done ∧
      (w.splice l input output).wiring = ⟨w.wiring.created ++
        [w.supply.takeLink.1, w.supply.takeLink.2.takeLink.1], some l⟩) ∨
    (w.splice l input output).graph = { g with links := (g.unlink l.id).links ++
        [{ l with id := w.supply.takeLink.2.takeLink.2.takeLink.1 }] } ∧
      (w.splice l input output).wiring = w.wiring := by
  have hbare : ∀ k ∈ (g.unlink l.id).links, k.id ≠ w.supply.takeLink.1 ∧
      k.id ≠ w.supply.takeLink.2.takeLink.1 := fun k hk => hnew k (List.mem_of_mem_filter hk)
  have hagain := link_again hg hl w.supply.takeLink.2.takeLink.2.takeLink.1
  simp only [Wired.splice, hw]
  cases hhead : (g.unlink l.id).link w.supply.takeLink.1 l.fromPin input with
  | ok mid =>
    cases htail : mid.link w.supply.takeLink.2.takeLink.1 output l.toPin with
    | ok done => exact Or.inl ⟨mid, done, rfl, htail, rfl, rfl⟩
    | error e =>
      obtain ⟨head, -, -, -, -, -, hid, -, -, rfl, -⟩ := link_spec hhead
      simp only [unlink_unlink_new hbare [head] (by simp [hid]), hagain]
      exact Or.inr ⟨trivial, trivial⟩
  | error e =>
    dsimp only
    cases htail : (g.unlink l.id).link w.supply.takeLink.2.takeLink.1 output l.toPin with
    | ok after =>
      obtain ⟨tail, -, -, -, -, -, hid, -, -, rfl, -⟩ := link_spec htail
      simp only [unlink_unlink_new hbare [tail] (by simp [hid]), hagain]
      exact Or.inr ⟨trivial, trivial⟩
    | error e =>
      have hnone := unlink_unlink_new hbare [] (by simp)
      rw [List.append_nil] at hnone
      simp only [hnone, hagain]
      exact Or.inr ⟨trivial, trivial⟩

/-- **A splice loses nothing**, whatever pins of whatever node it runs through. -/
theorem splice_keeps {m : Node} (hm : m ∈ g.nodes) {p q : Pin} (hp : p ∈ m.pins) (hq : q ∈ m.pins)
    {w : Wired} (hw : w.graph = g)
    (hnew : ∀ k ∈ g.links, k.id ≠ w.supply.takeLink.1 ∧ k.id ≠ w.supply.takeLink.2.takeLink.1) :
    g.Keeps (some l) (w.splice l p.id q.id).graph := by
  rcases splice_cases hg hl hw hnew p.id q.id with
    ⟨mid, done, hhead, htail, rfl, -⟩ | ⟨hrestored, -⟩
  · exact keeps_halved hg hids hl hflow hm hp hq hhead htail
  · rw [hrestored]
    exact keeps_of_way hids hl hflow (.single ⟨_, List.mem_append_right _ List.mem_cons_self,
      hflow, rfl, rfl⟩)

end Splice

/-! ## Wiring -/

/-- The flow link that is picked for a splice through a node: the nearest one, if the node advertises a
free pin on either side. -/
def picked? (g : Graph) (m : Node) : Option Link :=
  match g.freePin? m.advertised.flowIn, g.freePin? m.advertised.flowOut with
  | some _, some _ => g.nearestFlowLink? m.id m.position
  | _, _ => none

/-- The flow step loses nothing. -/
theorem linkFlow_keeps {g : Graph} (hg : g.WellFormed) (hids : (g.links.map Link.id).Nodup)
    {m : Node} (hm : m ∈ g.nodes) {s : Supply}
    (hnew : ∀ l ∈ g.links, l.id ≠ s.takeLink.1 ∧ l.id ≠ s.takeLink.2.takeLink.1) :
    g.Keeps (g.picked? m) ((Wired.mk g s .none).linkFlow m.id m.position
      (g.freePin? m.advertised.flowIn) (g.freePin? m.advertised.flowOut)).graph := by
  have hattached := fun flowIn flowOut picked =>
    (Keeps.of_adds (Wired.attachIn_adds ⟨g, s, .none⟩ m.id m.position flowIn) picked).adds
      (Wired.attachOut_adds _ m.id m.position flowOut)
  rw [picked?]
  cases hin : g.freePin? m.advertised.flowIn with
  | none => exact hattached _ _ _
  | some i =>
    cases hout : g.freePin? m.advertised.flowOut with
    | none => exact hattached _ _ _
    | some o =>
      obtain ⟨p, hp, rfl, -⟩ := freePin?_some hin
      obtain ⟨q, hq, rfl, -⟩ := freePin?_some hout
      simp only [Wired.linkFlow]
      cases hnear : g.nearestFlowLink? m.id m.position with
      | none => exact hattached _ _ _
      | some l =>
        obtain ⟨hl, hflow, -⟩ := nearestFlowLink?_some hnear
        exact splice_keeps hg hids hl hflow hm (Node.mem_pins_of_flow (Or.inl hp))
          (Node.mem_pins_of_flow (Or.inr hq)) rfl hnew

/-- **Wiring never loses a connection.** It succeeds, for nodes of any types. Afterwards flow leads
wherever it led before. Every data link is still there, and so is every flow link but the one that was
picked for the splice. A graph that could run still can, from the same entry node. -/
theorem autoLink_keeps {g : Graph} (hg : g.WellFormed) (hids : (g.links.map Link.id).Nodup)
    {m : Node} (hm : m ∈ g.nodes) {s : Supply}
    (hnew : ∀ l ∈ g.links, l.id ≠ s.takeLink.1 ∧ l.id ≠ s.takeLink.2.takeLink.1) :
    ∃ w, g.autoLink m.id s = .ok w ∧
      (∀ x y, TransGen g.FlowLink x y → TransGen w.graph.FlowLink x y) ∧
      (∀ l ∈ g.links, l.flow = false → l ∈ w.graph.links) ∧
      (∀ l ∈ g.links, l.flow = true → g.picked? m ≠ some l → l ∈ w.graph.links) ∧
      ∀ e, g.checkRunnable = .ok e → w.graph.checkRunnable = .ok e := by
  obtain ⟨w, hw, hkeeps⟩ : ∃ w, g.autoLink m.id s = .ok w ∧ g.Keeps (g.picked? m) w.graph := by
    rw [autoLink, hg.node?_of_mem hm]
    exact ⟨_, rfl, ((linkFlow_keeps hg hids hm hnew).adds
      (Wired.foldl_adds (P := fun i l => l.toPin = i) (Wired.linkInput_adds m.id) _ _)).adds
        (Wired.foldl_adds (P := fun i l => l.fromPin = i) (Wired.linkOutput_adds m.id) _ _)⟩
  refine ⟨w, hw, fun x y => hkeeps.reach, fun l hl hdata => ?_, fun l hl _ hother => ?_,
    fun e => hkeeps.checkRunnable⟩
  · refine (hkeeps.links l hl).resolve_right ?_
    rintro ⟨hflow, -⟩
    rw [hdata] at hflow
    cases hflow
  · refine (hkeeps.links l hl).resolve_right ?_
    rintro ⟨-, hpicked, -⟩
    exact hother hpicked

/-- Flow runs from a start node to an end node; a node of a host type stands apart that advertises its
data pin as if flow came in there. -/
def misadvertised : Graph :=
  let type : ScriptedType :=
    { info := ⟨"Odd", 1, .internal, "Host"⟩, display := "Odd", pins := []
      flowIn := some ⟨.input, "Value"⟩, flowOut := some ⟨.output, "Exit"⟩
      dataIn := [], dataOut := [], script := [], noteReset := false }
  let nodes := [exampleNode 1 (.start ⟨Uuid.ofNat 11⟩),
    exampleNode 2 (.finish ⟨⟨Uuid.ofNat 21⟩, ⟨Uuid.ofNat 22⟩⟩),
    exampleNode 3 (.scripted type [.input ⟨Uuid.ofNat 31⟩ "Value" .float]
      [.output ⟨Uuid.ofNat 32⟩ "Exit" .flow])]
  { name := "misadvertised", nodes, owners := indexOf nodes
    links := [exampleLink 61 1 11 2 21 true] }

theorem misadvertised_wellFormed : misadvertised.WellFormed := by
  refine wellFormed_of_indexOf rfl (by decide) (by decide) (fun l hl => ?_) (by decide)
  obtain rfl := List.mem_singleton.mp hl
  exact joins_of_getElem? (i := 0) (j := 1) (k := 0) (m := 0) rfl rfl rfl rfl rfl (by decide) rfl

/-- The splice is refused and undone, and the example can still run. -/
theorem misadvertised_keeps : ∃ w,
    misadvertised.autoLink ⟨Uuid.ofNat 3⟩ (.countingFrom 100) = .ok w ∧
      w.graph.checkRunnable = .ok ⟨Uuid.ofNat 1⟩ := by
  obtain ⟨m, hm, hid⟩ := mem_nodeIds.mp
    (show ⟨Uuid.ofNat 3⟩ ∈ misadvertised.nodeIds by decide)
  obtain ⟨w, hw, -, -, -, hrun⟩ := autoLink_keeps misadvertised_wellFormed (by decide) hm
    (s := .countingFrom 100) (by decide)
  exact ⟨w, hid ▸ hw, hrun _ (by decide +kernel)⟩

end Graph

end Patchbay
