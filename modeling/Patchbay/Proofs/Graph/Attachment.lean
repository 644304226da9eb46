import Patchbay.Proofs.Graph.Nearest
import Patchbay.Proofs.Graph.Requests
import Patchbay.Proofs.Graph.Splice

/-!
# Attaching a node to flow

A node is brought into flow in one of two ways. If both its flow pins are free and some flow link does not
touch it, the nearest of these links is split. Otherwise each of its free flow pins is joined to the nearest
node that has a free counterpart (`Recorded.Attached`). `Graph.FlowStage` is what comes of either way, and
`Graph.flowStage` says that nothing else happens.

What the first attachment takes up is of no use to the second one, which looks for pins of the other direction
(`Graph.openNodes_grown`). So one may say of both what is nearest in the graph as it was. That is done in
**`Graph.autoLink_nearest`**.
-/

namespace Patchbay

namespace Graph

variable {g : Graph} {d : Direction} {m b c : Node} {p o : Pin}

/-! ## Free flow pins -/

lemma freePin?_eq_some {pin : Option Pin} {i : PinId} :
    g.freePin? pin = some i ↔ ∃ p, pin = some p ∧ g.isLinked p.id = false ∧ p.id = i := by
  simp [freePin?, Option.filter_eq_some_iff, and_assoc]

lemma freePin?_eq_none {pin : Option Pin} :
    g.freePin? pin = none ↔ ∀ p, pin = some p → g.isLinked p.id = true := by
  simp [freePin?, Option.filter_eq_none_iff]

/-- The other nodes that have a free flow pin to be attached to, in order. -/
def openNodes (g : Graph) (n : NodeId) (d : Direction) : List Node :=
  (g.nodes.filter fun b => b.id != n).filter fun b => (g.freePin? (b.preferredFlow d)).isSome

lemma mem_openNodes {n : NodeId} : b ∈ g.openNodes n d ↔ b ∈ g.nodes ∧ b.id ≠ n ∧
    ∃ o, b.preferredFlow d = some o ∧ g.isLinked o.id = false := by
  simp only [openNodes, List.mem_filter, bne_iff_ne, Option.isSome_iff_exists, freePin?_eq_some,
    and_assoc]
  refine and_congr_right fun _ => and_congr_right fun _ => ⟨?_, ?_⟩
  · rintro ⟨_, o, ho, hfree, -⟩
    exact ⟨o, ho, hfree⟩
  · rintro ⟨o, ho, hfree⟩
    exact ⟨o.id, o, ho, hfree, rfl⟩

/-- How far away another node is, as wiring compares it. -/
def distance (m b : Node) : Float32 := b.position.distanceSquared m.position

/-- How far away the middle of a link is, as wiring compares it. -/
def distanceToLink (g : Graph) (m : Node) (l : Link) : Float32 :=
  (Point.midpoint (g.positionOf l.fromNode) (g.positionOf l.toNode)).distanceSquared m.position

lemma nearestFlowPin?_eq : g.nearestFlowPin? m.id m.position d =
    nearest? ((g.nodes.filter fun b => b.id != m.id).filterMap fun b =>
      (g.freePin? (b.preferredFlow d)).map fun i => (distance m b, i)) := by
  simp only [nearestFlowPin?, freePin?, Option.map_map]
  rfl

lemma nearestFlowPin?_none (h : g.nearestFlowPin? m.id m.position d = none) :
    g.openNodes m.id d = [] := by
  rw [nearestFlowPin?_eq] at h
  have hnil := List.filterMap_eq_nil_iff.mp (nearest?_none h)
  refine List.filter_eq_nil_iff.mpr fun b hb => ?_
  have hnone := Option.map_eq_none_iff.mp (hnil b hb)
  simp [hnone]

/-- What is found is a free pin of an open node. If all distances are numbers, that is the nearest one. -/
lemma nearestFlowPin?_some (hg : g.WellFormed) {i : PinId}
    (h : g.nearestFlowPin? m.id m.position d = some i) :
    ∃ b o, b ∈ g.openNodes m.id d ∧ b.preferredFlow d = some o ∧ g.isLinked o.id = false ∧ o.id = i ∧
      ((∀ c ∈ g.openNodes m.id d, (distance m c).isNaN = false) →
        Nearest (distance m) (g.openNodes m.id d) b) := by
  rw [nearestFlowPin?_eq] at h
  have hopen : ∀ {b : Node} {j : PinId}, b ∈ g.nodes.filter (fun b => b.id != m.id) →
      g.freePin? (b.preferredFlow d) = some j → b ∈ g.openNodes m.id d := fun hb hj =>
    List.mem_filter.mpr ⟨hb, by rw [hj]; rfl⟩
  obtain ⟨_, hmem⟩ := nearest?_mem h
  obtain ⟨b, hb, hoffer⟩ := List.mem_filterMap.mp hmem
  obtain ⟨j, hj, heq⟩ := Option.map_eq_some_iff.mp hoffer
  obtain ⟨-, rfl⟩ := Prod.mk.inj heq
  obtain ⟨o, ho, hfree, hid⟩ := freePin?_eq_some.mp hj
  refine ⟨b, o, hopen hb hj, ho, hfree, hid, fun hnumbers => ?_⟩
  have hnumber : ∀ c ∈ (g.nodes.filter fun b => b.id != m.id).filterMap fun b =>
      (g.freePin? (b.preferredFlow d)).map fun i => (distance m b, i), c.1.isNaN = false := by
    intro c hc
    obtain ⟨a, ha, hofferA⟩ := List.mem_filterMap.mp hc
    obtain ⟨k, hk, rfl⟩ := Option.map_eq_some_iff.mp hofferA
    exact hnumbers a (hopen ha hk)
  obtain ⟨_, hfirst⟩ := nearest?_spec hnumber h
  obtain ⟨b', hj', hnear⟩ := hfirst.of_filterMap
  -- the pin tells its node
  obtain ⟨o', ho', -, hid'⟩ := freePin?_eq_some.mp hj'
  have hb' := List.mem_of_mem_filter (List.mem_of_mem_filter hnear.mem)
  obtain ⟨rfl, -⟩ := hg.eq_of_pin hb' (List.mem_of_mem_filter hb)
    (Node.mem_pins_of_preferredFlow ho') (Node.mem_pins_of_preferredFlow ho) (hid'.trans hid.symm)
  exact hnear

/-! ## One end -/

/-- Nothing is left to be done for the flow pin of a node on one side: it is linked, if there is one, or no
other node is open. -/
def FlowSettled (g : Graph) (d : Direction) (m : Node) : Prop :=
  ∀ p, m.preferredFlow d = some p → g.isLinked p.id = true ∨ g.openNodes m.id d.opposite = []

/-- Flow pin `p` of node `m` is free, and so is flow pin `o` of node `b`, which is as near as any that is
open. -/
structure Attachable (g : Graph) (d : Direction) (m b : Node) (p o : Pin) : Prop where
  preferred : m.preferredFlow d = some p
  free : g.isLinked p.id = false
  other : b ∈ g.openNodes m.id d.opposite
  other_preferred : b.preferredFlow d.opposite = some o
  other_free : g.isLinked o.id = false
  nearest : (∀ c ∈ g.openNodes m.id d.opposite, (distance m c).isNaN = false) →
    Nearest (distance m) (g.openNodes m.id d.opposite) b

lemma Attachable.joinable (h : g.Attachable d m b p o) (hflow : ∀ a ∈ g.nodes, a.AdvertisesFlow)
    (hm : m ∈ g.nodes) : g.Joinable d m b p o := by
  obtain ⟨hb, hapart, -⟩ := mem_openNodes.mp h.other
  obtain ⟨howns, hdirection, hcarries⟩ := (hflow m hm).preferred h.preferred
  obtain ⟨howns', hdirection', hcarries'⟩ := (hflow b hb).preferred h.other_preferred
  exact ⟨hm, hb, hapart, howns, howns', hdirection, hdirection', .inl ⟨hcarries, hcarries'⟩,
    unfed_of_not_isLinked h.free h.other_free⟩

/-- What comes of the flow pin of a node on one side. -/
inductive Recorded.Attached (d : Direction) (m : Node) (x : Recorded) : Recorded → Prop
  | settled (settled : x.graph.FlowSettled d m) : Attached d m x x
  | joined (b : Node) (p o : Pin) (link : x.graph.Attachable d m b p o) :
    Attached d m x (x.grown (.between d x.supply.takeLink.1 m b p o))

namespace Recorded

lemma Attached.nodes {x y : Recorded} (h : Attached d m x y) : y.graph.nodes = x.graph.nodes := by
  cases h <;> rfl

/-- At most one link is added. -/
lemma Attached.adds {x y : Recorded} (h : Attached d m x y) :
    ∃ new, y.graph.links = x.graph.links ++ new ∧
      ∀ l ∈ new, ∃ b p o, x.graph.Attachable d m b p o ∧ l = .between d l.id m b p o := by
  cases h with
  | settled => exact ⟨[], by simp, by simp⟩
  | joined b p o link =>
    refine ⟨_, rfl, fun l hl => ?_⟩
    obtain rfl := List.mem_singleton.mp hl
    exact ⟨b, p, o, link, by rw [Link.between_id]⟩

/-- What leads to a free pin of the node afterwards: nothing, for no other node is open, or the one link
that has been made. -/
lemma Attached.linksAt_preferred {x y : Recorded} (h : Attached d m x y)
    (hp : m.preferredFlow d = some p) (hfree : x.graph.isLinked p.id = false) :
    (x.graph.openNodes m.id d.opposite = [] ∧ y.graph.linksAt p.id = []) ∨
    ∃ b o id, x.graph.Attachable d m b p o ∧ y.graph.linksAt p.id = [.between d id m b p o] := by
  have hnone := linksAt_eq_nil.mpr hfree
  cases h with
  | settled settled => exact .inl ⟨(settled p hp).resolve_left (by simp [hfree]), hnone⟩
  | joined b p' o link =>
    obtain rfl : p' = p := Option.some.inj (link.preferred.symm.trans hp)
    have htouch : (Link.between d x.supply.takeLink.1 m b p' o).involvesPin p'.id = true :=
      Link.involvesPin_between.mpr (.inl rfl)
    refine .inr ⟨b, o, x.supply.takeLink.1, link, ?_⟩
    rw [linksAt, grown, List.filter_append, ← linksAt, hnone]
    simp [htouch]

variable {x y : Recorded} (hx : x.graph.WellFormed)
  (hflow : ∀ a ∈ x.graph.nodes, a.AdvertisesFlow) (hm : m ∈ x.graph.nodes)
include hx hflow hm

/-- **What wiring does for the flow pin on one side.** -/
lemma attach_attached :
    Attached d m x (x.attach m.id m.position d (x.graph.freePin? (m.preferredFlow d))) := by
  cases hfree : x.graph.freePin? (m.preferredFlow d) with
  | none => exact .settled fun p hp => .inl (freePin?_eq_none.mp hfree p hp)
  | some i =>
    obtain ⟨p, hp, hpfree, rfl⟩ := freePin?_eq_some.mp hfree
    simp only [attach]
    cases hnear : x.graph.nearestFlowPin? m.id m.position d.opposite with
    | none => exact .settled fun _ _ => .inr (nearestFlowPin?_none hnear)
    | some j =>
      obtain ⟨b, o, hb, ho, hofree, rfl, hnearest⟩ := nearestFlowPin?_some hx hnear
      have hlink : x.graph.Attachable d m b p o := ⟨hp, hpfree, hb, ho, hofree, hnearest⟩
      dsimp only
      rw [tryJoin_eq hx (hlink.joinable hflow hm)]
      exact .joined b p o hlink

lemma Attached.wellFormed (h : Attached d m x y) : y.graph.WellFormed := by
  cases h with
  | settled => exact hx
  | joined b p o link => exact grown_wellFormed hx (link.joinable hflow hm) _

/-- Attaching one side leaves alone what is to be attached on the other: the pins of the node itself of the
other direction, and those of other nodes that face the same way. -/
lemma Attached.linksAt_eq (h : Attached d m x y) {e : Direction} (hc : c ∈ x.graph.nodes)
    (hside : c = m ∧ e ≠ d ∨ c ≠ m ∧ e = d) {r : Pin} (hr : c.preferredFlow e = some r) :
    y.graph.linksAt r.id = x.graph.linksAt r.id := by
  cases h with
  | settled => rfl
  | joined b p o link =>
    have hjoin := link.joinable hflow hm
    obtain ⟨howns, hdirection, -⟩ := (hflow c hc).preferred hr
    have hapart : (Link.between d x.supply.takeLink.1 m b p o).involvesPin r.id = false := by
      rw [Bool.eq_false_iff, ne_eq, hjoin.involvesPin_iff hx hc howns]
      have hturned : d.opposite ≠ d := by cases d <;> simp [Direction.opposite]
      rintro (⟨rfl, rfl⟩ | ⟨rfl, rfl⟩)
      · exact hside.elim (fun h => h.2 (hdirection.symm.trans hjoin.direction)) fun h => h.1 rfl
      · have he : e = d.opposite := hdirection.symm.trans hjoin.opposite
        exact hside.elim (fun h => hjoin.apart (congrArg Node.id h.1))
          fun h => hturned (he.symm.trans h.2)
    simp [linksAt, grown, hapart]

/-- What is free for the other side stays free. -/
lemma Attached.freePin?_eq (h : Attached d m x y) {e : Direction} (hc : c ∈ x.graph.nodes)
    (hside : c = m ∧ e ≠ d ∨ c ≠ m ∧ e = d) :
    y.graph.freePin? (c.preferredFlow e) = x.graph.freePin? (c.preferredFlow e) := by
  simp only [freePin?]
  cases hr : c.preferredFlow e with
  | none => rfl
  | some r =>
    simp only [Option.filter_some, isLinked_eq_linksAt, h.linksAt_eq hx hflow hm hc hside hr]

/-- Attaching one side leaves the same nodes open to the other. -/
lemma Attached.openNodes_eq (h : Attached d m x y) :
    y.graph.openNodes m.id d = x.graph.openNodes m.id d := by
  rw [openNodes, openNodes, h.nodes]
  refine List.filter_congr fun b hb => ?_
  obtain ⟨hmem, hne⟩ := List.mem_filter.mp hb
  rw [h.freePin?_eq hx hflow hm hmem (.inr ⟨fun heq => by simp [heq] at hne, rfl⟩)]

/-- What may be attached on the other side afterwards could have been attached before. -/
lemma Attached.attachable (h : Attached d m x y) {e : Direction} (he : e.opposite = d)
    (hlink : y.graph.Attachable e m b p o) : x.graph.Attachable e m b p o := by
  have hturned : e ≠ d := by rintro rfl; cases e <;> simp [Direction.opposite] at he
  obtain ⟨preferred, free, other, other_preferred, other_free, nearest⟩ := hlink
  rw [he, h.openNodes_eq hx hflow hm] at other nearest
  obtain ⟨-, -, o', ho', hfree⟩ := mem_openNodes.mp other
  obtain rfl : o' = o := Option.some.inj (ho'.symm.trans (he ▸ other_preferred))
  refine ⟨preferred, ?_, he ▸ other, other_preferred, hfree, he ▸ nearest⟩
  rw [← linksAt_eq_nil, ← h.linksAt_eq hx hflow hm hm (.inl ⟨rfl, hturned⟩) preferred,
    linksAt_eq_nil]
  exact free

end Recorded

/-! ## Both ends -/

/-- A node is to be spliced in: its flow pins are free on both sides, and some flow link does not touch it. -/
def Splices (g : Graph) (m : Node) : Prop :=
  (∀ d, ∃ p, m.preferredFlow d = some p ∧ g.isLinked p.id = false) ∧
    ∃ l ∈ g.links, l.flow = true ∧ l.involvesNode m.id = false

/-- The distances that are compared are numbers. -/
structure Measurable (g : Graph) (m : Node) : Prop where
  links : g.Splices m → ∀ l ∈ g.links, l.flow = true → l.involvesNode m.id = false →
    (g.distanceToLink m l).isNaN = false
  nodes : ¬ g.Splices m → ∀ d p, m.preferredFlow d = some p → g.isLinked p.id = false →
    ∀ b ∈ g.openNodes m.id d.opposite, (distance m b).isNaN = false

/-- The flow step of wiring. -/
def flowWired (g : Graph) (m : Node) (s : Supply) : Recorded :=
  (g.opened none s).linkFlow m.id m.position (g.freePin? (m.preferredFlow .input))
    (g.freePin? (m.preferredFlow .output))

lemma autoLinkRecorded_eq (hg : g.WellFormed) (hm : m ∈ g.nodes) (s : Supply) :
    g.autoLinkRecorded m.id s = .ok
      ((g.freeData (m.preferredData .output)).foldl (Recorded.linkData m.id .output)
        ((g.freeData (m.preferredData .input)).foldl (Recorded.linkData m.id .input)
          (g.flowWired m s))) := by
  rw [autoLinkRecorded, hg.node?_of_mem hm]
  rfl

lemma flowWired_wellFormed (hg : g.WellFormed) (m : Node) (s : Supply) :
    (g.flowWired m s).graph.WellFormed := by
  have hkept := Wired.linkFlow_kept wellFormed_keptByWiring (w := (g.opened none s).toWired) hg m.id
    m.position (g.freePin? (m.preferredFlow .input)) (g.freePin? (m.preferredFlow .output))
  rwa [← Recorded.linkFlow_toWired] at hkept

/-- **A link is picked for a splice exactly if there is to be one.** Otherwise both sides are attached. -/
lemma picked?_cases (g : Graph) (m : Node) (s : Supply) :
    (g.picked? m = none ∧ ¬ g.Splices m ∧
      g.flowWired m s =
      ((g.opened none s).attach m.id m.position .input (g.freePin? (m.preferredFlow .input))).attach
        m.id m.position .output (g.freePin? (m.preferredFlow .output))) ∨
    ∃ l p q, g.picked? m = some l ∧ g.Splices m ∧ m.preferredFlow .input = some p ∧
      m.preferredFlow .output = some q ∧ g.isLinked p.id = false ∧ g.isLinked q.id = false ∧
      g.nearestFlowLink? m.id m.position = some l ∧
      g.flowWired m s = (g.opened none s).splice l p.id q.id := by
  have htaken : ∀ d, g.freePin? (m.preferredFlow d) = none → ¬ g.Splices m := by
    rintro d hd ⟨hfree, -⟩
    obtain ⟨p, hp, hpfree⟩ := hfree d
    rw [freePin?_eq_none.mp hd p hp] at hpfree
    cases hpfree
  have hin : m.preferredFlow .input = m.advertised.flowIn := rfl
  have hout : m.preferredFlow .output = m.advertised.flowOut := rfl
  rw [flowWired, hin, hout]
  cases hi : g.freePin? m.advertised.flowIn with
  | none => exact .inl ⟨by rw [picked?, hi], htaken .input hi, rfl⟩
  | some i =>
    cases ho : g.freePin? m.advertised.flowOut with
    | none => exact .inl ⟨by rw [picked?, hi, ho], htaken .output ho, rfl⟩
    | some o =>
      have hpicked : g.picked? m = g.nearestFlowLink? m.id m.position := by rw [picked?, hi, ho]
      cases hnear : g.nearestFlowLink? m.id m.position with
      | none =>
        refine .inl ⟨hpicked.trans hnear, ?_, ?_⟩
        · rintro ⟨-, l, hl, hcarries, hfar⟩
          rw [nearestFlowLink?_none hnear l hl hcarries] at hfar
          cases hfar
        · simp only [Recorded.linkFlow, show (g.opened none s).graph = g from rfl, hnear]
      | some l =>
        obtain ⟨p, hp, hpfree, rfl⟩ := freePin?_eq_some.mp hi
        obtain ⟨q, hq, hqfree, rfl⟩ := freePin?_eq_some.mp ho
        obtain ⟨hl, hcarries, hfar⟩ := nearestFlowLink?_some hnear
        refine .inr ⟨l, p, q, hpicked.trans hnear, ⟨fun d => ?_, l, hl, hcarries, hfar⟩, hp, hq,
          hpfree, hqfree, rfl, ?_⟩
        · cases d with
          | input => exact ⟨p, hp, hpfree⟩
          | output => exact ⟨q, hq, hqfree⟩
        · simp only [Recorded.linkFlow, show (g.opened none s).graph = g from rfl, hnear]

/-- If all distances are numbers, it is the nearest link that is split. -/
lemma nearestFlowLink?_nearest (hnumbers : g.Measurable m) (hsplices : g.Splices m) {l : Link}
    (h : g.nearestFlowLink? m.id m.position = some l) :
    Nearest (g.distanceToLink m) (g.links.filter fun l => l.flow && !l.involvesNode m.id) l := by
  have hnumber : ∀ c ∈ (g.links.filter fun l => l.flow && !l.involvesNode m.id).map fun l =>
      (g.distanceToLink m l, l), c.1.isNaN = false := by
    intro c hc
    obtain ⟨k, hk, rfl⟩ := List.mem_map.mp hc
    simp only [List.mem_filter, Bool.and_eq_true, Bool.not_eq_true'] at hk
    exact hnumbers.links hsplices k hk.1 hk.2.1 hk.2.2
  obtain ⟨_, hfirst⟩ := nearest?_spec hnumber h
  exact hfirst.of_map

/-- What comes of the flow pins of a node. -/
inductive FlowStage (g : Graph) (m : Node) (s : Supply) : Recorded → Prop
  /-- The picked link gives way to two halves, which meet at the node. -/
  | spliced (l : Link) (a b : Node) (p q r t : Pin) (picked : g.picked? m = some l)
    (splices : g.Splices m) (near : g.nearestFlowLink? m.id m.position = some l)
    (joins : g.Joins l a b r t) (entrance : m.preferredFlow .input = some p)
    (exit : m.preferredFlow .output = some q) (entrance_free : g.isLinked p.id = false)
    (exit_free : g.isLinked q.id = false)
    (head : Request.Granted ⟨(g.opened (some l) s).graph, r.id, p.id⟩)
    (tail : Request.Granted
      ⟨((g.opened (some l) s).grown (.between .input s.takeLink.1 m a p r)).graph, q.id, t.id⟩) :
    FlowStage g m s (((g.opened (some l) s).grown (.between .input s.takeLink.1 m a p r)).grown
      (.between .output s.takeLink.2.takeLink.1 m b q t))
  /-- Both sides are attached, one after the other. -/
  | attached (y x : Recorded) (picked : g.picked? m = none) (unfit : ¬ g.Splices m)
    (entrance : Recorded.Attached .input m (g.opened none s) y)
    (exit : Recorded.Attached .output m y x) : FlowStage g m s x

lemma Recorded.splice_eq {x : Recorded} {l : Link} {i o : PinId} {mid done : Graph}
    (hhead : (x.graph.unlink l.id).link x.supply.takeLink.1 l.fromPin i = .ok mid)
    (htail : mid.link x.supply.takeLink.2.takeLink.1 o l.toPin = .ok done) :
    x.splice l i o = { graph := done, supply := x.supply.takeLink.2.takeLink.2
                       wiring := ⟨x.wiring.created ++
                        [x.supply.takeLink.1, x.supply.takeLink.2.takeLink.1], some l⟩
                       requests := x.requests ++ [⟨x.graph.unlink l.id, l.fromPin, i⟩] ++
                        [⟨mid, o, l.toPin⟩] } := by
  simp only [splice, ask, hhead, htail]

/-- **What the flow step comes to.** -/
theorem flowStage (hg : g.WellFormed) (hflow : ∀ a ∈ g.nodes, a.AdvertisesFlow) (hm : m ∈ g.nodes)
    (s : Supply) : g.FlowStage m s (g.flowWired m s) := by
  rcases g.picked?_cases m s with ⟨hpicked, hunfit, heq⟩ |
    ⟨l, p, q, hpicked, hsplices, hp, hq, hpfree, hqfree, hnear, heq⟩
  · rw [heq]
    have hfirst := Recorded.attach_attached (x := g.opened none s) (d := .input) hg hflow hm
    have hkept := hfirst.freePin?_eq hg hflow hm (e := .output) hm (.inl ⟨rfl, by decide⟩)
    have hsecond := Recorded.attach_attached (d := .output) (hfirst.wellFormed hg hflow hm)
      (m := m) (hfirst.nodes ▸ hflow) (hfirst.nodes ▸ hm)
    rw [hkept] at hsecond
    exact .attached _ _ hpicked hunfit hfirst hsecond
  · obtain ⟨hl, hcarries, hfar⟩ := nearestFlowLink?_some hnear
    obtain ⟨a, b, r, t, hj⟩ := hg.joins l hl
    obtain ⟨hpown, -, hpcarries⟩ := (hflow m hm).preferred hp
    obtain ⟨hqown, -, hqcarries⟩ := (hflow m hm).preferred hq
    have hhalves := halves_accepted hg hm hl hcarries hfar
      ⟨hpown, (hflow m hm).entrance p hp⟩ ⟨hqown, (hflow m hm).exit q hq⟩
      (fun k hk => (unfed_of_not_isLinked hpfree hqfree k hk).1)
    obtain ⟨mid, hhead, rfl, htail⟩ := hhalves s.takeLink.1 s.takeLink.2.takeLink.1
    have hhalf : Link.between .input s.takeLink.1 m a p r =
        ⟨s.takeLink.1, l.fromNode, l.fromPin, m.id, p.id, true⟩ := by
      rw [Link.between, hpcarries, hj.fromNode, hj.fromPin]
    have hhalf' : Link.between .output s.takeLink.2.takeLink.1 m b q t =
        ⟨s.takeLink.2.takeLink.1, m.id, q.id, l.toNode, l.toPin, true⟩ := by
      rw [Link.between, hqcarries, hj.toNode, hj.toPin]
    have hhalved : (g.opened none s).splice l p.id q.id =
        ((g.opened (some l) s).grown (.between .input s.takeLink.1 m a p r)).grown
          (.between .output s.takeLink.2.takeLink.1 m b q t) := by
      rw [Recorded.splice_eq (x := g.opened none s) hhead htail, hhalf, hhalf']
      rfl
    rw [heq, hhalved]
    refine .spliced l a b p q r t hpicked hsplices hnear hj hp hq hpfree hqfree ?_ ?_
    · intro id
      obtain ⟨mid, hmid, -⟩ := hhalves id id
      exact ⟨mid, hj.fromPin ▸ hmid⟩
    · intro id
      obtain ⟨mid, -, rfl, hdone⟩ := hhalves s.takeLink.1 id
      rw [hhalf]
      exact ⟨_, hj.toPin ▸ hdone⟩

section Attached

variable (hg : g.WellFormed) (hflow : ∀ a ∈ g.nodes, a.AdvertisesFlow) (hm : m ∈ g.nodes) {s : Supply}
  {x y : Recorded} (hin : Recorded.Attached .input m (g.opened none s) y)
  (hout : Recorded.Attached .output m y x)
include hg hflow hm hin hout

/-- All that is added are links that could have been made to the graph as it was. -/
lemma attached_adds : ∃ new, x.graph.links = g.links ++ new ∧
    ∀ l ∈ new, ∃ d b p o, g.Attachable d m b p o ∧ l = .between d l.id m b p o := by
  obtain ⟨ins, hins, hmade⟩ := hin.adds
  obtain ⟨outs, houts, hmade'⟩ := hout.adds
  refine ⟨ins ++ outs, by rw [houts, hins, List.append_assoc]; rfl, fun l hl => ?_⟩
  rcases List.mem_append.mp hl with hl | hl
  · exact ⟨.input, hmade l hl⟩
  · obtain ⟨b, p, o, hlink, heq⟩ := hmade' l hl
    exact ⟨.output, b, p, o, hin.attachable hg hflow hm rfl hlink, heq⟩

/-- **What comes of one side in the end**, in terms of the graph as it was. -/
lemma linksAt_attached (hp : m.preferredFlow d = some p) (hfree : g.isLinked p.id = false) :
    (g.openNodes m.id d.opposite = [] ∧ x.graph.linksAt p.id = []) ∨
    ∃ b o id, g.Attachable d m b p o ∧ x.graph.linksAt p.id = [.between d id m b p o] := by
  have hy := hin.wellFormed hg hflow hm
  cases d with
  | input =>
    rw [hout.linksAt_eq hy (hin.nodes ▸ hflow) (hin.nodes ▸ hm) (hin.nodes ▸ hm)
      (.inl ⟨rfl, by decide⟩) hp]
    exact hin.linksAt_preferred hp hfree
  | output =>
    have hkept := hin.linksAt_eq hg hflow hm hm (.inl ⟨rfl, by decide⟩) hp
    have hfree' : y.graph.isLinked p.id = false := by
      rw [← linksAt_eq_nil, hkept]
      exact linksAt_eq_nil.mpr hfree
    refine (hout.linksAt_preferred hp hfree').imp (fun h => ⟨?_, h.2⟩) ?_
    · exact (hin.openNodes_eq hg hflow hm).symm.trans h.1
    · rintro ⟨b, o, id, hlink, heq⟩
      exact ⟨b, o, id, hin.attachable hg hflow hm rfl hlink, heq⟩

end Attached

/-- The data links that come after the flow step do not touch flow pins. -/
lemma Adds.linksAt_eq {g' : Graph} (h : g.Adds (fun l => l.flow = false) g') (hg : g.WellFormed)
    (hc : c ∈ g.nodes) (hp : p ∈ c.pins) (hflow : p.isFlow = true) :
    g'.linksAt p.id = g.linksAt p.id := by
  obtain ⟨new, rfl, hnew⟩ := h
  have hnone : new.filter (fun l => l.involvesPin p.id) = [] := by
    refine List.filter_eq_nil_iff.mpr fun l hl htouch => ?_
    obtain ⟨⟨a, b, q, r, hj⟩, hdata⟩ := hnew l hl
    simp only [Link.involvesPin, Bool.or_eq_true, beq_iff_eq] at htouch
    have hcarries : l.flow = p.isFlow := by
      rcases htouch with hfrom | hto
      · obtain ⟨-, rfl⟩ := hg.eq_of_pin hj.source hc hj.owns_source hp (hj.fromPin.symm.trans hfrom)
        exact hj.isFlow_eq.1.symm
      · obtain ⟨-, rfl⟩ := hg.eq_of_pin hj.target hc hj.owns_target hp (hj.toPin.symm.trans hto)
        exact hj.isFlow_eq.2.symm
    rw [hdata, hflow] at hcarries
    cases hcarries
  simp only [linksAt, List.filter_append, hnone, List.append_nil]

/-- Only links change in the flow step. -/
lemma FlowStage.links_only {s : Supply} {x : Recorded} (h : g.FlowStage m s x) :
    x.graph = { g with links := x.graph.links } := by
  cases h with
  | spliced => rfl
  | attached y _ _ _ entrance exit => cases entrance <;> cases exit <;> rfl

/-- **Wiring is a flow step, after which data links are added.** -/
lemma autoLink_flowStage (hg : g.WellFormed) (hflow : ∀ a ∈ g.nodes, a.AdvertisesFlow)
    (hm : m ∈ g.nodes) (s : Supply) : ∃ x w, g.FlowStage m s x ∧ x.graph.WellFormed ∧
      g.autoLink m.id s = .ok w ∧ w.wiring.removed = x.wiring.removed ∧
      x.graph.Adds (fun l => l.flow = false) w.graph := by
  have hstage := flowStage hg hflow hm s
  have hwired : (g.flowWired m s).toWired = (Wired.mk g s .none).linkFlow m.id m.position
      (g.freePin? (m.preferredFlow .input)) (g.freePin? (m.preferredFlow .output)) :=
    Recorded.linkFlow_toWired _ m.id m.position _ _
  refine ⟨_, _, hstage, flowWired_wellFormed hg m s, ?_, ?_, linkData_adds hg hm hstage.links_only⟩
  · rw [autoLink, hg.node?_of_mem hm, hwired]
    rfl
  · rw [Wired.foldl_removed (Wired.linkOutput_removed m.id),
      Wired.foldl_removed (Wired.linkInput_removed m.id)]

lemma unlink_eq_erase (hids : (g.links.map Link.id).Nodup) {l : Link} (hl : l ∈ g.links) :
    (g.unlink l.id).links = g.links.erase l := by
  rw [hids.of_map.erase_eq_filter]
  refine List.filter_congr fun k hk => ?_
  rw [Bool.eq_iff_iff, bne_iff_ne, bne_iff_ne]
  exact not_congr ⟨List.inj_on_of_nodup_map hids hk hl, congrArg Link.id⟩

/-- **Flow is attached to what is nearest.** If the node is to be spliced in, then of the flow links that do not
touch it exactly the one is split whose middle is nearest. Otherwise no link is taken away, and each of its
free flow pins is joined by one link to the free flow pin of the nearest other node that has one, or stays
free because there is none. Of equals the earliest is taken. -/
theorem autoLink_nearest (hg : g.WellFormed) (hids : (g.links.map Link.id).Nodup)
    (hflow : ∀ a ∈ g.nodes, a.AdvertisesFlow) (hm : m ∈ g.nodes) (hnumbers : g.Measurable m)
    (s : Supply) : ∃ w, g.autoLink m.id s = .ok w ∧
      (g.Splices m → ∃ l p q head tail data,
        Nearest (g.distanceToLink m) (g.links.filter fun l => l.flow && !l.involvesNode m.id) l ∧
        w.wiring.removed = some l ∧
        m.preferredFlow .input = some p ∧ m.preferredFlow .output = some q ∧
        w.graph.links = g.links.erase l ++ (⟨head, l.fromNode, l.fromPin, m.id, p.id, true⟩ ::
          ⟨tail, m.id, q.id, l.toNode, l.toPin, true⟩ :: data) ∧
        ∀ k ∈ data, k.flow = false) ∧
      (¬ g.Splices m → w.wiring.removed = none ∧
        (∃ new, w.graph.links = g.links ++ new ∧ ∀ k ∈ new, k.flow = true →
          ∃ d p, m.preferredFlow d = some p ∧ g.isLinked p.id = false ∧ k.involvesPin p.id = true) ∧
        ∀ d p, m.preferredFlow d = some p → g.isLinked p.id = false →
          (g.openNodes m.id d.opposite = [] ∧ w.graph.isLinked p.id = false) ∨
          ∃ b o id, Nearest (distance m) (g.openNodes m.id d.opposite) b ∧
            b.preferredFlow d.opposite = some o ∧ g.isLinked o.id = false ∧
            w.graph.linksAt p.id = [.between d id m b p o]) := by
  obtain ⟨x, w, hstage, hx, hw, hremoved, hdata⟩ := autoLink_flowStage hg hflow hm s
  refine ⟨w, hw, fun hsplices => ?_, fun hunfit => ?_⟩
  · cases hstage with
    | attached y _ _ hunfit => exact absurd hsplices hunfit
    | spliced l a b p q r t picked _ near joins entrance exit =>
      obtain ⟨hl, -, -⟩ := nearestFlowLink?_some near
      obtain ⟨data, hgraph, hnew⟩ := hdata
      refine ⟨l, p, q, s.takeLink.1, s.takeLink.2.takeLink.1, data,
        nearestFlowLink?_nearest hnumbers hsplices near, hremoved, entrance, exit, ?_, fun k hk => (hnew k hk).2⟩
      have hp := ((hflow m hm).preferred entrance).2.2
      have hq := ((hflow m hm).preferred exit).2.2
      rw [hgraph]
      simp [Recorded.grown, opened, unlink_eq_erase hids hl, Link.between, hp, hq, joins.fromNode,
        joins.fromPin, joins.toNode, joins.toPin]
  · cases hstage with
    | spliced l a b p q r t picked hsplices => exact absurd hsplices hunfit
    | attached y _ picked _ hin hout =>
      have hremoved' : x.wiring.removed = none := by cases hin <;> cases hout <;> rfl
      refine ⟨hremoved.trans hremoved', ?_, fun d p hp hfree => ?_⟩
      · obtain ⟨ends, hends, hmade⟩ := attached_adds hg hflow hm hin hout
        obtain ⟨data, hgraph, hnew⟩ := hdata
        refine ⟨ends ++ data, by rw [hgraph, hends, List.append_assoc], fun k hk hcarries => ?_⟩
        rcases List.mem_append.mp hk with hk | hk
        · obtain ⟨d, b, p, o, hlink, heq⟩ := hmade k hk
          exact ⟨d, p, hlink.preferred, hlink.free, heq ▸ Link.involvesPin_between.mpr (.inl rfl)⟩
        · rw [(hnew k hk).2] at hcarries
          cases hcarries
      · obtain ⟨hown, -, hcarries⟩ := (hflow m hm).preferred hp
        have hnodes : m ∈ x.graph.nodes := hout.nodes ▸ hin.nodes ▸ hm
        rw [← linksAt_eq_nil, hdata.linksAt_eq hx hnodes hown hcarries]
        refine (linksAt_attached hg hflow hm hin hout hp hfree).imp id ?_
        rintro ⟨b, o, id, hlink, heq⟩
        exact ⟨b, o, id, hlink.nearest (hnumbers.nodes hunfit d p hp hfree), hlink.other_preferred,
          hlink.other_free, heq⟩

/-- Wiring the transition splits the first of the two links, which is nearer. If there are no links, what the
transition leads to is the nearest of the nodes that flow may enter. -/
theorem fannedOut_attached : ∃ m ∈ fannedOut.nodes, m.id = ⟨Uuid.ofNat 4⟩ ∧
    (∃ w, fannedOut.autoLink m.id (.countingFrom 0) = .ok w ∧
      w.wiring.removed = some (exampleLink 61 1 11 2 21 true) ∧
      Nearest (fannedOut.distanceToLink m) fannedOut.links (exampleLink 61 1 11 2 21 true)) ∧
    ∃ w b o id, Graph.autoLink { fannedOut with links := [] } m.id (.countingFrom 0) = .ok w ∧
      Nearest (distance m) (openNodes { fannedOut with links := [] } m.id .input) b ∧
      b.preferredFlow .input = some o ∧
      w.graph.linksAt ⟨Uuid.ofNat 44⟩ = [.between .output id m b (examplePins 40).exitPin o] := by
  have hflow : ∀ a ∈ fannedOut.nodes, a.AdvertisesFlow := fun a ha =>
    Node.advertisesFlow_of_builtin (fannedOut_isBuiltin a ha)
  refine ⟨{ exampleNode 4 (.transition (examplePins 40) .standard) with position := ⟨5, 0⟩ },
    by simp [fannedOut], rfl, ?_, ?_⟩
  · obtain ⟨w, hw, hspliced, -⟩ := autoLink_nearest fannedOut_wellFormed (by decide) hflow
      (m := { exampleNode 4 (.transition (examplePins 40) .standard) with position := ⟨5, 0⟩ })
      (by simp [fannedOut]) ⟨fun _ => by decide +kernel, fun _ d _ _ _ => by cases d <;> decide +kernel⟩
      (.countingFrom 0)
    obtain ⟨l, p, q, head, tail, data, hnear, hremoved, -⟩ := hspliced ⟨fun d => by
      cases d with
      | input => exact ⟨(examplePins 40).enterPin, rfl, by decide⟩
      | output => exact ⟨(examplePins 40).exitPin, rfl, by decide⟩,
      exampleLink 61 1 11 2 21 true, by decide, rfl, by decide⟩
    obtain ⟨w', hw', hl⟩ := exists_of_removed (g := fannedOut) (n := ⟨Uuid.ofNat 4⟩)
      (s := .countingFrom 0) (l := exampleLink 61 1 11 2 21 true) (by decide +kernel)
    obtain rfl := Except.ok.inj (hw.symm.trans hw')
    obtain rfl := Option.some.inj (hremoved.symm.trans hl)
    exact ⟨w, hw, hl, hnear⟩
  · obtain ⟨w, hw, -, hattached⟩ := autoLink_nearest
      (fannedOut_wellFormed.restrict (List.nil_sublist fannedOut.links)) (by decide) hflow
      (m := { exampleNode 4 (.transition (examplePins 40) .standard) with position := ⟨5, 0⟩ })
      (by simp [fannedOut]) ⟨fun _ => by decide +kernel, fun _ d _ _ _ => by cases d <;> decide +kernel⟩
      (.countingFrom 0)
    have hunfit : ¬ Splices { fannedOut with links := [] }
        { exampleNode 4 (.transition (examplePins 40) .standard) with position := ⟨5, 0⟩ } := by
      rintro ⟨-, l, hl, -⟩
      cases hl
    obtain ⟨-, -, hends⟩ := hattached hunfit
    rcases hends .output (examplePins 40).exitPin rfl rfl with ⟨hnone, -⟩ | ⟨b, o, id, hnear, ho, -, heq⟩
    · exact absurd hnone (by decide +kernel)
    · exact ⟨w, b, o, id, hw, hnear, ho, heq⟩

end Graph

end Patchbay
