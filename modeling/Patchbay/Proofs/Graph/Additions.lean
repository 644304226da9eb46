import Patchbay.Proofs.Graph.Attachment
import Patchbay.Proofs.Graph.Matching

/-!
# What wiring adds

Wiring takes at most one link out, and all that it adds after that comes at the end of the links, one link at
a time. `Graph.Wires` tells the three kinds of links that it may add, each with regard to the graph that it is
added to, and `Graph.Extends` what they have in common. `Graph.Added` is the account of a whole run: nothing is
refused, every link is of one of these kinds, and in the end there is nothing left to do for the node
(`Graph.WiredUp`). What this means for the links is **`Graph.autoLink_extends`**.

Which pins of the node are free is settled before anything changes. That does no harm, because no step takes
a pin of the node that a later one wants: a link that wiring adds touches one pin of the node only.
-/

namespace Patchbay

namespace Graph

variable {g : Graph} {d : Direction} {m b : Node} {p o r : Pin}

/-! ## The links that are added -/

/-- Link `l` joins a free pin that node `m` advertises to a pin of another node, where `picked` has been picked
for a splice. -/
inductive Wires (g : Graph) (m : Node) (picked : Option Link) (l : Link) : Prop
  /-- One half of the picked link, which joins its old end to the node. -/
  | half (d : Direction) (k : Link) (b : Node) (p o : Pin) (split : picked = some k)
    (preferred : m.preferredFlow d = some p) (free : g.isLinked p.id = false) (mem : b ∈ g.nodes)
    (apart : b.id ≠ m.id) (owns : o ∈ b.pins) (joins : o.id = k.endPin d.opposite)
    (eq : l = .between d l.id m b p o)
  | attached (d : Direction) (b : Node) (p o : Pin) (link : g.Attachable d m b p o)
    (eq : l = .between d l.id m b p o)
  | matched (d : Direction) (link : g.Matched d m l)

/-- What holds of a link of any of these kinds. -/
structure Extends (g : Graph) (m : Node) (picked : Option Link) (l : Link) (d : Direction) (b : Node)
    (p o : Pin) : Prop where
  advertised : m.preferredFlow d = some p ∨ p ∈ m.preferredData d
  free : g.isLinked p.id = false
  mem : b ∈ g.nodes
  apart : b.id ≠ m.id
  owns : o ∈ b.pins
  /-- The other pin is free as well, unless the picked link has ended there. -/
  other_free : g.isLinked o.id = false ∨ ∃ k, picked = some k ∧ o.id = k.endPin d.opposite
  eq : l = .between d l.id m b p o
  /-- A data link joins pins of one type, up to the wildcard. -/
  accords : l.flow = false → p.type.accords o.type = true

namespace Extends

variable {picked : Option Link} {l : Link} (h : g.Extends m picked l d b p o)
include h

theorem owns_advertised : p ∈ m.pins :=
  h.advertised.elim Node.mem_pins_of_preferredFlow Node.mem_pins_of_preferredData

/-- Of the pins of the node, the link touches one. -/
theorem involvesPin_iff {g' : Graph} (hg : g'.WellFormed) (hm : m ∈ g'.nodes) (hb : b ∈ g'.nodes)
    (hr : r ∈ m.pins) : l.involvesPin r.id = true ↔ r = p := by
  rw [h.eq, Link.involvesPin_between]
  constructor
  · rintro (heq | heq)
    · exact (hg.eq_of_pin hm hm hr h.owns_advertised heq.symm).2
    · exact absurd (congrArg Node.id (hg.eq_of_pin hb hm h.owns hr heq).1) h.apart
  · rintro rfl
    exact .inl rfl

end Extends

theorem Matched.extends {l : Link} (h : g.Matched d m l) (hwell : ∀ a ∈ g.nodes, a.AdvertisesWell)
    (picked : Option Link) : ∃ b p o, g.Extends m picked l d b p o ∧ p ∈ m.preferredData d ∧
      ∃ k, g.Candidate d m p k b o ∧ ∀ j b' o', g.Candidate d m p j b' o' → k ≤ j := by
  obtain ⟨p, k, b, o, hp, hfree, hc, hnearest, heq⟩ := h
  exact ⟨b, p, o, ⟨.inr hp, hfree, hc.mem, hc.apart, ((hwell b hc.mem).offers hc.offers).1,
    .inl hc.free, heq, fun _ => hc.accords⟩, hp, k, hc, hnearest⟩

/-- **All links of these kinds extend the graph**, and a data link leads to a nearest candidate. -/
theorem Wires.extends {picked : Option Link} {l : Link} (h : g.Wires m picked l)
    (hwell : ∀ a ∈ g.nodes, a.AdvertisesWell) (hm : m ∈ g.nodes) :
    ∃ d b p o, g.Extends m picked l d b p o ∧ (l.flow = false → p ∈ m.preferredData d ∧
      ∃ k, g.Candidate d m p k b o ∧ ∀ j b' o', g.Candidate d m p j b' o' → k ≤ j) := by
  have hflow : ∀ {d b p o}, m.preferredFlow d = some p → l = .between d l.id m b p o →
      l.flow ≠ false := by
    intro d b p o hp heq
    rw [heq, Link.between_flow, ((hwell m hm).preferred hp).2.2]
    exact Bool.noConfusion
  cases h with
  | half d k b p o split preferred free mem apart owns joins eq =>
    have hcarries := hflow preferred eq
    exact ⟨d, b, p, o, ⟨.inl preferred, free, mem, apart, owns, .inr ⟨k, split, joins⟩, eq,
      fun h => absurd h hcarries⟩, fun h => absurd h hcarries⟩
  | attached d b p o link eq =>
    have hcarries := hflow link.preferred eq
    obtain ⟨hb, hapart, -⟩ := mem_openNodes.mp link.other
    exact ⟨d, b, p, o, ⟨.inl link.preferred, link.free, hb, hapart,
      Node.mem_pins_of_preferredFlow link.other_preferred, .inl link.other_free, eq,
      fun h => absurd h hcarries⟩, fun h => absurd h hcarries⟩
  | matched d link =>
    obtain ⟨b, p, o, hextends, hdata⟩ := link.extends hwell picked
    exact ⟨d, b, p, o, hextends, fun _ => hdata⟩

theorem Wires.involvesNode {picked : Option Link} {l : Link} (h : g.Wires m picked l) :
    l.involvesNode m.id = true := by
  cases h with
  | half _ _ _ _ _ _ _ _ _ _ _ _ eq | attached _ _ _ _ _ eq =>
    rw [eq]
    exact Link.involvesNode_between
  | matched d link =>
    obtain ⟨p, k, b, o, -, -, -, -, eq⟩ := link
    rw [eq]
    exact Link.involvesNode_between

/-! ## What stays so while links are added -/

namespace Recorded.Makes

variable {P : Graph → Link → Prop} {x y : Recorded} (h : Recorded.Makes P x y)
include h

theorem isLinked {i : PinId} (hx : x.graph.isLinked i = true) : y.graph.isLinked i = true := by
  induction h with
  | refl => exact hx
  | grow _ _ _ ih => rw [isLinked_grown, ih, Bool.true_or]

/-- A pin that none of the links touches stays free. -/
theorem isLinked_eq_false {i : PinId} (hx : x.graph.isLinked i = false)
    (hP : ∀ links l, P { x.graph with links } l → l.involvesPin i = false) :
    y.graph.isLinked i = false := by
  obtain ⟨new, hgraph, -, hnew⟩ := h.parts
  rw [not_isLinked_iff, hgraph]
  intro l hl
  rcases List.mem_append.mp hl with hl | hl
  · exact not_isLinked_iff.mp hx l hl
  · obtain ⟨before, after, rfl⟩ := List.append_of_mem hl
    exact hP _ l (hnew before l after rfl).1

/-- A pin that is free in the end has been free all the time. -/
theorem free {i : PinId} (hy : y.graph.isLinked i = false) : x.graph.isLinked i = false :=
  Bool.eq_false_iff.mpr fun hx => Bool.eq_false_iff.mp hy (h.isLinked hx)

theorem nodes : y.graph.nodes = x.graph.nodes := by
  obtain ⟨new, hgraph, -⟩ := h.parts
  rw [hgraph]

/-- A flow pin for which nothing is left to be done stays so. -/
theorem flowSettled (hx : x.graph.FlowSettled d m) : y.graph.FlowSettled d m := by
  intro p hp
  refine (hx p hp).imp h.isLinked fun hnone => List.eq_nil_iff_forall_not_mem.mpr fun b hb => ?_
  obtain ⟨hmem, hne, o, ho, hfree⟩ := mem_openNodes.mp hb
  have hopen : b ∈ x.graph.openNodes m.id d.opposite :=
    mem_openNodes.mpr ⟨h.nodes ▸ hmem, hne, o, ho, h.free hfree⟩
  rw [hnone] at hopen
  cases hopen

/-- Links to the node do not give it a link to be spliced into. -/
theorem not_splices (hx : ¬ x.graph.Splices m) (hP : ∀ g l, P g l → l.involvesNode m.id = true) :
    ¬ y.graph.Splices m := by
  rintro ⟨hfree, l, hl, hcarries, hfar⟩
  obtain ⟨new, hgraph, -, hnew⟩ := h.parts
  refine hx ⟨fun d => ?_, l, ?_, hcarries, hfar⟩
  · obtain ⟨p, hp, hpfree⟩ := hfree d
    exact ⟨p, hp, h.free hpfree⟩
  · rw [hgraph] at hl
    rcases List.mem_append.mp hl with hl | hl
    · exact hl
    · obtain ⟨before, after, rfl⟩ := List.append_of_mem hl
      rw [hP _ l (hnew before l after rfl).1] at hfar
      cases hfar

end Recorded.Makes

section

variable {x y : Recorded} (hx : x.graph.WellFormed) (hm : m ∈ x.graph.nodes)
include hx hm

/-- A pin of the node stays free if the links that are made join others. -/
theorem isLinked_of_makes {P : Graph → Link → Prop} (picked : Option Link) (hp : p ∈ m.pins)
    (hfree : x.graph.isLinked p.id = false)
    (hP : ∀ links l, P { x.graph with links } l →
      ∃ d b q o, Extends { x.graph with links } m picked l d b q o ∧ q ≠ p)
    (h : Recorded.Makes P x y) : y.graph.isLinked p.id = false := by
  refine h.isLinked_eq_false hfree fun links l hl => Bool.eq_false_iff.mpr fun htouch => ?_
  obtain ⟨d, b, q, o, hextends, hne⟩ := hP links l hl
  exact hne ((hextends.involvesPin_iff hx hm hextends.mem hp).mp htouch).symm

variable (hwell : ∀ a ∈ x.graph.nodes, a.AdvertisesWell) (hp : p ∈ m.preferredData d)
  (hfree : x.graph.isLinked p.id = false)
include hwell hp hfree

/-- Links that carry flow leave free data pins free. -/
theorem isLinked_of_makes_flow {picked : Option Link}
    (h : Recorded.Makes (fun g' l => g'.Wires m picked l ∧ l.flow = true) x y) :
    y.graph.isLinked p.id = false := by
  refine isLinked_of_makes hx hm picked (Node.mem_pins_of_preferredData hp) hfree
    (fun links l hl => ?_) h
  obtain ⟨e, b, q, o, hextends, -⟩ := hl.1.extends hwell hm
  refine ⟨e, b, q, o, hextends, ?_⟩
  rintro rfl
  have hcarries := hl.2
  rw [hextends.eq, Link.between_flow, ((hwell m hm).data d q hp).2] at hcarries
  cases hcarries

/-- Matching the data pins of one side leaves the free ones of the other side free. -/
theorem isLinked_of_makes_matched {e : Direction} (hde : d ≠ e)
    (h : Recorded.Makes (fun g' => g'.Matched e m) x y) : y.graph.isLinked p.id = false := by
  refine isLinked_of_makes hx hm none (Node.mem_pins_of_preferredData hp) hfree
    (fun links l hl => ?_) h
  obtain ⟨b, q, o, hextends, hq, -⟩ := hl.extends hwell none
  refine ⟨e, b, q, o, hextends, ?_⟩
  rintro rfl
  exact hde (((hwell m hm).data d q hp).1.symm.trans ((hwell m hm).data e q hq).1)

end

/-! ## The flow step -/

namespace Recorded

variable {x y : Recorded}

lemma Attached.makes (h : Attached d m x y) (hx : x.graph.WellFormed)
    (hflow : ∀ a ∈ x.graph.nodes, a.AdvertisesFlow) (hm : m ∈ x.graph.nodes) :
    Makes (fun g l => ∃ b p o, g.Attachable d m b p o ∧ l = .between d l.id m b p o) x y := by
  cases h with
  | settled => exact .refl
  | joined b p o link =>
    exact Makes.refl.grow (granted_of_joinable hx (link.joinable hflow hm) _)
      ⟨b, p, o, link, by rw [Link.between_id]⟩

lemma Attached.flowSettled (h : Attached d m x y) : y.graph.FlowSettled d m := by
  cases h with
  | settled settled => exact settled
  | joined b p o link =>
    intro p' hp
    obtain rfl := Option.some.inj (link.preferred.symm.trans hp)
    refine .inl ?_
    rw [isLinked_grown, Link.involvesPin_between.mpr (.inl rfl), Bool.or_true]

end Recorded

namespace FlowStage

variable {s : Supply} {x : Recorded} (h : g.FlowStage m s x)
include h

/-- Whichever way it goes, both flow pins are settled. -/
theorem flowSettled (hg : g.WellFormed) (hflow : ∀ a ∈ g.nodes, a.AdvertisesFlow) (hm : m ∈ g.nodes)
    (d : Direction) : x.graph.FlowSettled d m := by
  cases h with
  | spliced l a b p q r t picked _ _ _ entrance exit =>
    intro p' hp
    refine .inl ?_
    rw [Recorded.isLinked_grown, Recorded.isLinked_grown]
    cases d with
    | input =>
      obtain rfl := Option.some.inj (entrance.symm.trans hp)
      rw [Link.involvesPin_between.mpr (.inl rfl), Bool.or_true, Bool.true_or]
    | output =>
      obtain rfl := Option.some.inj (exit.symm.trans hp)
      rw [(Link.involvesPin_between (d := .output)).mpr (.inl rfl), Bool.or_true]
  | attached y _ _ _ entrance exit =>
    cases d with
    | input =>
      exact (exit.makes (entrance.wellFormed hg hflow hm) (entrance.nodes ▸ hflow)
        (entrance.nodes ▸ hm)).flowSettled entrance.flowSettled
    | output => exact exit.flowSettled

/-- Every link of the flow step is of one of the kinds, and carries flow. -/
theorem makes (hg : g.WellFormed) (hflow : ∀ a ∈ g.nodes, a.AdvertisesFlow) (hm : m ∈ g.nodes) :
    Recorded.Makes (fun g' l => g'.Wires m (g.picked? m) l ∧ l.flow = true)
      (g.opened (g.picked? m) s) x := by
  cases h with
  | spliced l a b p q r t picked _ near joins entrance exit entrance_free exit_free head tail =>
    obtain ⟨hpown, hpin, hpcarries⟩ := (hflow m hm).preferred entrance
    obtain ⟨hqown, hqout, hqcarries⟩ := (hflow m hm).preferred exit
    obtain ⟨-, -, hfar⟩ := nearestFlowLink?_some near
    simp only [Link.involvesNode, joins.fromNode, joins.toNode, Bool.or_eq_false_iff,
      beq_eq_false_iff_ne] at hfar
    have hfree : ∀ {i}, g.isLinked i = false → (g.opened (some l) s).graph.isLinked i = false :=
      fun hi => not_isLinked_iff.mpr fun k hk =>
        not_isLinked_iff.mp hi k (List.mem_of_mem_filter hk)
    -- the first half leaves the other flow pin free
    have hapart : (Link.between .input s.takeLink.1 m a p r).involvesPin q.id = false := by
      rw [Bool.eq_false_iff, ne_eq, Link.involvesPin_between]
      rintro (heq | heq)
      · obtain ⟨-, rfl⟩ := hg.eq_of_pin hm hm hpown hqown heq
        rw [hpin] at hqout
        cases hqout
      · exact hfar.1 (congrArg Node.id (hg.eq_of_pin joins.source hm joins.owns_source hqown heq).1)
    rw [picked]
    have hhead : Recorded.Makes (fun g' l' => g'.Wires m (some l) l' ∧ l'.flow = true)
        (g.opened (some l) s) ((g.opened (some l) s).grown (.between .input s.takeLink.1 m a p r)) :=
      .grow .refl head ⟨.half .input l a p r rfl entrance (hfree entrance_free) joins.source hfar.1
        joins.owns_source joins.fromPin.symm rfl, hpcarries⟩
    refine .grow hhead tail ⟨.half .output l b q t rfl exit ?_ joins.target hfar.2 joins.owns_target
      joins.toPin.symm rfl, hqcarries⟩
    rw [Recorded.isLinked_grown, hfree exit_free, hapart, Bool.or_false]
  | attached y _ picked _ entrance exit =>
    have hkind : ∀ (d : Direction) (g' : Graph) (l : Link),
        (∃ b p o, g'.Attachable d m b p o ∧ l = .between d l.id m b p o) →
          g'.Wires m none l ∧ l.flow = true := by
      rintro d g' l ⟨b, p, o, link, heq⟩
      refine ⟨.attached d b p o link heq, ?_⟩
      rw [heq, Link.between_flow]
      exact ((hflow m hm).preferred link.preferred).2.2
    have hin := entrance.makes hg hflow hm
    have hout := exit.makes (entrance.wellFormed hg hflow hm) (entrance.nodes ▸ hflow)
      (entrance.nodes ▸ hm)
    rw [picked]
    exact (hin.imp (hkind .input)).trans (hout.imp (hkind .output))

/-- There is no second splice: it takes two free flow pins, and a link that the node has not been spliced
into. -/
theorem not_splices (hg : g.WellFormed) (hflow : ∀ a ∈ g.nodes, a.AdvertisesFlow) (hm : m ∈ g.nodes) :
    ¬ x.graph.Splices m := by
  have hmakes := h.makes hg hflow hm
  cases h with
  | spliced l a b p q r t picked _ _ _ entrance =>
    rintro ⟨hfree, -⟩
    obtain ⟨p', hp, hpfree⟩ := hfree .input
    obtain rfl := Option.some.inj (entrance.symm.trans hp)
    rw [Recorded.isLinked_grown, Recorded.isLinked_grown, Link.involvesPin_between.mpr (.inl rfl),
      Bool.or_true, Bool.true_or] at hpfree
    cases hpfree
  | attached y _ picked unfit =>
    rw [picked] at hmakes
    exact hmakes.not_splices unfit fun _ _ hl => hl.1.involvesNode

end FlowStage

/-! ## The data step -/

/-- The data pins that are to be matched. -/
def freePins (g : Graph) (d : Direction) (m : Node) : List Pin :=
  (m.preferredData d).filter fun p => !p.isFlow && !g.isLinked p.id

lemma mem_freePins (hm : m.AdvertisesWell) :
    p ∈ g.freePins d m ↔ p ∈ m.preferredData d ∧ g.isLinked p.id = false := by
  simp only [freePins, List.mem_filter, Bool.and_eq_true, Bool.not_eq_true']
  exact and_congr_right fun hp => and_iff_right (hm.data d p hp).2

lemma freeData_preferred (g : Graph) (d : Direction) (m : Node) :
    g.freeData (m.preferredData d) = (g.freePins d m).map Pin.id := rfl

/-- **What wiring does for the data pins of both sides**, if each of them is still free. -/
theorem Recorded.linkData_sides {x : Recorded} (hx : x.graph.WellFormed)
    (hwell : ∀ a ∈ x.graph.nodes, a.AdvertisesWell) (hm : m ∈ x.graph.nodes)
    (pins : Direction → List Pin) (hpins : ∀ d, ∀ p ∈ pins d, p ∈ m.preferredData d)
    (honce : ∀ d, (pins d).Nodup) (hfree : ∀ d, ∀ p ∈ pins d, x.graph.isLinked p.id = false) :
    ∃ z, ((pins .output).map Pin.id).foldl (linkData m.id .output)
        (((pins .input).map Pin.id).foldl (linkData m.id .input) x) = z ∧
      Makes (fun g l => ∃ d, g.Matched d m l) x z ∧
      ∀ d, ∀ p ∈ pins d, z.graph.DataSettled d m p := by
  obtain ⟨hins, hy, hsettled⟩ := foldl_linkData hx hwell hm (hpins .input) (honce .input) (hfree .input)
  generalize ((pins .input).map Pin.id).foldl (linkData m.id .input) x = y at hins hy hsettled ⊢
  -- the outputs are still free when their turn comes
  have hleft : ∀ p ∈ pins .output, y.graph.isLinked p.id = false := fun p hp =>
    isLinked_of_makes_matched hx hm hwell (hpins .output p hp) (hfree .output p hp) (by decide) hins
  obtain ⟨houts, -, hsettled'⟩ := foldl_linkData hy (hins.nodes ▸ hwell) (hins.nodes ▸ hm)
    (hpins .output) (honce .output) hleft
  refine ⟨_, rfl, (hins.imp fun _ _ h => ⟨.input, h⟩).trans (houts.imp fun _ _ h => ⟨.output, h⟩), ?_⟩
  intro d p hp
  cases d with
  | input => exact .of_makes (fun _ _ => Matched.flow) houts (hsettled p hp)
  | output => exact hsettled' p hp

/-! ## A whole run -/

/-- The links that are left when at most one has been taken out. -/
def linksWithout (g : Graph) : Option Link → List Link
  | none => g.links
  | some l => g.links.erase l

/-- The graph with at most one link taken out, and others added at the end. -/
def rewired (g : Graph) (removed : Option Link) (made : List Link) : Graph :=
  { g with links := g.linksWithout removed ++ made }

lemma picked?_some {l : Link} (h : g.picked? m = some l) :
    l ∈ g.links ∧ l.flow = true ∧ l.involvesNode m.id = false := by
  rw [picked?] at h
  split at h
  · exact nearestFlowLink?_some h
  · cases h

lemma opened_nodes (g : Graph) (picked : Option Link) (s : Supply) :
    (g.opened picked s).graph.nodes = g.nodes := by
  cases picked <;> rfl

lemma opened_wellFormed (hg : g.WellFormed) (picked : Option Link) (s : Supply) :
    (g.opened picked s).graph.WellFormed := by
  cases picked with
  | none => exact hg
  | some l => exact hg.unlink l.id

/-- Wiring starts from the graph without the link that is picked, and adds links to that. -/
lemma opened_rewired (hids : (g.links.map Link.id).Nodup) (m : Node) (s : Supply) (made : List Link) :
    { (g.opened (g.picked? m) s).graph with
      links := (g.opened (g.picked? m) s).graph.links ++ made } = g.rewired (g.picked? m) made := by
  cases hpicked : g.picked? m with
  | none => rfl
  | some l =>
    rw [rewired, linksWithout, ← unlink_eq_erase hids (picked?_some hpicked).1]
    rfl

/-- A pin of the node is linked if it has been from the start or one of the new links touches it: the picked
link does not. -/
lemma isLinked_rewired (hg : g.WellFormed) (hm : m ∈ g.nodes) (hp : p ∈ m.pins) (made : List Link) :
    (g.rewired (g.picked? m) made).isLinked p.id =
      (g.isLinked p.id || made.any fun l => l.involvesPin p.id) := by
  cases hpicked : g.picked? m with
  | none => exact List.any_append
  | some l =>
    obtain ⟨hl, -, hfar⟩ := picked?_some hpicked
    have hapart : l.involvesPin p.id = false := Bool.eq_false_iff.mpr fun htouch =>
      Bool.eq_false_iff.mp hfar (hg.involvesNode_of_involvesPin hl hm hp htouch)
    have hkept := (List.perm_cons_erase hl).any_eq (f := fun l => l.involvesPin p.id)
    rw [List.any_cons, hapart, Bool.false_or] at hkept
    rw [isLinked, isLinked, hkept]
    exact List.any_append

lemma isLinked_opened (hg : g.WellFormed) (hids : (g.links.map Link.id).Nodup) (hm : m ∈ g.nodes)
    (s : Supply) (hp : p ∈ m.pins) :
    (g.opened (g.picked? m) s).graph.isLinked p.id = g.isLinked p.id := by
  have hopened := opened_rewired hids m s []
  rw [List.append_nil] at hopened
  exact (congrArg (isLinked · p.id) hopened).trans
    ((isLinked_rewired hg hm hp []).trans (Bool.or_false _))

/-- Nothing is left to be done for a node. -/
structure WiredUp (g : Graph) (m : Node) : Prop where
  unfit : ¬ g.Splices m
  flow : ∀ d, g.FlowSettled d m
  data : ∀ d, ∀ p ∈ m.preferredData d, g.DataSettled d m p

/-- **What a run of wiring comes to.** All links are of one of the kinds, and nothing is left to be done. -/
theorem autoLink_makes (hg : g.WellFormed) (hids : (g.links.map Link.id).Nodup)
    (hwell : ∀ a ∈ g.nodes, a.AdvertisesWell) (hm : m ∈ g.nodes) (s : Supply) :
    ∃ x, g.autoLinkRecorded m.id s = .ok x ∧ x.graph.WiredUp m ∧
      Recorded.Makes (fun g' => g'.Wires m (g.picked? m)) (g.opened (g.picked? m) s) x := by
  have hflow : ∀ a ∈ g.nodes, a.AdvertisesFlow := fun a ha => (hwell a ha).toAdvertisesFlow
  have hstage := flowStage hg hflow hm s
  have hx := flowWired_wellFormed hg m s
  rw [autoLinkRecorded_eq hg hm, freeData_preferred, freeData_preferred]
  generalize g.flowWired m s = x at hstage hx ⊢
  have hmakes := hstage.makes hg hflow hm
  have hnodes := hmakes.nodes.trans (g.opened_nodes (g.picked? m) s)
  have hwell₁ : ∀ a ∈ x.graph.nodes, a.AdvertisesWell := hnodes ▸ hwell
  have hm₁ : m ∈ x.graph.nodes := hnodes ▸ hm
  -- the data pins that are free at first are still free when their turn comes
  have hfree : ∀ d, ∀ p ∈ g.freePins d m, x.graph.isLinked p.id = false := by
    intro d p hp
    obtain ⟨hpref, hpfree⟩ := (mem_freePins (hwell m hm)).mp hp
    have hopened := isLinked_opened hg hids hm s (Node.mem_pins_of_preferredData hpref)
    refine isLinked_of_makes_flow (opened_wellFormed hg _ s) ?_ ?_ hpref (hopened.trans hpfree) hmakes
    · rwa [opened_nodes]
    · rwa [opened_nodes]
  obtain ⟨z, hz, hmatches, hsettled⟩ := Recorded.linkData_sides hx hwell₁ hm₁ (g.freePins · m)
    (fun _ _ hp => ((mem_freePins (hwell m hm)).mp hp).1) (fun d => ((hwell m hm).once d).filter _) hfree
  have hrest : Recorded.Makes (fun g' => g'.Wires m (g.picked? m)) x z :=
    hmatches.imp fun _ _ ⟨d, hl⟩ => .matched d hl
  have hall := (hmakes.imp fun _ _ hl => hl.1).trans hrest
  refine ⟨z, congrArg _ hz, ⟨?_, fun d => ?_, fun d p hp => ?_⟩, hall⟩
  · exact hrest.not_splices (hstage.not_splices hg hflow hm) fun _ _ => Wires.involvesNode
  · exact hrest.flowSettled (hstage.flowSettled hg hflow hm d)
  · cases hlinked : g.isLinked p.id with
    | true =>
      have hopened := isLinked_opened hg hids hm s (Node.mem_pins_of_preferredData hp)
      exact .inl (hall.isLinked (hopened.trans hlinked))
    | false => exact hsettled d p ((mem_freePins (hwell m hm)).mpr ⟨hp, hlinked⟩)

/-- The account of a run of wiring: what it asked for, what it did, and what it leaves behind. -/
structure Added (g : Graph) (m : Node) (s : Supply) (x : Recorded) (new : List Link) : Prop where
  run : g.autoLinkRecorded m.id s = .ok x
  granted : ∀ r ∈ x.requests, r.Granted
  graph : x.graph = g.rewired (g.picked? m) new
  wiring : x.wiring = ⟨new.map Link.id, g.picked? m⟩
  wires : ∀ before l after, new = before ++ l :: after →
    (g.rewired (g.picked? m) before).Wires m (g.picked? m) l ∧
      ⟨g.rewired (g.picked? m) before, l.fromPin, l.toPin⟩ ∈ x.requests
  wiredUp : x.graph.WiredUp m

theorem autoLink_added (hg : g.WellFormed) (hids : (g.links.map Link.id).Nodup)
    (hwell : ∀ a ∈ g.nodes, a.AdvertisesWell) (hm : m ∈ g.nodes) (s : Supply) :
    ∃ x new, g.Added m s x new := by
  obtain ⟨x, hx, hwired, hmakes⟩ := autoLink_makes hg hids hwell hm s
  obtain ⟨new, hgraph, hwiring, hnew⟩ := hmakes.parts
  rw [opened_rewired hids] at hgraph
  simp only [opened_rewired hids] at hnew
  exact ⟨x, new, hx, hmakes.granted (by simp [opened]), hgraph, hwiring, hnew, hwired⟩

namespace Added

variable {s : Supply} {x : Recorded} {new : List Link} (h : g.Added m s x new)
include h

theorem toWired : g.autoLink m.id s = .ok x.toWired := by
  rw [← autoLinkRecorded_toWired, h.run]
  rfl

variable (hg : g.WellFormed) (hwell : ∀ a ∈ g.nodes, a.AdvertisesWell) (hm : m ∈ g.nodes)
include hg hwell hm

/-- Every new link joins a pin that has been free from the start, and that no link before it touches. -/
theorem joins_free (before : List Link) (l : Link) (after : List Link)
    (hsplit : new = before ++ l :: after) :
    ∃ d b p o, (g.rewired (g.picked? m) before).Extends m (g.picked? m) l d b p o ∧
      g.isLinked p.id = false ∧ ∀ k ∈ before, k.involvesPin p.id = false := by
  obtain ⟨d, b, p, o, hextends, -⟩ := (h.wires before l after hsplit).1.extends hwell hm
  have hfree := hextends.free
  rw [isLinked_rewired hg hm hextends.owns_advertised, Bool.or_eq_false_iff,
    List.any_eq_false] at hfree
  exact ⟨d, b, p, o, hextends, hfree.1, fun k hk => Bool.eq_false_iff.mpr (hfree.2 k hk)⟩

/-- No pin of the node gets two links. -/
theorem length_filter_le_one (hp : p ∈ m.pins) :
    (new.filter fun l => l.involvesPin p.id).length ≤ 1 := by
  rcases hfilter : new.filter fun l => l.involvesPin p.id with - | ⟨k, - | ⟨l, rest⟩⟩
  · simp [hfilter]
  · simp [hfilter]
  · obtain ⟨before, later, rfl, -, hk, hlater⟩ := List.filter_eq_cons_iff.mp hfilter
    obtain ⟨between, after, rfl, -, hl, -⟩ := List.filter_eq_cons_iff.mp hlater
    obtain ⟨d, b, p', o, hextends, -, hfree⟩ :=
      h.joins_free hg hwell hm (before ++ k :: between) l after (by simp)
    obtain rfl := (hextends.involvesPin_iff hg hm hextends.mem hp).mp hl
    rw [hfree k (by simp)] at hk
    cases hk

end Added

/-- **What wiring adds.** Nothing that it asks for is refused. What it leaves are the links from before, in
order and without the one that is split, and after them those it has made. Each of these joins a pin that
the node advertises, and that has been free from the start, to a pin of another node that is free at the
time, unless the split link has ended there; and no pin of the node gets two. -/
theorem autoLink_extends (hg : g.WellFormed) (hids : (g.links.map Link.id).Nodup)
    (hwell : ∀ a ∈ g.nodes, a.AdvertisesWell) (hm : m ∈ g.nodes) (s : Supply) :
    ∃ x new, g.autoLinkRecorded m.id s = .ok x ∧ g.autoLink m.id s = .ok x.toWired ∧
      (∀ r ∈ x.requests, r.Granted) ∧
      x.graph = g.rewired x.wiring.removed new ∧ x.wiring.created = new.map Link.id ∧
      (∀ l, x.wiring.removed = some l → l ∈ g.links) ∧
      (∀ before l after, new = before ++ l :: after → ∃ d b p o, g.isLinked p.id = false ∧
        (g.rewired x.wiring.removed before).Extends m x.wiring.removed l d b p o ∧
        ⟨g.rewired x.wiring.removed before, l.fromPin, l.toPin⟩ ∈ x.requests) ∧
      ∀ p ∈ m.pins, (new.filter fun l => l.involvesPin p.id).length ≤ 1 := by
  obtain ⟨x, new, h⟩ := autoLink_added hg hids hwell hm s
  have hremoved : x.wiring.removed = g.picked? m := by rw [h.wiring]
  refine ⟨x, new, h.run, h.toWired, h.granted, hremoved ▸ h.graph, by rw [h.wiring], ?_, ?_, ?_⟩
  · intro l hl
    exact (picked?_some (hremoved.symm.trans hl)).1
  · intro before l after hsplit
    obtain ⟨d, b, p, o, hextends, hfree, -⟩ := h.joins_free hg hwell hm before l after hsplit
    rw [hremoved]
    exact ⟨d, b, p, o, hfree, hextends, (h.wires before l after hsplit).2⟩
  · intro p hp
    exact h.length_filter_le_one hg hwell hm hp

/-- Of two transitions without links, the one that is wired is linked to the other one by both flow pins,
and by a data pin on either side. -/
theorem sideBySide_extends : ∃ m ∈ sideBySide.nodes, ∃ (x : Recorded) (new : List Link),
    sideBySide.autoLink m.id (.countingFrom 0) = .ok x.toWired ∧ new.length = 4 ∧
      (∀ r ∈ x.requests, r.Granted) ∧ x.graph.links = new ∧
      ∀ p ∈ m.pins, (new.filter fun l => l.involvesPin p.id).length ≤ 1 := by
  obtain ⟨m, hm, hid⟩ := mem_nodeIds.mp (show ⟨Uuid.ofNat 2⟩ ∈ sideBySide.nodeIds by decide)
  obtain ⟨x, new, -, hw, hgranted, hgraph, hcreated, -, -, honce⟩ :=
    autoLink_extends sideBySide_wellFormed (by decide)
      (fun a ha => Node.advertisesWell_of_builtin (sideBySide_isBuiltin a ha)) hm (.countingFrom 0)
  obtain ⟨w, hw', hwiring⟩ := exists_wired (g := sideBySide) (n := ⟨Uuid.ofNat 2⟩)
    (s := .countingFrom 0) (f := fun w => (w.wiring.created.length, w.wiring.removed))
    (a := (4, none)) (by decide +kernel)
  obtain rfl := Except.ok.inj (hw'.symm.trans (hid ▸ hw))
  obtain ⟨hlength, hremoved⟩ := Prod.mk.inj hwiring
  rw [hcreated, List.length_map] at hlength
  rw [hremoved] at hgraph
  exact ⟨m, hm, x, new, hw, hlength, hgranted, congrArg Graph.links hgraph, honce⟩

end Graph

end Patchbay
