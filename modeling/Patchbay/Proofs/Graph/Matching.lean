import Patchbay.Proofs.Graph.Requests

/-!
# Matching data pins

Data pins are matched greedily: one after the other takes the first pin that the walk along flow comes to and
that suits it. `Graph.Candidate` says which pins those are, and at what distance. The walk finds nearer nodes
first, so what is taken is as near as any candidate (`Graph.offeredPin?_nearest`).

A pin is settled (`Graph.DataSettled`) once it is linked or has no candidate. What one step settles, later
steps leave settled: they use up candidates, and as their links carry data, they bring no node nearer. This is
the invariant of **`Recorded.foldl_linkData`**, which says what comes of all data pins of one side.
-/

namespace Patchbay

namespace Graph

/-- Pin `o` of node `b` may be linked to data pin `p` of node `m`: flow joins the two nodes over `k` links, `b`
offers the pin, which is free, and its data is of the type of `p`. -/
structure Candidate (g : Graph) (d : Direction) (m : Node) (p : Pin) (k : Nat) (b : Node) (o : Pin) :
    Prop where
  mem : b ∈ g.nodes
  apart : b.id ≠ m.id
  away : g.Away d.heading k m.id b.id
  offers : b.Offers d.opposite o
  accords : p.type.accords o.type = true
  free : g.isLinked o.id = false

/-- Nothing is left to be done for a data pin. -/
def DataSettled (g : Graph) (d : Direction) (m : Node) (p : Pin) : Prop :=
  g.isLinked p.id = true ∨ ∀ k b o, ¬ g.Candidate d m p k b o

variable {g : Graph} {d : Direction} {m b : Node} {p o : Pin} {k : Nat}

/-- That candidates belong to other nodes is no restriction, even if flow comes back to the node: it cannot
be linked to itself. -/
theorem linkFault?_own (hg : g.WellFormed) (hm : m ∈ g.nodes) (hp : p ∈ m.pins) (ho : o ∈ m.pins) :
    g.linkFault? p.id o.id ≠ none := by
  intro hnone
  obtain ⟨a, b, q, r, hsource, htarget, -, hj, -⟩ := joins_of_linkFault? hnone
  rw [hg.owner?_of_mem hm hp] at hsource
  rw [hg.owner?_of_mem hm ho] at htarget
  exact (hj ⟨Uuid.ofNat 0⟩).apart (Option.some.inj (hsource.symm.trans htarget))

/-! ## The nearest candidate -/

/-- The first pin of a node that suits data pin `p`. -/
def offer? (g : Graph) (d : Direction) (p : Pin) (n : NodeId) : Option Pin :=
  ((g.node? n).toList.flatMap fun b => b.offered d.opposite).find?
    fun o => !g.isLinked o.id && p.type.accords o.type

/-- What is offered is what the first neighbour offers that offers anything. -/
lemma offeredPin?_eq : g.offeredPin? m.id d.heading d.opposite p.type.accords =
    ((g.flowNeighbours m.id d.heading).findSome? (g.offer? d p)).map Pin.id := by
  rw [offeredPin?, List.filterMap_eq_flatMap_toList, List.flatMap_assoc, List.find?_flatMap]
  rfl

lemma offer?_some {n : NodeId} (h : g.offer? d p n = some o) : ∃ b ∈ g.nodes, b.id = n ∧
    b.Offers d.opposite o ∧ p.type.accords o.type = true ∧ g.isLinked o.id = false := by
  obtain ⟨b, hb, ho⟩ := List.mem_flatMap.mp (List.mem_of_find?_eq_some h)
  obtain ⟨hmem, rfl⟩ := node?_some (Option.mem_toList.mp hb)
  have hsuits := List.find?_some h
  simp only [Bool.and_eq_true, Bool.not_eq_true'] at hsuits
  exact ⟨b, hmem, rfl, Node.mem_offered.mp ho, hsuits.2, hsuits.1⟩

/-- A node that offers nothing has no candidate. -/
lemma offer?_none (hg : g.WellFormed) (h : g.offer? d p b.id = none) : ¬ g.Candidate d m p k b o := by
  intro hc
  rw [offer?, hg.node?_of_mem hc.mem, Option.toList_some, List.flatMap_singleton] at h
  have hunfit := List.find?_eq_none.mp h o (Node.mem_offered.mpr hc.offers)
  simp [hc.free, hc.accords] at hunfit

/-- A candidate belongs to a node that the walk finds. -/
lemma Candidate.mem_flowNeighbours (h : g.Candidate d m p k b o) :
    b.id ∈ g.flowNeighbours m.id d.heading :=
  mem_flowNeighbours_iff.mpr ⟨h.apart, k, h.away⟩

lemma offeredPin?_none (hg : g.WellFormed)
    (h : g.offeredPin? m.id d.heading d.opposite p.type.accords = none) :
    ¬ g.Candidate d m p k b o := by
  intro hc
  rw [offeredPin?_eq, Option.map_eq_none_iff, List.findSome?_eq_none_iff] at h
  exact offer?_none hg (h _ hc.mem_flowNeighbours) hc

/-- **What is offered is a candidate, and no candidate is nearer.** -/
lemma offeredPin?_nearest (hg : g.WellFormed) {i : PinId}
    (h : g.offeredPin? m.id d.heading d.opposite p.type.accords = some i) :
    ∃ k b o, o.id = i ∧ g.Candidate d m p k b o ∧ ∀ j b' o', g.Candidate d m p j b' o' → k ≤ j := by
  rw [offeredPin?_eq] at h
  obtain ⟨o, hfirst, rfl⟩ := Option.map_eq_some_iff.mp h
  obtain ⟨before, n, after, hwalk, hoffer, hnone⟩ := List.findSome?_eq_some_iff.mp hfirst
  obtain ⟨b, hb, rfl, hoffers, haccords, hfree⟩ := offer?_some hoffer
  have hmem : b.id ∈ g.flowNeighbours m.id d.heading := by simp [hwalk]
  obtain ⟨hapart, haway⟩ := mem_flowNeighbours_iff.mp hmem
  have hleast := isLeast_flowDistance haway
  refine ⟨_, b, o, rfl, ⟨hb, hapart, hleast.1, hoffers, haccords, hfree⟩, fun j b' o' hc => ?_⟩
  have hsorted : (g.flowNeighbours m.id d.heading).Pairwise _ := flowNeighbours_sorted
  have hmem' := hc.mem_flowNeighbours
  rw [hwalk] at hsorted hmem'
  rcases List.mem_append.mp hmem' with hbefore | hrest
  · exact absurd hc (offer?_none hg (hnone _ hbefore))
  · rcases List.mem_cons.mp hrest with hsame | hafter
    · exact hleast.2 (hsame ▸ hc.away)
    · have hnearer := (List.pairwise_cons.mp (List.pairwise_append.mp hsorted).2.1).1 _ hafter
      exact hnearer.trans ((isLeast_flowDistance ⟨j, hc.away⟩).2 hc.away)

/-! ## Candidates after links have been added -/

/-- A link that carries data makes no candidates. -/
lemma Candidate.of_grown {x : Recorded} {l : Link} (hl : l.flow = false)
    (h : (x.grown l).graph.Candidate d m p k b o) : x.graph.Candidate d m p k b o where
  mem := h.mem
  apart := h.apart
  away := by
    have hflow : (x.grown l).graph.FlowLink = x.graph.FlowLink := by
      funext a c
      simp [FlowLink, Recorded.grown, or_and_right, exists_or, hl]
    exact away_congr hflow ▸ h.away
  offers := h.offers
  accords := h.accords
  free := by
    have hfree := h.free
    rw [Recorded.isLinked_grown, Bool.or_eq_false_iff] at hfree
    exact hfree.1

/-- What is settled stays settled if nothing but data links is added. -/
lemma DataSettled.of_makes {P : Graph → Link → Prop} (hP : ∀ g l, P g l → l.flow = false)
    {x y : Recorded} (h : Recorded.Makes P x y) (hx : x.graph.DataSettled d m p) :
    y.graph.DataSettled d m p := by
  induction h with
  | refl => exact hx
  | grow _ _ link ih =>
    refine ih.imp (fun hlinked => ?_) fun hnone k b o hc => hnone k b o (hc.of_grown (hP _ _ link))
    rw [Recorded.isLinked_grown, hlinked, Bool.true_or]

/-! ## The data step -/

/-- Link `l` joins a free data pin that node `m` advertises to a candidate, and no candidate is nearer. -/
def Matched (g : Graph) (d : Direction) (m : Node) (l : Link) : Prop :=
  ∃ p k b o, p ∈ m.preferredData d ∧ g.isLinked p.id = false ∧ g.Candidate d m p k b o ∧
    (∀ j b' o', g.Candidate d m p j b' o' → k ≤ j) ∧ l = .between d l.id m b p o

/-- Matched pins carry data. -/
lemma Matched.flow {l : Link} (h : g.Matched d m l) : l.flow = false := by
  obtain ⟨p, k, b, o, -, -, hc, -, heq⟩ := h
  have htypes := hc.accords
  simp only [PinType.accords, Bool.and_eq_true, Bool.not_eq_true'] at htypes
  rw [heq, Link.between_flow, Pin.isFlow, htypes.1.1]

/-- A pin that carries nothing may be joined to a candidate. -/
lemma Candidate.joinable (h : g.Candidate d m p k b o) (hwell : ∀ a ∈ g.nodes, a.AdvertisesWell)
    (hm : m ∈ g.nodes) (hp : p ∈ m.preferredData d) (hfree : g.isLinked p.id = false) :
    g.Joinable d m b p o where
  node := hm
  other := h.mem
  apart := h.apart
  owns := Node.mem_pins_of_preferredData hp
  owns_other := ((hwell b h.mem).offers h.offers).1
  direction := ((hwell m hm).data d p hp).1
  opposite := ((hwell b h.mem).offers h.offers).2
  suits := .inr h.accords
  unfed := unfed_of_not_isLinked hfree h.free

namespace Recorded

section

variable {x : Recorded} (hx : x.graph.WellFormed) (hwell : ∀ a ∈ x.graph.nodes, a.AdvertisesWell)
  (hm : m ∈ x.graph.nodes)
include hx hwell hm

/-- **What wiring does for a free data pin.** It joins the pin to a nearest candidate, or there is none. -/
lemma linkData_cases (hp : p ∈ m.preferredData d) (hfree : x.graph.isLinked p.id = false) :
    (linkData m.id d x p.id = x ∧ ∀ k b o, ¬ x.graph.Candidate d m p k b o) ∨
    ∃ k b o, linkData m.id d x p.id = x.grown (.between d x.supply.takeLink.1 m b p o) ∧
      x.graph.Candidate d m p k b o ∧ ∀ j b' o', x.graph.Candidate d m p j b' o' → k ≤ j := by
  rw [linkData, hx.pin?_of_mem hm (Node.mem_pins_of_preferredData hp)]
  dsimp only
  cases hoffered : x.graph.offeredPin? m.id d.heading d.opposite p.type.accords with
  | none => exact .inl ⟨rfl, fun k b o => offeredPin?_none hx hoffered⟩
  | some i =>
    obtain ⟨k, b, o, rfl, hc, hnearest⟩ := offeredPin?_nearest hx hoffered
    exact .inr ⟨k, b, o, tryJoin_eq hx (hc.joinable hwell hm hp hfree), hc, hnearest⟩

/-- **What wiring does for the data pins of one side.** Links are made that each join a pin to a nearest
candidate, and in the end all of the pins are settled. -/
theorem foldl_linkData {pins : List Pin} (hpins : ∀ p ∈ pins, p ∈ m.preferredData d)
    (hnodup : pins.Nodup) (hfree : ∀ p ∈ pins, x.graph.isLinked p.id = false) :
    Makes (fun g => g.Matched d m) x ((pins.map Pin.id).foldl (linkData m.id d) x) ∧
      ((pins.map Pin.id).foldl (linkData m.id d) x).graph.WellFormed ∧
      ∀ p ∈ pins, ((pins.map Pin.id).foldl (linkData m.id d) x).graph.DataSettled d m p := by
  induction pins generalizing x with
  | nil => exact ⟨.refl, hx, by simp⟩
  | cons p rest ih =>
    simp only [List.forall_mem_cons, List.nodup_cons] at hpins hnodup hfree
    rw [List.map_cons, List.foldl_cons]
    have hdata : ∀ g l, Matched g d m l → l.flow = false := fun _ _ => Matched.flow
    rcases linkData_cases hx hwell hm hpins.1 hfree.1 with
      ⟨hsame, hnone⟩ | ⟨k, b, o, hgrown, hc, hnearest⟩
    · rw [hsame]
      obtain ⟨hmakes, hwf, hsettled⟩ := ih hx hwell hm hpins.2 hnodup.2 hfree.2
      exact ⟨hmakes, hwf, List.forall_mem_cons.mpr ⟨.of_makes hdata hmakes (.inr hnone), hsettled⟩⟩
    · rw [hgrown]
      have hjoin := hc.joinable hwell hm hpins.1 hfree.1
      -- the other pins are not those that have been joined
      have hrest : ∀ q ∈ rest,
          (x.grown (.between d x.supply.takeLink.1 m b p o)).graph.isLinked q.id = false := by
        intro q hq
        have hown := Node.mem_pins_of_preferredData (hpins.2 q hq)
        rw [Recorded.isLinked_grown, hfree.2 q hq, Bool.false_or, Bool.eq_false_iff, ne_eq,
          hjoin.involvesPin_iff hx hm hown]
        rintro (⟨-, rfl⟩ | ⟨rfl, -⟩)
        · exact hnodup.1 hq
        · exact hc.apart rfl
      obtain ⟨hmakes, hwf, hsettled⟩ := ih (grown_wellFormed hx hjoin x.supply.takeLink.1) hwell hm
        hpins.2 hnodup.2 hrest
      have hfirst : Makes (fun g => g.Matched d m) x (x.grown (.between d x.supply.takeLink.1 m b p o)) :=
        Makes.refl.grow (granted_of_joinable hx hjoin _)
          ⟨p, k, b, o, hpins.1, hfree.1, hc, hnearest, by rw [Link.between_id]⟩
      refine ⟨hfirst.trans hmakes, hwf, List.forall_mem_cons.mpr
        ⟨.of_makes hdata hmakes (.inl ?_), hsettled⟩⟩
      rw [Recorded.isLinked_grown, Link.involvesPin_between.mpr (.inl rfl), Bool.or_true]

end

end Recorded

end Graph

end Patchbay
