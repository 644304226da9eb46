import Patchbay.Proofs.Graph.DataCycles
import Patchbay.Proofs.Graph.Reporting

/-!
# The two sides of a node

Wiring does the same for the inputs of a node as for its outputs, only the other way round. So that it need
not be said twice, this module speaks of a side by its direction: which pins a node advertises there
(`Node.preferredFlow`, `Node.preferredData`), where the walk for partners goes (`Direction.heading`), and which
link joins a pin to a pin of another node (`Link.between`).

`Node.AdvertisesWell` is what a node has to keep to so that nothing wiring asks for is refused. All built-in
nodes do.
-/

namespace Patchbay

namespace Direction

/-- The direction of the pins that a pin may be linked to. -/
def opposite : Direction → Direction
  | .input => .output
  | .output => .input

/-- Where flow goes through a pin, seen from its node. -/
def heading : Direction → Heading
  | .input => .upstream
  | .output => .downstream

end Direction

/-! ## Types of pins -/

theorem PinType.accords_comm (a b : PinType) : a.accords b = b.accords a := by
  simp only [accords, Bool.and_comm, Bool.or_comm, BEq.comm]

/-- Two pins may be linked for what they carry: both carry flow, or their data is of the same type or of any. -/
def Pin.Suits (p q : Pin) : Prop := p.isFlow = true ∧ q.isFlow = true ∨ p.type.accords q.type = true

namespace Pin.Suits

variable {p q : Pin}

theorem symm (h : p.Suits q) : q.Suits p :=
  h.imp And.symm fun h => by rwa [PinType.accords_comm]

theorem connectsTo (h : p.Suits q) : p.type.connectsTo q.type = true := by
  rcases h with ⟨hp, hq⟩ | h
  · rw [Pin.isFlow] at hp hq
    simp [PinType.connectsTo, hp, hq]
  · have hdata := h
    simp only [PinType.accords, Bool.and_eq_true, Bool.not_eq_true'] at hdata
    simp [PinType.connectsTo, hdata.1.1, hdata.1.2, h]

theorem isFlow_eq (h : p.Suits q) : q.isFlow = p.isFlow := by
  rcases h with ⟨hp, hq⟩ | h
  · rw [hp, hq]
  · simp only [PinType.accords, Bool.and_eq_true, Bool.not_eq_true'] at h
    rw [Pin.isFlow, Pin.isFlow, h.1.1, h.1.2]

end Pin.Suits

/-! ## What a node advertises -/

namespace Node

variable {n : Node} {d : Direction} {p : Pin}

/-- The data pins of a direction that a node advertises, the most wanted first. -/
def preferredData (n : Node) : Direction → List Pin
  | .input => n.advertised.dataIn
  | .output => n.advertised.dataOut

/-- A neighbour may be wired to a data pin of this direction: the node advertises it, or it advertises no data
pin of this direction and the pin is one of all it has. -/
def Offers (n : Node) (d : Direction) (p : Pin) : Prop :=
  p.isFlow = false ∧ (p ∈ n.preferredData d ∨ n.preferredData d = [] ∧ p ∈ n.body.side d)

theorem mem_offered : p ∈ n.offered d ↔ n.Offers d p := by
  have hoffered : n.offered d =
      (if (n.preferredData d).isEmpty then n.body.side d else n.preferredData d).filter
        fun p => !p.isFlow := by
    cases d <;> rfl
  rw [hoffered, List.mem_filter, Bool.not_eq_true', and_comm]
  refine and_congr_right fun _ => ?_
  cases hpreferred : n.preferredData d with
  | nil => simp
  | cons q rest => simp

theorem mem_pins_of_preferredFlow (h : n.preferredFlow d = some p) : p ∈ n.pins := by
  cases d with
  | input => exact mem_pins_of_flow (.inl h)
  | output => exact mem_pins_of_flow (.inr h)

theorem mem_pins_of_preferredData (h : p ∈ n.preferredData d) : p ∈ n.pins := by
  cases d with
  | input => exact mem_pins_of_advertised (.inl h)
  | output => exact mem_pins_of_advertised (.inr h)

/-- An advertised flow pin carries flow the way it is expected to. -/
theorem AdvertisesFlow.preferred (hn : n.AdvertisesFlow) (h : n.preferredFlow d = some p) :
    p ∈ n.pins ∧ p.direction = d ∧ p.isFlow = true := by
  refine ⟨mem_pins_of_preferredFlow h, ?_⟩
  cases d with
  | input => exact (hn.entrance p h).imp_right fun htype => by rw [Pin.isFlow, htype]; rfl
  | output => exact (hn.exit p h).imp_right fun htype => by rw [Pin.isFlow, htype]; rfl

/-- What a node advertises is of the kind and direction that wiring expects, and nothing twice. It need not be
said that it is among its own pins: a node cannot advertise others. -/
structure AdvertisesWell (n : Node) : Prop extends n.AdvertisesFlow where
  data : ∀ d, ∀ p ∈ n.preferredData d, p.direction = d ∧ p.isFlow = false
  once : ∀ d, (n.preferredData d).Nodup
  /-- Its inputs are inputs and its outputs are outputs. -/
  sides : ∀ d, ∀ p ∈ n.body.side d, p.direction = d

/-- What a node offers is of the direction that is asked for. -/
theorem AdvertisesWell.offers (hn : n.AdvertisesWell) (h : n.Offers d p) :
    p ∈ n.pins ∧ p.direction = d := by
  refine ⟨mem_pins_of_offered (mem_offered.mpr h), ?_⟩
  rcases h.2 with h | ⟨-, h⟩
  · exact (hn.data d p h).1
  · exact hn.sides d p h

theorem advertisesWell_of_builtin (hn : n.body.isBuiltin = true) : n.AdvertisesWell where
  toAdvertisesFlow := advertisesFlow_of_builtin hn
  data d p hp := by
    cases d <;> cases hbody : n.body <;>
      simp only [preferredData, advertised, hbody, Body.advertised, List.mem_cons,
        List.not_mem_nil, or_false, Body.isBuiltin, Bool.false_eq_true] at hp hn
    case input.transition => rcases hp with rfl | rfl <;> exact ⟨rfl, rfl⟩
    all_goals exact hp ▸ ⟨rfl, rfl⟩
  once d := by
    cases d <;> cases hbody : n.body <;>
      simp only [preferredData, advertised, hbody, Body.advertised, Body.isBuiltin,
        Bool.false_eq_true] at hn ⊢
    case input.transition => simp [TransitionPins.firstPin, TransitionPins.secondPin, Pin.input]
    all_goals simp
  sides d p hp := by
    cases d with
    | input => exact direction_of_mem_inputs hn hp
    | output => exact direction_of_mem_outputs hn hp

end Node

/-- The inputs of a new node are inputs and its outputs are outputs, whatever type it is of. -/
theorem NodeType.direction_of_create (t : NodeType) (id : NodeId) (s : Supply) {d : Direction} {p : Pin}
    (hp : p ∈ (t.create id s).1.body.side d) : p.direction = d := by
  have hmade : ∀ (specs : List PinSpec) (s : Supply), ∀ p ∈ (makePins specs s).1,
      ∃ spec ∈ specs, p.direction = spec.direction := by
    intro specs
    induction specs with
    | nil => simp [makePins]
    | cons spec rest ih =>
      intro s p hp
      rcases List.mem_cons.mp hp with rfl | hp
      · exact ⟨spec, List.mem_cons_self, rfl⟩
      · obtain ⟨spec', hspec', heq⟩ := ih _ p hp
        exact ⟨spec', List.mem_cons_of_mem spec hspec', heq⟩
  cases t with
  | builtin b =>
    cases d with
    | input => exact Node.direction_of_mem_inputs (by cases b <;> rfl) hp
    | output => exact Node.direction_of_mem_outputs (by cases b <;> rfl) hp
  | scripted t =>
    cases d with
    | input =>
      obtain ⟨spec, hspec, heq⟩ := hmade _ _ p hp
      exact heq.trans (beq_iff_eq.mp (List.mem_filter.mp hspec).2)
    | output =>
      obtain ⟨spec, hspec, heq⟩ := hmade _ _ p hp
      exact heq.trans (beq_iff_eq.mp (List.mem_filter.mp hspec).2)

/-! ## Links at a side -/

namespace Link

/-- The end of a link that has a direction. -/
def endPin (l : Link) : Direction → PinId
  | .input => l.toPin
  | .output => l.fromPin

/-- The link that joins pin `p` of node `m`, which has direction `d`, to pin `o` of node `b`. -/
def between (d : Direction) (id : LinkId) (m b : Node) (p o : Pin) : Link :=
  match d with
  | .input => ⟨id, b.id, o.id, m.id, p.id, p.isFlow⟩
  | .output => ⟨id, m.id, p.id, b.id, o.id, p.isFlow⟩

variable {d : Direction} {id : LinkId} {m b : Node} {p o : Pin}

@[simp] theorem between_id : (between d id m b p o).id = id := by cases d <;> rfl

@[simp] theorem between_flow : (between d id m b p o).flow = p.isFlow := by cases d <;> rfl

theorem involvesPin_between {i : PinId} :
    (between d id m b p o).involvesPin i = true ↔ p.id = i ∨ o.id = i := by
  cases d <;> simp [between, involvesPin, or_comm]

@[simp] theorem involvesNode_between : (between d id m b p o).involvesNode m.id = true := by
  cases d <;> simp [between, involvesNode]

end Link

namespace Graph

variable {g : Graph} {d : Direction} {m b : Node} {p o : Pin}

theorem isLinked_iff {i : PinId} : g.isLinked i = true ↔ ∃ l ∈ g.links, l.involvesPin i = true :=
  List.any_eq_true

theorem not_isLinked_iff {i : PinId} :
    g.isLinked i = false ↔ ∀ l ∈ g.links, l.involvesPin i = false := by
  rw [isLinked, List.any_eq_false]
  simp only [Bool.not_eq_true]

/-- A link that touches a pin touches its node. -/
theorem WellFormed.involvesNode_of_involvesPin (hg : g.WellFormed) {l : Link} (hl : l ∈ g.links)
    (hm : m ∈ g.nodes) (hp : p ∈ m.pins) (h : l.involvesPin p.id = true) :
    l.involvesNode m.id = true := by
  obtain ⟨a, b, q, r, hj⟩ := hg.joins l hl
  simp only [Link.involvesPin, Link.involvesNode, Bool.or_eq_true, beq_iff_eq, hj.fromPin, hj.toPin,
    hj.fromNode, hj.toNode] at h ⊢
  exact h.imp (fun h => congrArg Node.id (hg.eq_of_pin hj.source hm hj.owns_source hp h).1)
    fun h => congrArg Node.id (hg.eq_of_pin hj.target hm hj.owns_target hp h).1

/-- The links that begin or end at a pin, in order. -/
def linksAt (g : Graph) (i : PinId) : List Link := g.links.filter fun l => l.involvesPin i

theorem isLinked_eq_linksAt (g : Graph) (i : PinId) : g.isLinked i = !(g.linksAt i).isEmpty := by
  rw [Bool.eq_iff_iff, isLinked_iff]
  simp [linksAt]

theorem linksAt_eq_nil {i : PinId} : g.linksAt i = [] ↔ g.isLinked i = false := by
  simp [isLinked_eq_linksAt]

/-- Nothing speaks against a link between pin `p` of node `m` and pin `o` of node `b`. -/
structure Joinable (g : Graph) (d : Direction) (m b : Node) (p o : Pin) : Prop where
  node : m ∈ g.nodes
  other : b ∈ g.nodes
  apart : b.id ≠ m.id
  owns : p ∈ m.pins
  owns_other : o ∈ b.pins
  direction : p.direction = d
  opposite : o.direction = d.opposite
  suits : p.Suits o
  /-- No link leads to either of the two. -/
  unfed : ∀ l ∈ g.links, l.toPin ≠ p.id ∧ l.toPin ≠ o.id

/-- Pins that carry no link are not fed. -/
theorem unfed_of_not_isLinked (hp : g.isLinked p.id = false) (ho : g.isLinked o.id = false) :
    ∀ l ∈ g.links, l.toPin ≠ p.id ∧ l.toPin ≠ o.id := by
  intro l hl
  have hfree := fun {i} (h : g.isLinked i = false) => not_isLinked_iff.mp h l hl
  simp only [Link.involvesPin, Bool.or_eq_false_iff, beq_eq_false_iff_ne] at hfree
  exact ⟨(hfree hp).2, (hfree ho).2⟩

/-- The link touches no other pins than the two. -/
theorem Joinable.involvesPin_iff (hg : g.WellFormed) (h : g.Joinable d m b p o) {id : LinkId} {c : Node}
    {r : Pin} (hc : c ∈ g.nodes) (hr : r ∈ c.pins) :
    (Link.between d id m b p o).involvesPin r.id = true ↔ c = m ∧ r = p ∨ c = b ∧ r = o := by
  rw [Link.involvesPin_between]
  refine or_congr ⟨hg.eq_of_pin hc h.node hr h.owns ∘ Eq.symm, ?_⟩
    ⟨hg.eq_of_pin hc h.other hr h.owns_other ∘ Eq.symm, ?_⟩
  · rintro ⟨-, rfl⟩
    rfl
  · rintro ⟨-, rfl⟩
    rfl

/-- **A link that nothing speaks against is made.** -/
theorem Joinable.link_eq (hg : g.WellFormed) (h : g.Joinable d m b p o) (id : LinkId) :
    g.link id (Link.between d id m b p o).fromPin (Link.between d id m b p o).toPin =
      .ok { g with links := g.links ++ [.between d id m b p o] } := by
  cases d with
  | input =>
    have hmatch : o.canLinkTo p = true := by
      simp [Pin.canLinkTo, h.direction, h.opposite, Direction.opposite, h.suits.symm.connectsTo]
    have hlink := hg.link_eq id h.other h.node h.owns_other h.owns hmatch h.apart
      fun l hl => (h.unfed l hl).1
    rwa [h.suits.isFlow_eq] at hlink
  | output =>
    have hmatch : p.canLinkTo o = true := by
      simp [Pin.canLinkTo, h.direction, h.opposite, Direction.opposite, h.suits.connectsTo]
    exact hg.link_eq id h.node h.other h.owns h.owns_other hmatch (Ne.symm h.apart)
      fun l hl => (h.unfed l hl).2

end Graph

end Patchbay
