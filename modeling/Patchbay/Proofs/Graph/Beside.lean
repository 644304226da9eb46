import Patchbay.Document.GraphDocument
import Patchbay.Proofs.Graph.WellFormed
import Patchbay.Proofs.Likeness

/-!
# A graph and its copy beside another one

`Graph.Beside host g g' ns ls` says that `g'` is the graph `host` with a copy of `g` appended: the
nodes and links of `host` come first and are untouched, and the others correspond one to one, in
order, to those of `g`. The pairs `ns` and `ls` say which corresponds to which; nodes that correspond
are alike, and links that correspond run between pins in the same places. Identities may be any.

What one graph does with two of its pins, the other does with the pins in the same places: a link is
accepted by both or refused by both for the same reason (`Beside.link`, `Beside.link_error`), and the
links read the same when they are written by nodes and pin names (`Beside.entries`).
-/

namespace Patchbay

/-- In a list of pairs without repeated keys on either side, keys agree on both sides or on none. -/
theorem key_iff_of_nodup {α β κ ν : Type} {key : α → κ} {key' : β → ν} {xs : List (α × β)}
    (h : (xs.map fun x => key x.1).Nodup) (h' : (xs.map fun x => key' x.2).Nodup) {x y : α × β}
    (hx : x ∈ xs) (hy : y ∈ xs) : key x.1 = key y.1 ↔ key' x.2 = key' y.2 :=
  ⟨fun heq => by rw [List.inj_on_of_nodup_map h hx hy heq],
    fun heq => by rw [List.inj_on_of_nodup_map h' hx hy heq]⟩

/-- The reason without the pins that it names. -/
def LinkError.blank : LinkError → LinkError
  | .pinNotFound _ => .pinNotFound default
  | .pinAlreadyLinked _ => .pinAlreadyLinked default
  | e => e

/-- The ends of a link with its nodes renamed. -/
def Loading.LinkEntry.rename (f : NodeId → NodeId) (e : LinkEntry) : LinkEntry :=
  { e with fromNode := f e.fromNode, toNode := f e.toNode }

namespace Graph

open Loading (LinkEntry)

/-- The ends of a link by nodes and pin names, as documents have them. -/
def entryOf? (g : Graph) (l : Link) : Option LinkEntry := do
  let source ← g.pin? l.fromPin
  let target ← g.pin? l.toPin
  return { fromNode := l.fromNode, fromPin := source.name, toNode := l.toNode, toPin := target.name }

/-- What is wrong with a link between pins of the graph. -/
theorem WellFormed.linkFault?_eq {g : Graph} (hg : g.WellFormed) {a b : Node} {p q : Pin}
    (ha : a ∈ g.nodes) (hb : b ∈ g.nodes) (hp : p ∈ a.pins) (hq : q ∈ b.pins) :
    g.linkFault? p.id q.id =
      if p.direction ≠ .output ∨ q.direction ≠ .input then some .wrongDirection
      else if !p.canLinkTo q then some (.incompatiblePins p.type q.type)
      else if a.id = b.id then some .selfLoop
      else if g.isLinked q.id then some (.pinAlreadyLinked q.id)
      else none := by
  simp only [linkFault?, hg.pin?_of_mem ha hp, hg.pin?_of_mem hb hq, hg.owner?_of_mem ha hp,
    hg.owner?_of_mem hb hq, Option.some.injEq]

/-- What linking two pins of the graph comes to. -/
theorem WellFormed.link_of_mem {g : Graph} (hg : g.WellFormed) {a b : Node} {p q : Pin}
    (ha : a ∈ g.nodes) (hb : b ∈ g.nodes) (hp : p ∈ a.pins) (hq : q ∈ b.pins) (id : LinkId) :
    g.link id p.id q.id =
      match g.linkFault? p.id q.id with
      | some e => .error e
      | none => .ok { g with links := g.links ++ [⟨id, a.id, p.id, b.id, q.id, p.isFlow⟩] } := by
  cases hfault : g.linkFault? p.id q.id with
  | some e => simp only [Graph.link, hfault]
  | none =>
    simp only [Graph.link, hfault, hg.pin?_of_mem ha hp, hg.owner?_of_mem ha hp,
      hg.owner?_of_mem hb hq, Option.map_some, Option.getD_some]

/-- Two links run from pins `p` in the same place to pins `q` in the same place. -/
structure LinkAlike (ns : List (Node × Node)) (k : Link × Link) (a b : Node × Node)
    (p q : Pin × Pin) : Prop where
  source : a ∈ ns
  target : b ∈ ns
  owns_source : p ∈ a.1.pins.zip a.2.pins
  owns_target : q ∈ b.1.pins.zip b.2.pins
  left : k.1 = ⟨k.1.id, a.1.id, p.1.id, b.1.id, q.1.id, k.1.flow⟩
  right : k.2 = ⟨k.2.id, a.2.id, p.2.id, b.2.id, q.2.id, k.1.flow⟩

theorem LinkAlike.mono {ns ns' : List (Node × Node)} {k : Link × Link} {a b : Node × Node}
    {p q : Pin × Pin} (h : LinkAlike ns k a b p q) (hsub : ns ⊆ ns') :
    LinkAlike ns' k a b p q :=
  { h with source := hsub h.source, target := hsub h.target }

/-- The graph `g'` is `host` with a copy of `g` appended. -/
structure Beside (host g g' : Graph) (ns : List (Node × Node)) (ls : List (Link × Link)) :
    Prop where
  wellFormed_host : host.WellFormed
  wellFormed : g.WellFormed
  wellFormed' : g'.WellFormed
  name : g'.name = host.name
  nodes : g.nodes = ns.map Prod.fst
  nodes' : g'.nodes = host.nodes ++ ns.map Prod.snd
  links : g.links = ls.map Prod.fst
  links' : g'.links = host.links ++ ls.map Prod.snd
  /-- Nodes that correspond are alike. -/
  alike : ∀ a ∈ ns, a.1.blank = a.2.blank
  /-- Links that correspond run between pins in the same places. -/
  linked : ∀ k ∈ ls, ∃ a b p q, LinkAlike ns k a b p q

namespace Beside

variable {host g g' : Graph} {ns : List (Node × Node)} {ls : List (Link × Link)}
  (h : Beside host g g' ns ls)
include h

/-! ## Nodes and pins that correspond -/

theorem mem_left {a : Node × Node} (ha : a ∈ ns) : a.1 ∈ g.nodes :=
  h.nodes ▸ List.mem_map_of_mem ha

theorem mem_right {a : Node × Node} (ha : a ∈ ns) : a.2 ∈ g'.nodes :=
  h.nodes' ▸ List.mem_append_right _ (List.mem_map_of_mem ha)

theorem nodup_left : (ns.map fun a => a.1.id).Nodup := by
  have hnd := h.wellFormed.nodes_nodup
  rwa [nodeIds, h.nodes, List.map_map] at hnd

theorem nodup_right : (host.nodeIds ++ ns.map fun a => a.2.id).Nodup := by
  have hnd := h.wellFormed'.nodes_nodup
  rwa [nodeIds, h.nodes', List.map_append, List.map_map] at hnd

/-- No node of the copy is a node of the host. -/
theorem apart {a : Node × Node} (ha : a ∈ ns) : a.2.id ∉ host.nodeIds := fun hmem =>
  List.disjoint_of_nodup_append h.nodup_right hmem (List.mem_map_of_mem (f := fun a => a.2.id) ha)

/-- Nodes are told apart in one graph as they are in the other. -/
theorem node_iff {a b : Node × Node} (ha : a ∈ ns) (hb : b ∈ ns) :
    a.1.id = b.1.id ↔ a.2.id = b.2.id :=
  key_iff_of_nodup h.nodup_left h.nodup_right.of_append_right ha hb

end Beside

/-- The pins of nodes that correspond, place by place. -/
def pinPairs (ns : List (Node × Node)) : List (Pin × Pin) :=
  ns.flatMap fun a => a.1.pins.zip a.2.pins

theorem mem_pinPairs {ns : List (Node × Node)} {a : Node × Node} {p : Pin × Pin} (ha : a ∈ ns)
    (hp : p ∈ a.1.pins.zip a.2.pins) : p ∈ pinPairs ns :=
  List.mem_flatMap.mpr ⟨a, ha, hp⟩

/-- The pairs consist of all pins on either side. -/
theorem map_pinPairs {ns : List (Node × Node)} (h : ∀ a ∈ ns, a.1.blank = a.2.blank) :
    (pinPairs ns).map Prod.fst = ns.flatMap (fun a => a.1.pins) ∧
      (pinPairs ns).map Prod.snd = ns.flatMap fun a => a.2.pins := by
  have hlen : ∀ a ∈ ns, a.1.pins.length = a.2.pins.length := fun a ha => by
    simpa only [List.length_map] using congrArg List.length (Node.pins_of_blank (h a ha))
  simp only [pinPairs, List.map_flatMap]
  exact ⟨List.flatMap_congr fun a ha => List.map_fst_zip (hlen a ha).le,
    List.flatMap_congr fun a ha => List.map_snd_zip (hlen a ha).ge⟩

namespace Beside

variable {host g g' : Graph} {ns : List (Node × Node)} {ls : List (Link × Link)}
  (h : Beside host g g' ns ls)
include h

/-- Neither graph has a pin twice. -/
theorem nodup_pinPairs : ((pinPairs ns).map fun x => x.1.id).Nodup ∧
    ((pinPairs ns).map fun x => x.2.id).Nodup := by
  obtain ⟨hfst, hsnd⟩ := map_pinPairs h.alike
  constructor
  · have hnd := h.wellFormed.pins_nodup
    rw [pins, h.nodes, List.flatMap_map, ← hfst, List.map_map] at hnd
    exact hnd
  · have hnd := h.wellFormed'.pins_nodup
    rw [pins, h.nodes', List.flatMap_append, List.flatMap_map, ← hsnd, List.map_append,
      List.map_map] at hnd
    exact hnd.of_append_right

/-- Pins are told apart in one graph as they are in the other. -/
theorem pin_iff {a b : Node × Node} {p q : Pin × Pin} (ha : a ∈ ns) (hb : b ∈ ns)
    (hp : p ∈ a.1.pins.zip a.2.pins) (hq : q ∈ b.1.pins.zip b.2.pins) :
    p.1.id = q.1.id ↔ p.2.id = q.2.id := by
  obtain ⟨hleft, hright⟩ := h.nodup_pinPairs
  exact key_iff_of_nodup hleft hright (mem_pinPairs ha hp) (mem_pinPairs hb hq)

/-- A name leads to pins in the same place. -/
theorem findPin? {a : Node × Node} (ha : a ∈ ns) (d : Direction) (name : String) :
    Option.Rel (fun p q => (p, q) ∈ a.1.pins.zip a.2.pins) (g.findPin? a.1.id d name)
      (g'.findPin? a.2.id d name) := by
  have hleft := h.wellFormed.node?_of_mem (h.mem_left ha)
  have hright := h.wellFormed'.node?_of_mem (h.mem_right ha)
  simpa [Graph.findPin?, hleft, hright] using Node.findPin?_of_blank (h.alike a ha) d name

/-! ## Links that correspond -/

/-- A pin is linked in one graph exactly if the pin in the same place is in the other. -/
theorem isLinked_eq {b : Node × Node} {q : Pin × Pin} (hb : b ∈ ns)
    (hq : q ∈ b.1.pins.zip b.2.pins) : g'.isLinked q.2.id = g.isLinked q.1.id := by
  have hhost : host.links.any (fun l => l.involvesPin q.2.id) = false := by
    rw [List.any_eq_false]
    intro l hl
    obtain ⟨x, y, p, r, hj⟩ := h.wellFormed_host.joins l hl
    -- a pin of the copy belongs to a node of the copy, hence to none of the host
    have hfar : ∀ {m : Node} {o : Pin}, m ∈ host.nodes → o ∈ m.pins → o.id ≠ q.2.id := by
      intro m o hm ho heq
      have hmem : m ∈ g'.nodes := h.nodes' ▸ List.mem_append_left _ hm
      obtain ⟨rfl, -⟩ := h.wellFormed'.eq_of_pin hmem (h.mem_right hb) ho
        (List.of_mem_zip hq).2 heq
      exact h.apart hb (List.mem_map_of_mem hm)
    simp [Link.involvesPin, hj.fromPin, hj.toPin, hfar hj.source hj.owns_source,
      hfar hj.target hj.owns_target]
  have hpin : ∀ {x : Node × Node} {p : Pin × Pin}, x ∈ ns → p ∈ x.1.pins.zip x.2.pins →
      (p.2.id == q.2.id) = (p.1.id == q.1.id) := fun hx hp => by
    rw [Bool.eq_iff_iff, beq_iff_eq, beq_iff_eq, h.pin_iff hx hb hp hq]
  have hcopy : ∀ k ∈ ls, k.2.involvesPin q.2.id = k.1.involvesPin q.1.id := by
    intro k hk
    obtain ⟨x, y, p, r, hk⟩ := h.linked k hk
    rw [hk.left, hk.right]
    simp only [Link.involvesPin, hpin hk.source hk.owns_source, hpin hk.target hk.owns_target]
  rw [isLinked, isLinked, h.links, h.links', List.any_append, hhost, Bool.false_or, List.any_map,
    List.any_map, Bool.eq_iff_iff, List.any_eq_true, List.any_eq_true]
  exact exists_congr fun k => and_congr_right fun hk => by
    rw [Function.comp_apply, Function.comp_apply, hcopy k hk]

/-- What is wrong with a link is the same on both sides. -/
theorem linkFault?_eq {a b : Node × Node} {p q : Pin × Pin} (ha : a ∈ ns) (hb : b ∈ ns)
    (hp : p ∈ a.1.pins.zip a.2.pins) (hq : q ∈ b.1.pins.zip b.2.pins) :
    (g'.linkFault? p.2.id q.2.id).map LinkError.blank =
      (g.linkFault? p.1.id q.1.id).map LinkError.blank := by
  obtain ⟨-, hpdir, hptype⟩ := Pin.of_blank (Node.pin_of_blank (h.alike a ha) hp)
  obtain ⟨-, hqdir, hqtype⟩ := Pin.of_blank (Node.pin_of_blank (h.alike b hb) hq)
  have hcan : p.1.canLinkTo q.1 = p.2.canLinkTo q.2 := by
    rw [Pin.canLinkTo, Pin.canLinkTo, hpdir, hqdir, hptype, hqtype]
  rw [h.wellFormed.linkFault?_eq (h.mem_left ha) (h.mem_left hb) (List.of_mem_zip hp).1
      (List.of_mem_zip hq).1,
    h.wellFormed'.linkFault?_eq (h.mem_right ha) (h.mem_right hb) (List.of_mem_zip hp).2
      (List.of_mem_zip hq).2, hpdir, hqdir, hptype, hqtype, hcan, h.isLinked_eq hb hq]
  simp only [h.node_iff ha hb]
  split_ifs <;> rfl

/-- A link that the one graph refuses is refused by the other for the same reason. -/
theorem link_error {a b : Node × Node} {p q : Pin × Pin} (ha : a ∈ ns) (hb : b ∈ ns)
    (hp : p ∈ a.1.pins.zip a.2.pins) (hq : q ∈ b.1.pins.zip b.2.pins) {id : LinkId}
    {e : LinkError} (hlink : g.link id p.1.id q.1.id = .error e) (id' : LinkId) :
    ∃ e', g'.link id' p.2.id q.2.id = .error e' ∧ e.blank = e'.blank := by
  have hfaults := h.linkFault?_eq ha hb hp hq
  rw [h.wellFormed.link_of_mem (h.mem_left ha) (h.mem_left hb) (List.of_mem_zip hp).1
    (List.of_mem_zip hq).1] at hlink
  rw [h.wellFormed'.link_of_mem (h.mem_right ha) (h.mem_right hb) (List.of_mem_zip hp).2
    (List.of_mem_zip hq).2]
  cases hfault : g.linkFault? p.1.id q.1.id with
  | none => simp [hfault] at hlink
  | some e₀ =>
    simp only [hfault, Except.error.injEq] at hlink
    obtain ⟨e', he', hblank⟩ := Option.map_eq_some_iff.mp (hfaults.trans (by rw [hfault]; rfl))
    exact ⟨e', by rw [he'], hlink ▸ hblank.symm⟩

/-- A link that the one graph accepts is accepted by the other. -/
theorem link {a b : Node × Node} {p q : Pin × Pin} (ha : a ∈ ns) (hb : b ∈ ns)
    (hp : p ∈ a.1.pins.zip a.2.pins) (hq : q ∈ b.1.pins.zip b.2.pins) {id : LinkId}
    {g₁ : Graph} (hlink : g.link id p.1.id q.1.id = .ok g₁) (id' : LinkId) :
    ∃ g₁' k, g'.link id' p.2.id q.2.id = .ok g₁' ∧ Beside host g₁ g₁' ns (ls ++ [k]) := by
  have hfaults := h.linkFault?_eq ha hb hp hq
  have hleft := h.wellFormed.link_of_mem (h.mem_left ha) (h.mem_left hb) (List.of_mem_zip hp).1
    (List.of_mem_zip hq).1 id
  have hright := h.wellFormed'.link_of_mem (h.mem_right ha) (h.mem_right hb)
    (List.of_mem_zip hp).2 (List.of_mem_zip hq).2 id'
  cases hfault : g.linkFault? p.1.id q.1.id with
  | some e => simp [hleft, hfault] at hlink
  | none =>
    rw [hfault, Option.map_none, Option.map_eq_none_iff] at hfaults
    have hok : g₁ = { g with
        links := g.links ++ [⟨id, a.1.id, p.1.id, b.1.id, q.1.id, p.1.isFlow⟩] } := by
      simpa [hleft, hfault, eq_comm] using hlink
    rw [hfaults] at hright
    have hflow : p.1.isFlow = p.2.isFlow := by
      rw [Pin.isFlow, Pin.isFlow, (Pin.of_blank (Node.pin_of_blank (h.alike a ha) hp)).2.2]
    refine ⟨_, (⟨id, a.1.id, p.1.id, b.1.id, q.1.id, p.1.isFlow⟩,
      ⟨id', a.2.id, p.2.id, b.2.id, q.2.id, p.2.isFlow⟩), hright, { h with
        wellFormed := h.wellFormed.link hlink
        wellFormed' := h.wellFormed'.link hright
        nodes := by rw [hok, h.nodes]
        links := by rw [hok, h.links, List.map_append]; rfl
        links' := by simp [h.links']
        linked := ?_ }⟩
    intro k hk
    rcases List.mem_append.mp hk with hk | hk
    · exact h.linked k hk
    · obtain rfl := List.mem_singleton.mp hk
      exact ⟨a, b, p, q, ha, hb, hp, hq, rfl, by rw [hflow]⟩

/-- Alike nodes come in on both sides. -/
theorem addNode {n n' : Node} (hn : n.blank = n'.blank) {g₁ g₁' : Graph}
    (hadd : g.addNode n = .ok g₁) (hadd' : g'.addNode n' = .ok g₁') (hg₁ : g₁.WellFormed)
    (hg₁' : g₁'.WellFormed) : Beside host g₁ g₁' (ns ++ [(n, n')]) ls := by
  obtain ⟨-, hnodes, hlinks⟩ := addNode_parts hadd
  obtain ⟨hname, hnodes', hlinks'⟩ := addNode_parts hadd'
  exact {
    wellFormed_host := h.wellFormed_host
    wellFormed := hg₁
    wellFormed' := hg₁'
    name := hname.trans h.name
    nodes := by rw [hnodes, h.nodes, List.map_append]; rfl
    nodes' := by simp [hnodes', h.nodes']
    links := hlinks.trans h.links
    links' := hlinks'.trans h.links'
    alike := fun a ha => by
      rcases List.mem_append.mp ha with ha | ha
      · exact h.alike a ha
      · obtain rfl := List.mem_singleton.mp ha
        exact hn
    linked := fun k hk => by
      obtain ⟨a, b, p, q, hk⟩ := h.linked k hk
      exact ⟨a, b, p, q, hk.mono (List.subset_append_left _ _)⟩ }

/-! ## What the copy reads like -/

/-- Links that correspond join pins of the same names. -/
theorem entryOf?_eq {k : Link × Link} {a b : Node × Node} {p q : Pin × Pin}
    (hk : LinkAlike ns k a b p q) :
    g.entryOf? k.1 = some ⟨a.1.id, p.1.name, b.1.id, q.1.name⟩ ∧
      g'.entryOf? k.2 = some ⟨a.2.id, p.1.name, b.2.id, q.1.name⟩ := by
  have hp := h.wellFormed.pin?_of_mem (h.mem_left hk.source) (List.of_mem_zip hk.owns_source).1
  have hq := h.wellFormed.pin?_of_mem (h.mem_left hk.target) (List.of_mem_zip hk.owns_target).1
  have hp' := h.wellFormed'.pin?_of_mem (h.mem_right hk.source) (List.of_mem_zip hk.owns_source).2
  have hq' := h.wellFormed'.pin?_of_mem (h.mem_right hk.target) (List.of_mem_zip hk.owns_target).2
  have hpname := (Pin.of_blank (Node.pin_of_blank (h.alike a hk.source) hk.owns_source)).1
  have hqname := (Pin.of_blank (Node.pin_of_blank (h.alike b hk.target) hk.owns_target)).1
  rw [hk.left, hk.right]
  simp [entryOf?, hp, hq, hp', hq', hpname, hqname]

/-- **The links of the copy** are those of the graph, by pin names and with the nodes renamed. -/
theorem entries {f : NodeId → NodeId} (hf : ∀ a ∈ ns, f a.1.id = a.2.id) :
    (ls.map Prod.snd).map g'.entryOf? =
      g.links.map fun l => (g.entryOf? l).map (LinkEntry.rename f) := by
  rw [h.links, List.map_map, List.map_map]
  refine List.map_congr_left fun k hk => ?_
  obtain ⟨a, b, p, q, hk⟩ := h.linked k hk
  obtain ⟨hleft, hright⟩ := h.entryOf?_eq hk
  rw [Function.comp_apply, Function.comp_apply, hleft, hright, Option.map_some, LinkEntry.rename,
    hf a hk.source, hf b hk.target]

/-- No link of the copy touches a node of the host. -/
theorem involvesNode_eq {k : Link × Link} (hk : k ∈ ls) {n : NodeId} (hn : n ∈ host.nodeIds) :
    k.2.involvesNode n = false := by
  obtain ⟨a, b, p, q, hk⟩ := h.linked k hk
  have hfar : ∀ a ∈ ns, a.2.id ≠ n := fun a ha heq => h.apart ha (heq ▸ hn)
  rw [hk.right, Link.involvesNode]
  simp [hfar a hk.source, hfar b hk.target]

/-- The nodes of the copy are those of the graph. -/
theorem nodes_blank : (ns.map Prod.snd).map Node.blank = g.nodes.map Node.blank := by
  rw [h.nodes, List.map_map, List.map_map]
  exact List.map_congr_left fun a ha => (h.alike a ha).symm

end Beside

/-- A copy of nothing stands beside every graph. -/
theorem beside_empty {host : Graph} (hhost : host.WellFormed) (name : String) :
    Beside host (Graph.empty name) host [] [] where
  wellFormed_host := hhost
  wellFormed := wellFormed_empty name
  wellFormed' := hhost
  name := rfl
  nodes := rfl
  nodes' := (List.append_nil _).symm
  links := rfl
  links' := (List.append_nil _).symm
  alike := List.forall_mem_nil _
  linked := List.forall_mem_nil _

end Graph

end Patchbay
