import Mathlib.Tactic
import Patchbay.Graph

/-!
# Well-formed graphs

`Graph.WellFormed` is what every statement about graphs rests on. It ties the three parts of a graph
together: the nodes have identities of their own, the index knows exactly the pins of the nodes, and
every link joins an output pin to an input pin of another node (`Graph.Joins`), no input pin being
fed twice.

The first half of the module is about looking things up in a well-formed graph: what is there is
found. The second half shows that adding and removing nodes, changing them without touching
identities, linking and unlinking keep a graph well formed.
-/

namespace Patchbay

/-- In a list without repeated keys, searching for the key of a member finds the member. -/
theorem find?_eq_of_mem {α κ : Type} [BEq κ] [LawfulBEq κ] (key : α → κ) {xs : List α} {x : α}
    (hnd : (xs.map key).Nodup) (hx : x ∈ xs) : xs.find? (fun y => key y == key x) = some x := by
  cases hfind : xs.find? (fun y => key y == key x) with
  | none => exact absurd (List.find?_eq_none.mp hfind x hx) (by simp)
  | some y =>
    have hkey : key y = key x := by simpa using List.find?_some hfind
    rw [List.inj_on_of_nodup_map hnd (List.mem_of_find?_eq_some hfind) hx hkey]

namespace Graph

/-- All pins of the nodes of a graph. -/
def pins (g : Graph) : List Pin := g.nodes.flatMap Node.pins

/-- A link joins output pin `p` of node `a` to input pin `q` of another node `b`. -/
structure Joins (g : Graph) (l : Link) (a b : Node) (p q : Pin) : Prop where
  source : a ∈ g.nodes
  target : b ∈ g.nodes
  fromNode : l.fromNode = a.id
  toNode : l.toNode = b.id
  fromPin : l.fromPin = p.id
  toPin : l.toPin = q.id
  owns_source : p ∈ a.pins
  owns_target : q ∈ b.pins
  output : p.direction = .output
  input : q.direction = .input
  apart : a.id ≠ b.id
  types : p.type.connectsTo q.type = true
  /-- The link is marked as flow exactly if both pins are. -/
  flow : l.flow = (p.isFlow && q.isFlow)

/-- Flow pins are linked to flow pins alone. -/
theorem Joins.isFlow_eq {g : Graph} {l : Link} {a b : Node} {p q : Pin} (h : g.Joins l a b p q) :
    p.isFlow = l.flow ∧ q.isFlow = l.flow := by
  have htypes := h.types
  rw [h.flow]
  simp only [PinType.connectsTo, Pin.isFlow] at htypes ⊢
  cases hp : p.type.isFlow <;> cases hq : q.type.isFlow <;> simp_all

/-- What holds of every graph that a host can build. -/
structure WellFormed (g : Graph) : Prop where
  /-- No two nodes share an identity. -/
  nodes_nodup : g.nodeIds.Nodup
  /-- No two pins share an identity. -/
  pins_nodup : (g.pins.map Pin.id).Nodup
  /-- The index has one entry for a pin at most. -/
  owners_nodup : (Table.keys g.owners).Nodup
  /-- The index knows exactly the pins of the nodes, and whose they are. -/
  owner?_iff : ∀ i n, g.owner? i = some n ↔ ∃ m ∈ g.nodes, m.id = n ∧ ∃ p ∈ m.pins, p.id = i
  /-- Every link joins two pins. -/
  joins : ∀ l ∈ g.links, ∃ a b p q, g.Joins l a b p q
  /-- No input pin is fed twice. -/
  targets_nodup : (g.links.map Link.toPin).Nodup

/-! ## Looking up -/

theorem mem_nodeIds {g : Graph} {n : NodeId} : n ∈ g.nodeIds ↔ ∃ m ∈ g.nodes, m.id = n := by
  simp [nodeIds]

theorem node?_some {g : Graph} {n : NodeId} {m : Node} (h : g.node? n = some m) :
    m ∈ g.nodes ∧ m.id = n :=
  ⟨List.mem_of_find?_eq_some h, by simpa using List.find?_some h⟩

theorem hasNode_iff {g : Graph} {n : NodeId} : g.hasNode n = true ↔ n ∈ g.nodeIds := by
  simp [hasNode, nodeIds]

/-- A pin that is found belongs to the node that the index names. -/
theorem pin?_some {g : Graph} {i : PinId} {p : Pin} (h : g.pin? i = some p) :
    ∃ m ∈ g.nodes, g.owner? i = some m.id ∧ p ∈ m.pins ∧ p.id = i := by
  simp only [pin?, Option.bind_eq_bind, Option.bind_eq_some_iff] at h
  obtain ⟨n, hn, m, hm, hp⟩ := h
  obtain ⟨hmem, rfl⟩ := node?_some hm
  exact ⟨m, hmem, hn, List.mem_of_find?_eq_some hp, by simpa using List.find?_some hp⟩

/-- A link that no rule forbids joins two pins, and its goal is not fed yet. -/
theorem joins_of_linkFault? {g : Graph} {i j : PinId} (h : g.linkFault? i j = none) :
    ∃ a b p q, g.owner? i = some a.id ∧ g.owner? j = some b.id ∧ g.pin? i = some p ∧
      (∀ id, g.Joins ⟨id, a.id, i, b.id, j, p.isFlow⟩ a b p q) ∧ ∀ l ∈ g.links, l.toPin ≠ j := by
  rw [linkFault?] at h
  split at h
  · simp at h
  · simp at h
  · rename_i p q hp hq
    obtain ⟨a, ha, howna, hpa, rfl⟩ := pin?_some hp
    obtain ⟨b, hb, hownb, hqb, rfl⟩ := pin?_some hq
    simp only [howna, hownb, Option.some.injEq] at h
    split_ifs at h with hdir hcan hown hlinked
    simp only [not_or, not_not] at hdir
    simp only [Bool.not_eq_true, Bool.not_eq_false'] at hcan
    have htypes : p.type.connectsTo q.type = true := by
      simp only [Pin.canLinkTo, Bool.and_eq_true] at hcan
      exact hcan.2
    have hflow : p.isFlow = (p.isFlow && q.isFlow) := by
      simp only [PinType.connectsTo] at htypes
      simp only [Pin.isFlow]
      cases hpf : p.type.isFlow <;> cases hqf : q.type.isFlow <;> simp_all
    refine ⟨a, b, p, q, howna, hownb, hp, fun id => ?_, fun l hl hto => hlinked ?_⟩
    · exact ⟨ha, hb, rfl, rfl, rfl, rfl, hpa, hqb, hdir.1, hdir.2, hown, htypes, hflow⟩
    · exact List.any_eq_true.mpr ⟨l, hl, by simp [Link.involvesPin, hto]⟩

/-- What linking comes to: a link between two pins is added, and the pin it feeds was not fed. -/
theorem link_spec {g g' : Graph} {id : LinkId} {i j : PinId} (h : g.link id i j = .ok g') :
    ∃ l a b p q, g.Joins l a b p q ∧ l.id = id ∧ l.fromPin = i ∧ l.toPin = j ∧
      g' = { g with links := g.links ++ [l] } ∧ ∀ k ∈ g.links, k.toPin ≠ j := by
  rw [link] at h
  split at h
  · cases h
  · rename_i hfault
    obtain ⟨a, b, p, q, ha, hb, hp, hjoins, hfree⟩ := joins_of_linkFault? hfault
    simp only [ha, hb, hp, Option.map_some, Option.getD_some, Except.ok.injEq] at h
    exact ⟨_, a, b, p, q, hjoins id, rfl, rfl, rfl, h.symm, hfree⟩

/-- The link that is added is between the nodes that own the two pins by the index. -/
theorem link_owners {g g' : Graph} {id : LinkId} {i j : PinId} (h : g.link id i j = .ok g') :
    ∃ l, l.id = id ∧ g.owner? i = some l.fromNode ∧ g.owner? j = some l.toNode ∧
      g' = { g with links := g.links ++ [l] } := by
  rw [link] at h
  split at h
  · cases h
  · split at h
    · rename_i a b ha hb
      exact ⟨_, rfl, ha, hb, (Except.ok.inj h).symm⟩
    · cases h
    · cases h

/-- A node comes in if no node has its identity. -/
theorem addNode_isOk {g : Graph} {n : Node} (h : n.id ∉ g.nodeIds) : ∃ g', g.addNode n = .ok g' := by
  rw [addNode, if_neg (by rwa [hasNode_iff])]
  exact ⟨_, rfl⟩

/-- A node comes in at the end and changes nothing else but the index. -/
theorem addNode_parts {g g' : Graph} {n : Node} (h : g.addNode n = .ok g') :
    g'.name = g.name ∧ g'.nodes = g.nodes ++ [n] ∧ g'.links = g.links := by
  rw [addNode] at h
  split at h
  · cases h
  · obtain rfl := Except.ok.inj h
    exact ⟨rfl, rfl, rfl⟩

/-! ## What changes do to the index -/

/-- Adding a node makes it the owner of its pins. -/
theorem owner?_addNode {g g' : Graph} {n : Node} (h : g.addNode n = .ok g') (i : PinId) :
    g'.owner? i = if i ∈ n.pins.map Pin.id then some n.id else g.owner? i := by
  rw [addNode] at h
  split at h
  · cases h
  · obtain rfl := Except.ok.inj h
    exact Table.get?_foldl_set Pin.id n.id n.pins g.owners i

/-- Removing a node gives no pin an owner. -/
theorem owner?_removeNode {g : Graph} {i : PinId} (n : NodeId) (h : g.owner? i = none) :
    (g.removeNode n).owner? i = none := by
  rw [owner?, Table.get?_eq_none_iff] at h ⊢
  exact fun hmem => h ((List.filter_sublist.map Prod.fst).subset hmem)

/-- Linking leaves the index alone. -/
theorem owner?_link {g g' : Graph} {id : LinkId} {i j : PinId} (h : g.link id i j = .ok g') :
    g'.owners = g.owners := by
  rw [link] at h
  split at h
  · cases h
  · split at h
    · obtain rfl := Except.ok.inj h
      rfl
    · cases h
    · cases h

namespace WellFormed

variable {g : Graph} (hg : g.WellFormed)
include hg

/-- Every node of the graph is found under its identity. -/
theorem node?_of_mem {m : Node} (hm : m ∈ g.nodes) : g.node? m.id = some m :=
  find?_eq_of_mem Node.id hg.nodes_nodup hm

/-- The nodes of the graph are told apart by their identities. -/
theorem eq_of_id {a b : Node} (ha : a ∈ g.nodes) (hb : b ∈ g.nodes) (h : a.id = b.id) : a = b := by
  have hfind := hg.node?_of_mem ha
  rw [h, hg.node?_of_mem hb] at hfind
  exact (Option.some.inj hfind).symm

/-- The pins of one node have identities of their own. -/
theorem node_pins_nodup {m : Node} (hm : m ∈ g.nodes) : (m.pins.map Pin.id).Nodup := by
  have h := hg.pins_nodup
  rw [pins, List.map_flatMap, List.nodup_flatMap] at h
  exact h.1 m hm

/-- The index names the owner of every pin. -/
theorem owner?_of_mem {m : Node} {p : Pin} (hm : m ∈ g.nodes) (hp : p ∈ m.pins) :
    g.owner? p.id = some m.id :=
  (hg.owner?_iff _ _).mpr ⟨m, hm, rfl, p, hp, rfl⟩

/-- Every pin of a node is found under its identity. -/
theorem pin?_of_mem {m : Node} {p : Pin} (hm : m ∈ g.nodes) (hp : p ∈ m.pins) :
    g.pin? p.id = some p := by
  have hfind : m.pin? p.id = some p := find?_eq_of_mem Pin.id (hg.node_pins_nodup hm) hp
  simp [pin?, hg.owner?_of_mem hm hp, hg.node?_of_mem hm, hfind]

/-- A pin belongs to one node only. -/
theorem eq_of_pin {a b : Node} {p q : Pin} (ha : a ∈ g.nodes) (hb : b ∈ g.nodes)
    (hp : p ∈ a.pins) (hq : q ∈ b.pins) (h : p.id = q.id) : a = b ∧ p = q := by
  have hfind := hg.pin?_of_mem ha hp
  rw [h, hg.pin?_of_mem hb hq] at hfind
  have howner := hg.owner?_of_mem ha hp
  rw [h, hg.owner?_of_mem hb hq] at howner
  exact ⟨hg.eq_of_id ha hb (Option.some.inj howner).symm, (Option.some.inj hfind).symm⟩

/-- The link that feeds an input pin joins some output to it. -/
theorem linkTo?_joins {i : PinId} {l : Link} (h : g.linkTo? i = some l) :
    l ∈ g.links ∧ l.toPin = i ∧ ∃ a b p q, g.Joins l a b p q :=
  have hmem := List.mem_of_find?_eq_some h
  ⟨hmem, by simpa using List.find?_some h, hg.joins l hmem⟩

/-- Every link is found as the one that feeds its input pin. -/
theorem linkTo?_of_mem {l : Link} (hl : l ∈ g.links) : g.linkTo? l.toPin = some l :=
  find?_eq_of_mem Link.toPin hg.targets_nodup hl

/-- The first link that leaves an output pin joins it to some input. -/
theorem linksFrom_joins {i : PinId} {l : Link} (h : l ∈ g.linksFrom i) :
    l ∈ g.links ∧ l.fromPin = i ∧ ∃ a b p q, g.Joins l a b p q := by
  obtain ⟨hmem, hpin⟩ := List.mem_filter.mp h
  exact ⟨hmem, by simpa using hpin, hg.joins l hmem⟩

/-- No link leaves an input pin. -/
theorem fromPin_ne {l : Link} {m : Node} {p : Pin} (hl : l ∈ g.links) (hm : m ∈ g.nodes)
    (hp : p ∈ m.pins) (hinput : p.direction = .input) : l.fromPin ≠ p.id := by
  intro heq
  obtain ⟨a, b, q, r, hj⟩ := hg.joins l hl
  obtain ⟨-, rfl⟩ := hg.eq_of_pin hj.source hm hj.owns_source hp (hj.fromPin.symm.trans heq)
  have hout := hj.output
  rw [hinput] at hout
  cases hout

/-- Once a link has been taken out, nothing leads to its end: nothing else ever did. -/
theorem toPin_ne_of_mem_unlink {k l : Link} (hl : l ∈ g.links) (hk : k ∈ (g.unlink l.id).links) :
    k.toPin ≠ l.toPin := by
  obtain ⟨hkg, hne⟩ : k ∈ g.links ∧ k.id ≠ l.id := by simpa [Graph.unlink] using hk
  exact fun heq => hne (congrArg Link.id (List.inj_on_of_nodup_map hg.targets_nodup hkg hl heq))

/-- **Linking succeeds** between pins of different nodes that match, if the input is not fed. -/
theorem link_eq (id : LinkId) {a b : Node} {p q : Pin} (ha : a ∈ g.nodes) (hb : b ∈ g.nodes)
    (hp : p ∈ a.pins) (hq : q ∈ b.pins) (hmatch : p.canLinkTo q = true) (hapart : a.id ≠ b.id)
    (hfree : ∀ l ∈ g.links, l.toPin ≠ q.id) :
    g.link id p.id q.id =
      .ok { g with links := g.links ++ [⟨id, a.id, p.id, b.id, q.id, p.isFlow⟩] } := by
  have hdirs : p.direction = .output ∧ q.direction = .input := by
    simp only [Pin.canLinkTo, Bool.and_eq_true, beq_iff_eq] at hmatch
    exact hmatch.1
  have hunlinked : g.isLinked q.id = false := by
    rw [isLinked, List.any_eq_false]
    intro l hl
    simp [Link.involvesPin, hfree l hl, hg.fromPin_ne hl hb hq hdirs.2]
  have hfault : g.linkFault? p.id q.id = none := by
    simp [linkFault?, hg.pin?_of_mem ha hp, hg.pin?_of_mem hb hq, hg.owner?_of_mem ha hp,
      hg.owner?_of_mem hb hq, hdirs, hmatch, hapart, hunlinked]
  simp [Graph.link, hfault, hg.owner?_of_mem ha hp, hg.owner?_of_mem hb hq, hg.pin?_of_mem ha hp]

/-! ## Keeping a graph well formed -/

/-- Dropping links keeps a graph well formed. -/
theorem restrict {links : List Link} (h : links.Sublist g.links) :
    { g with links }.WellFormed where
  nodes_nodup := hg.nodes_nodup
  pins_nodup := hg.pins_nodup
  owners_nodup := hg.owners_nodup
  owner?_iff := hg.owner?_iff
  joins l hl := by
    obtain ⟨a, b, p, q, hj⟩ := hg.joins l (h.subset hl)
    exact ⟨a, b, p, q, { hj with }⟩
  targets_nodup := hg.targets_nodup.sublist (h.map _)

theorem unlink (l : LinkId) : (g.unlink l).WellFormed := hg.restrict List.filter_sublist

theorem unlinkPin (i : PinId) : (g.unlinkPin i).WellFormed := hg.restrict List.filter_sublist

/-- Linking keeps a graph well formed. -/
theorem link {id : LinkId} {i j : PinId} {g' : Graph} (h : g.link id i j = .ok g') :
    g'.WellFormed := by
  rw [Graph.link] at h
  split at h
  · cases h
  · rename_i hfault
    obtain ⟨a, b, p, q, ha, hb, hp, hjoins, hfree⟩ := joins_of_linkFault? hfault
    simp only [ha, hb, hp, Option.map_some, Option.getD_some, Except.ok.injEq] at h
    subst h
    refine ⟨hg.nodes_nodup, hg.pins_nodup, hg.owners_nodup, hg.owner?_iff, fun l hl => ?_, ?_⟩
    · rcases List.mem_append.mp hl with hl | hl
      · obtain ⟨a, b, p, q, hj⟩ := hg.joins l hl
        exact ⟨a, b, p, q, { hj with }⟩
      · obtain rfl := List.mem_singleton.mp hl
        exact ⟨a, b, p, q, { hjoins id with }⟩
    · rw [List.map_append, List.nodup_append]
      refine ⟨hg.targets_nodup, List.nodup_singleton _, fun t ht t' ht' => ?_⟩
      obtain ⟨l, hl, rfl⟩ := List.mem_map.mp ht
      simp only [List.map_cons, List.map_nil, List.mem_singleton] at ht'
      exact ht' ▸ hfree l hl

/-- Adding a node keeps a graph well formed if its pins are new to the graph. -/
theorem addNode {n : Node} (hn : (n.pins.map Pin.id).Nodup)
    (hnew : ∀ p ∈ n.pins, g.owner? p.id = none) {g' : Graph} (h : g.addNode n = .ok g') :
    g'.WellFormed := by
  have howner := owner?_addNode h
  rw [Graph.addNode] at h
  split at h
  · cases h
  rename_i habsent
  rw [hasNode_iff] at habsent
  obtain rfl := Except.ok.inj h
  refine ⟨?_, ?_, ?_, fun i m => ?_, fun l hl => ?_, hg.targets_nodup⟩
  · rw [nodeIds, List.map_append, List.map_singleton, ← List.concat_eq_append]
    exact hg.nodes_nodup.concat habsent
  · have hpins : (g.nodes ++ [n]).flatMap Node.pins = g.pins ++ n.pins := by simp [pins]
    rw [pins, hpins, List.map_append, List.nodup_append]
    refine ⟨hg.pins_nodup, hn, fun a ha b hb hab => ?_⟩
    obtain ⟨p, hp, rfl⟩ := List.mem_map.mp ha
    obtain ⟨q, hq, rfl⟩ := List.mem_map.mp hb
    obtain ⟨m, hm, hpm⟩ := List.mem_flatMap.mp hp
    have hsome := hg.owner?_of_mem hm hpm
    rw [hab, hnew q hq] at hsome
    cases hsome
  · exact Table.nodup_keys_foldl_set Pin.id n.id n.pins hg.owners_nodup
  · rw [howner]
    split_ifs with hi
    · obtain ⟨p, hp, rfl⟩ := List.mem_map.mp hi
      constructor
      · rintro ⟨⟩
        exact ⟨n, by simp, rfl, p, hp, rfl⟩
      · rintro ⟨m', hm', rfl, q, hq, hqp⟩
        rcases List.mem_append.mp hm' with hm' | hm'
        · have hsome := hg.owner?_of_mem hm' hq
          rw [hqp, hnew p hp] at hsome
          cases hsome
        · rw [List.mem_singleton.mp hm']
    · rw [hg.owner?_iff]
      constructor
      · rintro ⟨m', hm', rest⟩
        exact ⟨m', List.mem_append_left _ hm', rest⟩
      · rintro ⟨m', hm', hid, q, hq, rfl⟩
        rcases List.mem_append.mp hm' with hm' | hm'
        · exact ⟨m', hm', hid, q, hq, rfl⟩
        · obtain rfl := List.mem_singleton.mp hm'
          exact absurd (List.mem_map_of_mem hq) hi
  · obtain ⟨a, b, p, q, hj⟩ := hg.joins l hl
    exact ⟨a, b, p, q, { hj with
      source := List.mem_append_left _ hj.source
      target := List.mem_append_left _ hj.target }⟩

/-- Removing a node keeps a graph well formed. -/
theorem removeNode (n : NodeId) : (g.removeNode n).WellFormed := by
  have hkept : ∀ m, m ∈ (g.removeNode n).nodes ↔ m ∈ g.nodes ∧ m.id ≠ n := by
    simp [Graph.removeNode]
  refine ⟨?_, ?_, ?_, fun i m => ?_, fun l hl => ?_, ?_⟩
  · exact hg.nodes_nodup.sublist (List.filter_sublist.map _)
  · have hsub : (g.removeNode n).pins.Sublist g.pins := by
      simpa [pins, Graph.removeNode, List.flatMap] using (List.filter_sublist.map Node.pins).flatten
    exact hg.pins_nodup.sublist (hsub.map _)
  · exact hg.owners_nodup.sublist (List.filter_sublist.map _)
  · have howner : (g.removeNode n).owner? i = some m ↔ g.owner? i = some m ∧ m ≠ n := by
      have hnd : (Table.keys (g.removeNode n).owners).Nodup :=
        hg.owners_nodup.sublist (List.filter_sublist.map _)
      rw [owner?, owner?, Table.get?_eq_some_iff hnd, Table.get?_eq_some_iff hg.owners_nodup]
      simp [Graph.removeNode]
    rw [howner, hg.owner?_iff]
    constructor
    · rintro ⟨⟨m', hm', rfl, rest⟩, hne⟩
      exact ⟨m', (hkept m').mpr ⟨hm', hne⟩, rfl, rest⟩
    · rintro ⟨m', hm', rfl, rest⟩
      exact ⟨⟨m', ((hkept m').mp hm').1, rfl, rest⟩, ((hkept m').mp hm').2⟩
  · obtain ⟨hmem, hfar⟩ := List.mem_filter.mp hl
    obtain ⟨a, b, p, q, hj⟩ := hg.joins l hmem
    simp only [Link.involvesNode, hj.fromNode, hj.toNode, Bool.not_eq_true', Bool.or_eq_false_iff,
      beq_eq_false_iff_ne] at hfar
    exact ⟨a, b, p, q, { hj with
      source := (hkept a).mpr ⟨hj.source, hfar.1⟩
      target := (hkept b).mpr ⟨hj.target, hfar.2⟩ }⟩
  · exact hg.targets_nodup.sublist (List.filter_sublist.map _)

/-- Changing nodes keeps a graph well formed if neither identities nor pins change. -/
theorem mapNodes {f : Node → Node} (hid : ∀ m, (f m).id = m.id)
    (hpins : ∀ m, (f m).pins = m.pins) : { g with nodes := g.nodes.map f }.WellFormed := by
  refine ⟨?_, ?_, hg.owners_nodup, fun i m => ?_, fun l hl => ?_, hg.targets_nodup⟩
  · have : nodeIds { g with nodes := g.nodes.map f } = g.nodeIds := by simp [nodeIds, hid]
    exact this ▸ hg.nodes_nodup
  · have : pins { g with nodes := g.nodes.map f } = g.pins := by
      simp [pins, List.flatMap_map, hpins]
    exact this ▸ hg.pins_nodup
  · show g.owner? i = some m ↔ _
    rw [hg.owner?_iff]
    constructor
    · rintro ⟨m', hm', hid', p, hp, hi⟩
      exact ⟨f m', List.mem_map_of_mem hm', (hid m').trans hid', p, (hpins m').symm ▸ hp, hi⟩
    · rintro ⟨_, hmem, hid', p, hp, hi⟩
      obtain ⟨m', hm', rfl⟩ := List.mem_map.mp hmem
      exact ⟨m', hm', (hid m').symm.trans hid', p, hpins m' ▸ hp, hi⟩
  · obtain ⟨a, b, p, q, hj⟩ := hg.joins l hl
    exact ⟨f a, f b, p, q, { hj with
      source := List.mem_map_of_mem hj.source
      target := List.mem_map_of_mem hj.target
      fromNode := hj.fromNode.trans (hid a).symm
      toNode := hj.toNode.trans (hid b).symm
      owns_source := (hpins a).symm ▸ hj.owns_source
      owns_target := (hpins b).symm ▸ hj.owns_target
      apart := by rw [hid, hid]; exact hj.apart }⟩

/-- Changing a node keeps a graph well formed if neither identity nor pins change. -/
theorem updateNode (n : NodeId) {f : Node → Node} (hid : ∀ m, (f m).id = m.id)
    (hpins : ∀ m, (f m).pins = m.pins) : (g.updateNode n f).WellFormed :=
  hg.mapNodes (fun m => by split_ifs <;> simp [hid]) fun m => by split_ifs <;> simp [hpins]

end WellFormed

/-- The graph without nodes is well formed. -/
theorem wellFormed_empty (name : String) : (Graph.empty name).WellFormed := by
  refine ⟨by simp [nodeIds, Graph.empty], by simp [pins, Graph.empty], by simp [Table.keys,
    Graph.empty], fun i n => ?_, fun l hl => ?_, by simp [Graph.empty]⟩
  · simp [owner?, Graph.empty]
  · cases hl

/-- The index of a list of nodes. -/
def indexOf (nodes : List Node) : Table PinId NodeId :=
  nodes.flatMap fun n => n.pins.map fun p => (p.id, n.id)

/-- A graph written down with the index of its nodes is well formed if its parts are. -/
theorem wellFormed_of_indexOf {g : Graph} (howners : g.owners = indexOf g.nodes)
    (hnodes : g.nodeIds.Nodup) (hpins : (g.pins.map Pin.id).Nodup)
    (hjoins : ∀ l ∈ g.links, ∃ a b p q, g.Joins l a b p q)
    (htargets : (g.links.map Link.toPin).Nodup) : g.WellFormed := by
  have hkeys : (Table.keys g.owners).Nodup := by
    have heq : Table.keys g.owners = g.pins.map Pin.id := by
      simp [howners, indexOf, Table.keys, pins, List.map_flatMap, Function.comp_def]
    exact heq ▸ hpins
  refine ⟨hnodes, hpins, hkeys, fun i n => ?_, hjoins, htargets⟩
  rw [owner?, Table.get?_eq_some_iff hkeys, howners, indexOf]
  simp only [List.mem_flatMap, List.mem_map, Prod.mk.injEq]
  constructor
  · rintro ⟨m, hm, p, hp, hi, hn⟩
    exact ⟨m, hm, hn, p, hp, hi⟩
  · rintro ⟨m, hm, hn, p, hp, hi⟩
    exact ⟨m, hm, p, hp, hi, hn⟩

/-- A link between pins at known places joins them. -/
theorem joins_of_getElem? {g : Graph} {l : Link} {a b : Node} {p q : Pin} {i j k m : Nat}
    (ha : g.nodes[i]? = some a) (hb : g.nodes[j]? = some b) (hp : a.pins[k]? = some p)
    (hq : b.pins[m]? = some q)
    (hl : l = ⟨l.id, a.id, p.id, b.id, q.id, p.isFlow && q.isFlow⟩) (hapart : a.id ≠ b.id)
    (hlink : p.canLinkTo q = true) : ∃ a b p q, g.Joins l a b p q := by
  simp only [Pin.canLinkTo, Bool.and_eq_true, beq_iff_eq] at hlink
  obtain ⟨⟨houtput, hinput⟩, htypes⟩ := hlink
  refine ⟨a, b, p, q, List.mem_of_getElem? ha, List.mem_of_getElem? hb, ?_, ?_, ?_, ?_,
    List.mem_of_getElem? hp, List.mem_of_getElem? hq, houtput, hinput, hapart, htypes, ?_⟩
  all_goals rw [hl]

end Graph

end Patchbay
