import Patchbay.Proofs.Graph.WellFormed
import Patchbay.Proofs.Run.Once

/-!
# Taking out a node that was put in

A host that puts a node into a graph, links its pins and takes links out again, and then takes the node out,
has the graph that it began with: the same nodes and links in the same order, and the same index
(`Graph.takeNode?_undoes`). The node is handed over as it was put in.

What holds in between (`Rewiring.Around`) is that the node comes last, that the links made so far come after
all others, and that each of them begins or ends at the node. Every call keeps this, whether it is granted or
refused.
-/

namespace Patchbay

/-! ## Entries of one value -/

namespace Table

variable {κ α β : Type} [DecidableEq κ]

theorem mem_set {t : Table κ α} {k : κ} {v : α} {e : κ × α} (h : e ∈ t.set k v) :
    e = (k, v) ∨ e ∈ t := by
  induction t with
  | nil => exact .inl (List.mem_singleton.mp h)
  | cons e' rest ih =>
    simp only [set] at h
    split at h
    · exact (List.mem_cons.mp h).imp_right (List.mem_cons_of_mem _)
    · rcases List.mem_cons.mp h with rfl | h
      · exact .inr List.mem_cons_self
      · exact (ih h).imp_right (List.mem_cons_of_mem _)

variable [DecidableEq α]

/-- Setting a key that has no other value makes no difference to the entries of other values. -/
theorem filter_set {t : Table κ α} {k : κ} {v : α} (h : ∀ e ∈ t, e.1 = k → e.2 = v) :
    (t.set k v).filter (fun e => e.2 != v) = t.filter fun e => e.2 != v := by
  induction t with
  | nil => simp [set]
  | cons e rest ih =>
    obtain ⟨hfirst, hrest⟩ := List.forall_mem_cons.mp h
    by_cases hkey : e.1 = k
    · simp [set, hkey, hfirst hkey]
    · simp [set, hkey, List.filter_cons, ih hrest]

/-- The same holds of setting several keys. -/
theorem filter_foldl_set (key : β → κ) {v : α} (xs : List β) {t : Table κ α}
    (h : ∀ e ∈ t, e.1 ∈ xs.map key → e.2 = v) :
    (xs.foldl (fun t x => t.set (key x) v) t).filter (fun e => e.2 != v) =
      t.filter fun e => e.2 != v := by
  induction xs generalizing t with
  | nil => rfl
  | cons x rest ih =>
    rw [List.foldl_cons, ih, filter_set fun e he hkey => h e he (hkey ▸ List.mem_cons_self)]
    intro e he hkey
    rcases mem_set he with rfl | he
    · rfl
    · exact h e he (List.mem_cons_of_mem _ hkey)

end Table

/-! ## Calls -/

/-- A call of a host: it asks for a link, which is to get an identity, or takes a link out. -/
inductive LinkCall where
  | link (id : LinkId) (source target : PinId)
  | unlink (l : LinkId)

/-- A graph that is being rewired, and the links that calls have made in it. -/
structure Rewiring where
  graph : Graph
  made : List LinkId

namespace Rewiring

/-- A call that is refused changes nothing. -/
def call (x : Rewiring) : LinkCall → Rewiring
  | .link id source target =>
    match x.graph.link id source target with
    | .ok graph => ⟨graph, x.made ++ [id]⟩
    | .error _ => x
  | .unlink l => ⟨x.graph.unlink l, x.made⟩

/-- The call is about node `n`: it asks for a link, under a new identity, that has a pin of the node at one
end, or it takes out a link that a call has made. -/
def Concerns (x : Rewiring) (n : Node) : LinkCall → Prop
  | .link id source target =>
    id ∉ x.graph.links.map Link.id ∧ (source ∈ n.pins.map Pin.id ∨ target ∈ n.pins.map Pin.id)
  | .unlink l => l ∈ x.made

/-- Each of the calls is about node `n` when it is made. -/
def AllConcern (x : Rewiring) (n : Node) : List LinkCall → Prop
  | [] => True
  | c :: rest => x.Concerns n c ∧ (x.call c).AllConcern n rest

/-- Node `n` has been added to graph `g`, which gave graph `h`, and since then it has only been linked. -/
structure Around (x : Rewiring) (g h : Graph) (n : Node) : Prop where
  rest : { x.graph with links := g.links } = h
  links : ∃ own, x.graph.links = g.links ++ own ∧ ∀ l ∈ own, l.involvesNode n.id = true
  made : ∀ l ∈ g.links, l.id ∉ x.made

end Rewiring

/-! ## Rewiring -/

namespace Graph

variable {g h : Graph} {n : Node}

/-- A node that has just been added has not been linked. -/
lemma around_addNode (hadd : g.addNode n = .ok h) : (⟨h, []⟩ : Rewiring).Around g h n where
  rest := by rw [← (addNode_parts hadd).2.2]
  links := ⟨[], by rw [(addNode_parts hadd).2.2, List.append_nil], List.forall_mem_nil _⟩
  made _ _ := List.not_mem_nil

end Graph

namespace Rewiring.Around

variable {g h : Graph} {n : Node} {x : Rewiring} (hx : x.Around g h n)
include hx

lemma owner?_eq (i : PinId) : x.graph.owner? i = h.owner? i := by
  rw [← hx.rest]
  rfl

lemma nodes_eq (hadd : g.addNode n = .ok h) : x.graph.nodes = g.nodes ++ [n] := by
  rw [← (Graph.addNode_parts hadd).2.1, ← hx.rest]

/-- **A call that is about the node leaves it at that.** -/
theorem call (hadd : g.addNode n = .ok h) {c : LinkCall} (hc : x.Concerns n c) :
    (x.call c).Around g h n := by
  obtain ⟨own, hlinks, hown⟩ := hx.links
  cases c with
  | link id source target =>
    obtain ⟨hnew, hpin⟩ := hc
    rw [Rewiring.call]
    cases hlink : x.graph.link id source target with
    | error e => exact hx
    | ok next =>
      obtain ⟨l, rfl, hsource, htarget, rfl⟩ := Graph.link_owners hlink
      refine ⟨hx.rest, ⟨own ++ [l], by rw [hlinks, List.append_assoc], ?_⟩, fun k hk => ?_⟩
      · intro k hk
        rcases List.mem_append.mp hk with hk | hk
        · exact hown k hk
        · -- the node owns the pin that belongs to it, so the new link begins or ends there
          obtain rfl := List.mem_singleton.mp hk
          rw [hx.owner?_eq, Graph.owner?_addNode hadd] at hsource htarget
          rcases hpin with hpin | hpin
          · rw [if_pos hpin, Option.some.injEq] at hsource
            simp [Link.involvesNode, hsource]
          · rw [if_pos hpin, Option.some.injEq] at htarget
            simp [Link.involvesNode, htarget]
      · have hkept : k ∈ x.graph.links := hlinks ▸ List.mem_append_left _ hk
        intro hmade
        rcases List.mem_append.mp hmade with hmade | hmade
        · exact hx.made k hk hmade
        · exact hnew (List.mem_singleton.mp hmade ▸ List.mem_map_of_mem hkept)
  | unlink l =>
    -- links of the graph have not been made by calls, so none of them is taken out
    have hkeep : g.links.filter (fun k => k.id != l) = g.links :=
      List.filter_eq_self.mpr fun k hk => bne_iff_ne.mpr fun heq => hx.made k hk (heq ▸ hc)
    refine ⟨hx.rest, ⟨own.filter fun k => k.id != l, ?_, fun k hk => ?_⟩, hx.made⟩
    · show x.graph.links.filter _ = _
      rw [hlinks, List.filter_append, hkeep]
    · exact hown k (List.mem_of_mem_filter hk)

/-- Any number of calls leave it at that. -/
theorem calls (hadd : g.addNode n = .ok h) (cs : List LinkCall) (hcs : x.AllConcern n cs) :
    (cs.foldl Rewiring.call x).Around g h n := by
  induction cs generalizing x with
  | nil => exact hx
  | cons c rest ih => exact ih (hx.call hadd hcs.1) hcs.2

end Rewiring.Around

/-! ## Taking the node out -/

namespace Graph

variable {g h : Graph} {n : Node}

/-- Taking out a node that no index entry and no link knew before gives the index from before. -/
lemma owners_removeNode (hg : g.WellFormed) (hid : n.id ∉ g.nodeIds)
    (hpins : ∀ p ∈ n.pins, g.owner? p.id = none) (hadd : g.addNode n = .ok h) :
    (h.removeNode n.id).owners = g.owners := by
  have hnew : ∀ e ∈ g.owners, e.1 ∈ n.pins.map Pin.id → e.2 = n.id := by
    intro e he hpin
    obtain ⟨p, hp, heq⟩ := List.mem_map.mp hpin
    have habsent := Table.get?_eq_none_iff.mp (hpins p hp)
    exact absurd (List.mem_map.mpr ⟨e, he, heq.symm⟩) habsent
  have hothers : ∀ e ∈ g.owners, (e.2 != n.id) = true := by
    intro e he
    refine bne_iff_ne.mpr fun heq => hid ?_
    have howner : g.owner? e.1 = some n.id := by
      rw [owner?, Table.get?_eq_some_iff hg.owners_nodup, ← heq]
      exact he
    obtain ⟨m, hm, hmid, -⟩ := (hg.owner?_iff _ _).mp howner
    exact mem_nodeIds.mpr ⟨m, hm, hmid⟩
  rw [addNode, if_neg (mt hasNode_iff.mp hid)] at hadd
  obtain rfl := Except.ok.inj hadd
  calc (n.pins.foldl (fun t p => t.set p.id n.id) g.owners).filter (fun e => e.2 != n.id)
      = g.owners.filter fun e => e.2 != n.id := Table.filter_foldl_set Pin.id n.pins hnew
    _ = g.owners := List.filter_eq_self.mpr hothers

/-- No link of a well-formed graph begins or ends at a node that is not there. -/
lemma WellFormed.involvesNode_of_absent (hg : g.WellFormed) {i : NodeId} (hi : i ∉ g.nodeIds) {l : Link}
    (hl : l ∈ g.links) : l.involvesNode i = false := by
  obtain ⟨a, b, p, q, hj⟩ := hg.joins l hl
  rw [Link.involvesNode, Bool.or_eq_false_iff, beq_eq_false_iff_ne, beq_eq_false_iff_ne, hj.fromNode,
    hj.toNode]
  exact ⟨fun heq => hi (mem_nodeIds.mpr ⟨a, hj.source, heq⟩),
    fun heq => hi (mem_nodeIds.mpr ⟨b, hj.target, heq⟩)⟩

/-- No link of a well-formed graph begins or ends at a pin that is not there. -/
lemma WellFormed.isLinked_of_absent (hg : g.WellFormed) {i : PinId} (hi : g.owner? i = none) :
    g.isLinked i = false := by
  rw [isLinked, List.any_eq_false]
  intro l hl hinvolves
  obtain ⟨a, b, p, q, hj⟩ := hg.joins l hl
  rw [Link.involvesPin, Bool.or_eq_true, beq_iff_eq, beq_iff_eq, hj.fromPin, hj.toPin] at hinvolves
  rcases hinvolves with rfl | rfl
  · rw [hg.owner?_of_mem hj.source hj.owns_source] at hi
    cases hi
  · rw [hg.owner?_of_mem hj.target hj.owns_target] at hi
    cases hi

/-- The node that has been added is found. -/
lemma node?_of_around {x : Rewiring} (hx : x.Around g h n) (hid : n.id ∉ g.nodeIds)
    (hadd : g.addNode n = .ok h) : x.graph.node? n.id = some n := by
  have habsent : ∀ m ∈ g.nodes, ¬ (m.id == n.id) = true := fun m hm heq =>
    hid (mem_nodeIds.mpr ⟨m, hm, beq_iff_eq.mp heq⟩)
  rw [node?, hx.nodes_eq hadd, List.find?_append, List.find?_eq_none.mpr habsent, Option.none_or]
  simp

/-- **Taking the node out leaves the graph from before.** -/
theorem removeNode_of_around {x : Rewiring} (hx : x.Around g h n) (hg : g.WellFormed)
    (hid : n.id ∉ g.nodeIds) (hpins : ∀ p ∈ n.pins, g.owner? p.id = none)
    (hadd : g.addNode n = .ok h) : x.graph.removeNode n.id = g := by
  have hname : x.graph.name = g.name := by
    rw [← (addNode_parts hadd).1, ← hx.rest]
  have hnodes : (x.graph.removeNode n.id).nodes = g.nodes := by
    have hkept : g.nodes.filter (fun m => m.id != n.id) = g.nodes :=
      List.filter_eq_self.mpr fun m hm => bne_iff_ne.mpr fun heq =>
        hid (mem_nodeIds.mpr ⟨m, hm, heq⟩)
    rw [removeNode, hx.nodes_eq hadd, List.filter_append, hkept]
    simp
  have hlinks : (x.graph.removeNode n.id).links = g.links := by
    obtain ⟨own, hown, hinvolve⟩ := hx.links
    have hstay : g.links.filter (fun l => !l.involvesNode n.id) = g.links :=
      List.filter_eq_self.mpr fun l hl => by rw [hg.involvesNode_of_absent hid hl]; rfl
    have hgo : own.filter (fun l => !l.involvesNode n.id) = [] :=
      List.filter_eq_nil_iff.mpr fun l hl => by simp [hinvolve l hl]
    rw [removeNode, hown, List.filter_append, hstay, hgo, List.append_nil]
  have howners : (x.graph.removeNode n.id).owners = g.owners := by
    rw [← owners_removeNode hg hid hpins hadd, ← hx.rest]
    rfl
  cases g
  exact (Graph.mk.injEq ..).mpr ⟨hname, hnodes, hlinks, howners⟩

/-- **Removal undoes construction.** A node with an identity and pins that are new to a graph can be added.
After any calls that are about this node, granted or refused, taking it out hands it over as it was, and the
graph is exactly the one from before, with its nodes and links in the same order and with the same index. In
it no pin of the node is found, and none counts as linked. -/
theorem takeNode?_undoes (hg : g.WellFormed) (hid : n.id ∉ g.nodeIds)
    (hpins : ∀ p ∈ n.pins, g.owner? p.id = none) :
    ∃ h, g.addNode n = .ok h ∧
      (∀ cs, (⟨h, []⟩ : Rewiring).AllConcern n cs →
        (cs.foldl Rewiring.call ⟨h, []⟩).graph.takeNode? n.id = some (n, g)) ∧
      ∀ p ∈ n.pins, g.pin? p.id = none ∧ g.isLinked p.id = false := by
  obtain ⟨h, hadd⟩ := addNode_isOk hid
  refine ⟨h, hadd, fun cs hcs => ?_, fun p hp => ⟨?_, hg.isLinked_of_absent (hpins p hp)⟩⟩
  · have haround := (around_addNode hadd).calls hadd cs hcs
    rw [takeNode?, node?_of_around haround hid hadd, Option.map_some,
      removeNode_of_around haround hg hid hpins hadd]
  · rw [pin?, hpins p hp]
    rfl

/-- A transition that is new to the example. -/
def lateTransition : Node := exampleNode 7 (.transition (examplePins 70) .standard)

/-- Calls about the new transition: it takes a picture, which is asked for again in vain, it cannot be entered
by flow from the first transition, it lends its own picture, and then both links are given up for another one. -/
def lateCalls : List LinkCall :=
  [.link ⟨Uuid.ofNat 81⟩ ⟨Uuid.ofNat 35⟩ ⟨Uuid.ofNat 71⟩,
    .link ⟨Uuid.ofNat 82⟩ ⟨Uuid.ofNat 25⟩ ⟨Uuid.ofNat 71⟩,
    .link ⟨Uuid.ofNat 82⟩ ⟨Uuid.ofNat 70⟩ ⟨Uuid.ofNat 24⟩,
    .link ⟨Uuid.ofNat 82⟩ ⟨Uuid.ofNat 75⟩ ⟨Uuid.ofNat 22⟩,
    .unlink ⟨Uuid.ofNat 81⟩, .unlink ⟨Uuid.ofNat 82⟩,
    .link ⟨Uuid.ofNat 81⟩ ⟨Uuid.ofNat 51⟩ ⟨Uuid.ofNat 73⟩]

/-- The calls leave a link at the new transition, and taking it out leaves the example. -/
theorem lateTransition_undone : ∃ h, pullAhead.addNode lateTransition = .ok h ∧
    (lateCalls.foldl Rewiring.call ⟨h, []⟩).graph.links =
      pullAhead.links ++ [exampleLink 81 5 51 7 73 false] ∧
    (lateCalls.foldl Rewiring.call ⟨h, []⟩).graph.takeNode? ⟨Uuid.ofNat 7⟩ =
      some (lateTransition, pullAhead) := by
  obtain ⟨h, hadd, hundone, -⟩ := takeNode?_undoes (n := lateTransition) pullAhead_wellFormed
    (by decide) (by decide)
  obtain rfl : _ = h := Except.ok.inj hadd
  refine ⟨_, rfl, by decide +kernel, hundone lateCalls ?_⟩
  simp only [lateCalls, Rewiring.AllConcern, Rewiring.Concerns]
  decide +kernel

end Graph

end Patchbay
