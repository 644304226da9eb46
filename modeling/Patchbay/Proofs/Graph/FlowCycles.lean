import Mathlib.Logic.Relation
import Patchbay.Proofs.Graph.Nearest
import Patchbay.Proofs.Graph.Wiring
import Patchbay.Proofs.Run.Once

/-!
# Automatic wiring and cycles of flow

Automatic wiring chooses by place alone, so it can close a cycle of flow: with two transitions side by
side it leads the exit of each to the entrance of the other. This module says exactly when it does.

`Graph.linkFlow_cases` is what the flow step comes to: either one flow link is split and both halves
run through the node, which is never refused, or at most one flow link into the node and one out of
it are added. The data steps leave flow alone. So the flow links after wiring are those before, up to
a detour through the node, and `acyclic_of_detour` tells when such a change closes no cycle.
**`Graph.autoLink_flowAcyclic_iff`** is the result for the whole of `Graph.autoLink`.
-/

namespace Patchbay

open Relation

/-! ## Ways that take a detour -/

section Detour

variable {α : Type} {r r' : α → α → Prop} {n : α} {into out : α → Prop}

/-- How one gets from `x` to `y` along `r` and along new steps into and out of `n`, each kind of new
step taken at most once. -/
inductive Detour (r : α → α → Prop) (n : α) (into out : α → Prop) (x y : α) : Prop
  | direct (way : TransGen r x y)
  | entering (a : α) (new : into a) (before : ReflTransGen r x a) (after : ReflTransGen r n y)
  | leaving (b : α) (new : out b) (before : ReflTransGen r x n) (after : ReflTransGen r b y)
  | through (a b : α) (entry : into a) (exit : out b) (before : ReflTransGen r x a)
    (after : ReflTransGen r b y)

/-- New steps into and out of `n` close a cycle if the old steps lead back to where they begin. -/
def Closes (r : α → α → Prop) (n : α) (into out : α → Prop) : Prop :=
  (∃ a, into a ∧ ReflTransGen r n a) ∨ (∃ b, out b ∧ ReflTransGen r b n) ∨
    ∃ a b, into a ∧ out b ∧ ReflTransGen r b a

/-- Unless the new steps close a cycle, nobody needs more than one of each kind. -/
theorem detour_of_transGen (hopen : ¬ Closes r n into out)
    (hstep : ∀ x y, r' x y → r x y ∨ (y = n ∧ into x) ∨ (x = n ∧ out y)) {x y : α}
    (h : TransGen r' x y) : Detour r n into out x y := by
  simp only [Closes, not_or] at hopen
  obtain ⟨-, hback, hthrough⟩ := hopen
  induction h with
  | single h =>
    rcases hstep _ _ h with h | ⟨rfl, hin⟩ | ⟨rfl, hout⟩
    · exact .direct (.single h)
    · exact .entering _ hin .refl .refl
    · exact .leaving _ hout .refl .refl
  | tail _ h ih =>
    rcases hstep _ _ h with h | ⟨rfl, hin⟩ | ⟨rfl, hout⟩
    · -- an old step is added to what comes last
      cases ih with
      | direct way => exact .direct (way.tail h)
      | entering a new before after => exact .entering a new before (after.tail h)
      | leaving b new before after => exact .leaving b new before (after.tail h)
      | through a b entry exit before after => exact .through a b entry exit before (after.tail h)
    · -- a new step into `n` comes first of the new ones
      cases ih with
      | direct way => exact .entering _ hin way.to_reflTransGen .refl
      | entering a new before after => exact .entering a new before .refl
      | leaving b new before after => exact absurd ⟨_, b, hin, new, after⟩ hthrough
      | through a b entry exit before after => exact absurd ⟨_, b, hin, exit, after⟩ hthrough
    · -- a new step out of `n` follows one into `n`, if anything new
      cases ih with
      | direct way => exact .leaving _ hout way.to_reflTransGen .refl
      | entering a new before after => exact .through a _ new hout before .refl
      | leaving b new before after => exact absurd ⟨b, new, after⟩ hback
      | through a b entry exit before after => exact .through a _ entry hout before .refl

/-- **A detour without a cycle.** A relation without cycles stays so if it gets new steps into and out
of `n` that close none. -/
theorem acyclic_of_detour (hr : ∀ x, ¬ TransGen r x x) (hopen : ¬ Closes r n into out)
    (hstep : ∀ x y, r' x y → r x y ∨ (y = n ∧ into x) ∨ (x = n ∧ out y)) (x : α) :
    ¬ TransGen r' x x := by
  intro h
  have hdetour := detour_of_transGen hopen hstep h
  simp only [Closes, not_or] at hopen
  obtain ⟨hforth, hback, hthrough⟩ := hopen
  cases hdetour with
  | direct way => exact hr x way
  | entering a new before after => exact hforth ⟨a, new, after.trans before⟩
  | leaving b new before after => exact hback ⟨b, new, after.trans before⟩
  | through a b entry exit before after => exact hthrough ⟨a, b, entry, exit, after.trans before⟩

/-- New steps that close a cycle do so for any relation that leads wherever the old one does. -/
theorem cycle_of_closes (hold : ∀ x y, r x y → TransGen r' x y) (hin : ∀ a, into a → r' a n)
    (hout : ∀ b, out b → r' n b) (h : Closes r n into out) : TransGen r' n n := by
  have hway : ∀ {x y}, ReflTransGen r x y → ReflTransGen r' x y := fun {x y} h =>
    h.lift' id fun a b hab => (hold a b hab).to_reflTransGen
  rcases h with ⟨a, ha, hna⟩ | ⟨b, hb, hbn⟩ | ⟨a, b, ha, hb, hba⟩
  · exact TransGen.tail' (hway hna) (hin a ha)
  · exact TransGen.head' (hout b hb) (hway hbn)
  · exact TransGen.head' (hout b hb) ((hway hba).tail (hin a ha))

end Detour

/-! ## The pins that wiring uses -/

namespace Node

variable {n : Node} {p : Pin}

/-- What a script refers to is a pin of the node. -/
theorem mem_pins_of_resolve? {r : PinRef} (h : n.body.resolve? r = some p) : p ∈ n.pins := by
  have hmem : p ∈ n.body.side r.direction := List.mem_of_find?_eq_some h
  rw [pins, List.mem_append]
  cases hdir : r.direction with
  | input => exact Or.inl (by rwa [hdir] at hmem)
  | output => exact Or.inr (by rwa [hdir] at hmem)

/-- The data pins that a node advertises are pins of its own. -/
theorem mem_pins_of_advertised (h : p ∈ n.advertised.dataIn ∨ p ∈ n.advertised.dataOut) :
    p ∈ n.pins := by
  simp only [advertised, Body.advertised] at h
  cases hbody : n.body with
  | scripted t ins outs =>
    simp only [hbody, List.mem_filterMap] at h
    rcases h with ⟨r, -, hr⟩ | ⟨r, -, hr⟩
    all_goals exact mem_pins_of_resolve? (hbody ▸ hr)
  | _ =>
    simp only [hbody, List.mem_cons, List.not_mem_nil, or_false, false_or] at h <;>
    simp only [pins, inputs, outputs, hbody, Body.inputs, Body.outputs, List.mem_append,
      List.mem_cons, List.not_mem_nil, or_false] <;>
    tauto

section Builtin

variable (hn : n.body.isBuiltin = true)
include hn

/-- The flow pin through which wiring feeds a node. -/
theorem flowIn_spec (h : n.advertised.flowIn = some p) :
    p ∈ n.pins ∧ p.direction = .input ∧ p.type = .flow := by
  simp only [advertised, Body.advertised] at h
  simp only [pins, inputs, outputs]
  cases hbody : n.body <;> simp only [hbody, Option.some.injEq, reduceCtorEq] at h
  case scripted t ins outs => simp [hbody, Body.isBuiltin] at hn
  all_goals exact h ▸ ⟨by simp [Body.inputs], rfl, rfl⟩

/-- The flow pin through which wiring lets a node feed others. -/
theorem flowOut_spec (h : n.advertised.flowOut = some p) :
    p ∈ n.pins ∧ p.direction = .output ∧ p.type = .flow := by
  simp only [advertised, Body.advertised] at h
  simp only [pins, inputs, outputs]
  cases hbody : n.body <;> simp only [hbody, Option.some.injEq, reduceCtorEq] at h
  case scripted t ins outs => simp [hbody, Body.isBuiltin] at hn
  all_goals exact h ▸ ⟨by simp [Body.outputs], rfl, rfl⟩

end Builtin

end Node

/-! ## Adding links -/

namespace Graph

/-- One graph is the other with links added at the end, each of which joins two pins and has a
property. -/
def Adds (g : Graph) (P : Link → Prop) (g' : Graph) : Prop :=
  ∃ new, g' = { g with links := g.links ++ new } ∧
    ∀ l ∈ new, (∃ a b p q, g.Joins l a b p q) ∧ P l

namespace Adds

variable {g g' g'' : Graph} {P Q : Link → Prop}

theorem refl (g : Graph) (P : Link → Prop) : g.Adds P g := ⟨[], by simp, by simp⟩

theorem trans (h : g.Adds P g') (h' : g'.Adds P g'') : g.Adds P g'' := by
  obtain ⟨new, rfl, hnew⟩ := h
  obtain ⟨more, rfl, hmore⟩ := h'
  refine ⟨new ++ more, by simp, fun l hl => ?_⟩
  rcases List.mem_append.mp hl with hl | hl
  · exact hnew l hl
  · obtain ⟨⟨a, b, p, q, hj⟩, hP⟩ := hmore l hl
    exact ⟨⟨a, b, p, q, { hj with }⟩, hP⟩

theorem imp (h : g.Adds P g')
    (hPQ : ∀ l a b p q, g.Joins l a b p q → P l → Q l) : g.Adds Q g' := by
  obtain ⟨new, rfl, hnew⟩ := h
  refine ⟨new, rfl, fun l hl => ?_⟩
  obtain ⟨⟨a, b, p, q, hj⟩, hP⟩ := hnew l hl
  exact ⟨⟨a, b, p, q, hj⟩, hPQ l a b p q hj hP⟩

end Adds

namespace Wired

/-- An attempt to link adds a link between the two pins or nothing. -/
theorem tryLink_adds (w : Wired) (source target : PinId) :
    w.graph.Adds (fun l => l.fromPin = source ∧ l.toPin = target)
      (w.tryLink source target).graph := by
  simp only [tryLink]
  split
  · rename_i hlink
    obtain ⟨l, a, b, p, q, hj, -, hfrom, hto, rfl, -⟩ := link_spec hlink
    refine ⟨[l], rfl, fun k hk => ?_⟩
    obtain rfl := List.mem_singleton.mp hk
    exact ⟨⟨a, b, p, q, hj⟩, hfrom, hto⟩
  · exact .refl _ _

/-- Feeding a data pin adds links to that pin alone. -/
theorem linkInput_adds (n : NodeId) (w : Wired) (input : PinId) :
    w.graph.Adds (fun l => l.toPin = input) (w.linkInput n input).graph := by
  rw [linkInput]
  split
  · exact .refl _ _
  · split
    · exact (tryLink_adds w _ _).imp fun _ _ _ _ _ _ h => h.2
    · exact .refl _ _

/-- Feeding others from a data pin adds links from that pin alone. -/
theorem linkOutput_adds (n : NodeId) (w : Wired) (output : PinId) :
    w.graph.Adds (fun l => l.fromPin = output) (w.linkOutput n output).graph := by
  rw [linkOutput]
  split
  · exact .refl _ _
  · split
    · exact (tryLink_adds w _ _).imp fun _ _ _ _ _ _ h => h.1
    · exact .refl _ _

theorem attachIn_adds (w : Wired) (n : NodeId) (place : Point) (flowIn : Option PinId) :
    w.graph.Adds (fun l => flowIn = some l.toPin) (w.attachIn n place flowIn).graph := by
  cases flowIn with
  | none => exact .refl _ _
  | some input =>
    simp only [attachIn]
    split
    · exact (tryLink_adds w _ _).imp fun _ _ _ _ _ _ h => congrArg some h.2.symm
    · exact .refl _ _

theorem attachOut_adds (w : Wired) (n : NodeId) (place : Point) (flowOut : Option PinId) :
    w.graph.Adds (fun l => flowOut = some l.fromPin) (w.attachOut n place flowOut).graph := by
  cases flowOut with
  | none => exact .refl _ _
  | some output =>
    simp only [attachOut]
    split
    · exact (tryLink_adds w _ _).imp fun _ _ _ _ _ _ h => congrArg some h.1.symm
    · exact .refl _ _

end Wired

/-! ## The flow step -/

/-- A free pin is the pin itself, and no link begins or ends there. -/
theorem freePin?_some {g : Graph} {pin : Option Pin} {i : PinId} (h : g.freePin? pin = some i) :
    ∃ p, pin = some p ∧ p.id = i ∧ ∀ l ∈ g.links, l.fromPin ≠ i ∧ l.toPin ≠ i := by
  obtain ⟨p, hp, rfl⟩ := Option.map_eq_some_iff.mp h
  obtain ⟨hsome, hfree⟩ := Option.filter_eq_some_iff.mp hp
  exact ⟨p, hsome, rfl, by simpa [isLinked, Link.involvesPin] using hfree⟩

theorem nearestFlowLink?_some {g : Graph} {n : NodeId} {place : Point} {l : Link}
    (h : g.nearestFlowLink? n place = some l) :
    l ∈ g.links ∧ l.flow = true ∧ l.involvesNode n = false := by
  obtain ⟨d, hmem⟩ := nearest?_mem h
  simp only [List.mem_map, List.mem_filter, Bool.and_eq_true, Bool.not_eq_true', Prod.mk.injEq]
    at hmem
  obtain ⟨_, ⟨hl, hflow, hfar⟩, -, rfl⟩ := hmem
  exact ⟨hl, hflow, hfar⟩

/-- If there is no flow link to split, all flow links touch the node. -/
theorem nearestFlowLink?_none {g : Graph} {n : NodeId} {place : Point}
    (h : g.nearestFlowLink? n place = none) :
    ∀ l ∈ g.links, l.flow = true → l.involvesNode n = true := by
  have hnil := List.map_eq_nil_iff.mp (nearest?_none h)
  simpa using List.filter_eq_nil_iff.mp hnil

/-- **A splice is never refused**, if it runs through free flow pins of a node that the link does not
touch: both halves are accepted. -/
theorem halves_accepted {g : Graph} (hg : g.WellFormed) {m : Node} (hm : m ∈ g.nodes) {l : Link}
    (hl : l ∈ g.links) (hflow : l.flow = true) (hfar : l.involvesNode m.id = false) {p q : Pin}
    (hp : p ∈ m.pins ∧ p.direction = .input ∧ p.type = .flow)
    (hq : q ∈ m.pins ∧ q.direction = .output ∧ q.type = .flow)
    (hfree : ∀ k ∈ g.links, k.toPin ≠ p.id) (headId tailId : LinkId) :
    ∃ mid, (g.unlink l.id).link headId l.fromPin p.id = .ok mid ∧
      mid = { g with links := (g.unlink l.id).links ++
        [⟨headId, l.fromNode, l.fromPin, m.id, p.id, true⟩] } ∧
      mid.link tailId q.id l.toPin = .ok { mid with links := mid.links ++
        [⟨tailId, m.id, q.id, l.toNode, l.toPin, true⟩] } := by
  obtain ⟨a, b, p', q', hj⟩ := hg.joins l hl
  obtain ⟨hpm, hpin, hptype⟩ := hp
  obtain ⟨hqm, hqout, hqtype⟩ := hq
  simp only [Link.involvesNode, hj.fromNode, hj.toNode, Bool.or_eq_false_iff,
    beq_eq_false_iff_ne] at hfar
  obtain ⟨hp'flow, hq'flow⟩ : p'.type.isFlow = true ∧ q'.type.isFlow = true :=
    hflow ▸ hj.isFlow_eq
  have hpflow : p.type.isFlow = true := by rw [hptype]; rfl
  have hqflow : q.type.isFlow = true := by rw [hqtype]; rfl
  have hhead : p'.canLinkTo p = true := by
    simp [Pin.canLinkTo, hj.output, hpin, PinType.connectsTo, hp'flow, hpflow]
  have htail : q.canLinkTo q' = true := by
    simp [Pin.canLinkTo, hj.input, hqout, PinType.connectsTo, hq'flow, hqflow]
  have hbare := hg.unlink l.id
  have hmid := hbare.link_eq headId hj.source hm hj.owns_source hpm hhead hfar.1
    fun k hk => hfree k (List.mem_of_mem_filter hk)
  -- the second half finds the end of the link free
  have hend : ∀ k ∈ (g.unlink l.id).links ++ [⟨headId, a.id, p'.id, m.id, p.id, p'.isFlow⟩],
      k.toPin ≠ q'.id := by
    intro k hk heq
    rcases List.mem_append.mp hk with hk | hk
    · exact hg.toPin_ne_of_mem_unlink hl hk (heq.trans hj.toPin.symm)
    · obtain rfl := List.mem_singleton.mp hk
      obtain ⟨rfl, -⟩ := hg.eq_of_pin hm hj.target hpm hj.owns_target heq
      exact hfar.2 rfl
  have hdone := (hbare.link hmid).link_eq tailId hm hj.target hqm hj.owns_target htail
    (Ne.symm hfar.2) hend
  simp only [Pin.isFlow, hp'flow, hqflow, ← hj.fromNode, ← hj.fromPin, ← hj.toNode, ← hj.toPin]
    at hmid hdone
  exact ⟨_, hmid, rfl, hdone⟩

/-- A splice that is not refused puts two halves in the place of the link. -/
theorem Wired.splice_graph {w : Wired} {l : Link} {input output : PinId} {mid done : Graph}
    (hhead : (w.graph.unlink l.id).link w.supply.takeLink.1 l.fromPin input = .ok mid)
    (htail : mid.link w.supply.takeLink.2.takeLink.1 output l.toPin = .ok done) :
    (w.splice l input output).graph = done := by
  simp only [splice, hhead, htail]

/-- What the flow step comes to for node `n`, whose free flow pins are `flowIn` and `flowOut`. -/
inductive FlowStep (g : Graph) (n : NodeId) (flowIn flowOut : Option PinId) : Graph → Prop
  /-- A flow link that does not touch the node is split so that it runs through the node. -/
  | spliced (l head tail : Link) (mem : l ∈ g.links) (flow : l.flow = true)
    (far : l.involvesNode n = false) (head_new : head ∉ g.links) (tail_new : tail ∉ g.links)
    (head_flow : head.flow = true) (tail_flow : tail.flow = true)
    (head_from : head.fromNode = l.fromNode) (head_to : head.toNode = n)
    (tail_from : tail.fromNode = n) (tail_to : tail.toNode = l.toNode) :
    FlowStep g n flowIn flowOut { g with links := (g.unlink l.id).links ++ [head, tail] }
  /-- Flow links are added at the free flow pins of the node. -/
  | attached (g' : Graph)
    (close : flowIn = none ∨ flowOut = none ∨
      ∀ l ∈ g.links, l.flow = true → l.involvesNode n = true)
    (adds : g.Adds (fun l => l ∉ g.links ∧ l.flow = true ∧
      (flowIn ≠ none ∧ l.toNode = n ∨ flowOut ≠ none ∧ l.fromNode = n)) g') :
    FlowStep g n flowIn flowOut g'

/-- What is attached begins or ends at the free flow pins of the node, so it is new. -/
theorem linkFlow_attached {g : Graph} (hg : g.WellFormed) (hb : g.IsBuiltin) {m : Node}
    (hm : m ∈ g.nodes) (w : Wired) (hw : w.graph = g) :
    g.Adds (fun l => l ∉ g.links ∧ l.flow = true ∧
        (g.freePin? m.advertised.flowIn ≠ none ∧ l.toNode = m.id ∨
          g.freePin? m.advertised.flowOut ≠ none ∧ l.fromNode = m.id))
      ((w.attachIn m.id m.position (g.freePin? m.advertised.flowIn)).attachOut m.id m.position
        (g.freePin? m.advertised.flowOut)).graph := by
  subst hw
  refine Adds.trans ((Wired.attachIn_adds w m.id m.position _).imp fun l a b p q hj hl => ?_)
    ((Wired.attachOut_adds _ m.id m.position _).imp fun l a b p q hj hl => ?_)
  · obtain ⟨pin, hpin, hid, hfree⟩ := freePin?_some hl
    obtain ⟨hmem, -, htype⟩ := Node.flowIn_spec (hb m hm) hpin
    obtain ⟨rfl, rfl⟩ := hg.eq_of_pin hj.target hm hj.owns_target hmem
      (hj.toPin.symm.trans hid.symm)
    have hflow : l.flow = true := by rw [← hj.isFlow_eq.2, Pin.isFlow, htype]; rfl
    exact ⟨fun hold => (hfree l hold).2 rfl, hflow, Or.inl ⟨by simp [hl], hj.toNode⟩⟩
  · obtain ⟨pin, hpin, hid, hfree⟩ := freePin?_some hl
    obtain ⟨hmem, -, htype⟩ := Node.flowOut_spec (hb m hm) hpin
    have hsource : a ∈ w.graph.nodes := by
      obtain ⟨new, heq, -⟩ := Wired.attachIn_adds w m.id m.position
        (w.graph.freePin? m.advertised.flowIn)
      simpa [heq] using hj.source
    obtain ⟨rfl, rfl⟩ := hg.eq_of_pin hsource hm hj.owns_source hmem
      (hj.fromPin.symm.trans hid.symm)
    have hflow : l.flow = true := by rw [← hj.isFlow_eq.1, Pin.isFlow, htype]; rfl
    exact ⟨fun hold => (hfree l hold).1 rfl, hflow, Or.inr ⟨by simp [hl], hj.fromNode⟩⟩

/-- **What the flow step comes to.** -/
theorem linkFlow_step {g : Graph} (hg : g.WellFormed) (hb : g.IsBuiltin) {m : Node}
    (hm : m ∈ g.nodes) (s : Supply) :
    g.FlowStep m.id (g.freePin? m.advertised.flowIn) (g.freePin? m.advertised.flowOut)
      ((Wired.mk g s .none).linkFlow m.id m.position (g.freePin? m.advertised.flowIn)
        (g.freePin? m.advertised.flowOut)).graph := by
  have hends := linkFlow_attached hg hb hm (Wired.mk g s .none) rfl
  generalize hin : g.freePin? m.advertised.flowIn = flowIn at hends ⊢
  generalize hout : g.freePin? m.advertised.flowOut = flowOut at hends ⊢
  cases flowIn with
  | none => exact .attached _ (Or.inl rfl) hends
  | some i =>
    cases flowOut with
    | none => exact .attached _ (Or.inr (Or.inl rfl)) hends
    | some o =>
      simp only [Wired.linkFlow]
      split
      · rename_i l hl
        obtain ⟨hmem, hflow, hfar⟩ := nearestFlowLink?_some hl
        obtain ⟨p, hp, rfl, hpfree⟩ := freePin?_some hin
        obtain ⟨q, hq, rfl, hqfree⟩ := freePin?_some hout
        obtain ⟨mid, hhead, rfl, htail⟩ := halves_accepted hg hm hmem hflow hfar
          (Node.flowIn_spec (hb m hm) hp) (Node.flowOut_spec (hb m hm) hq)
          (fun k hk => (hpfree k hk).2) s.takeLink.1 s.takeLink.2.takeLink.1
        rw [Wired.splice_graph hhead htail, List.append_assoc]
        exact .spliced l _ _ hmem hflow hfar (fun h => (hpfree _ h).2 rfl)
          (fun h => (hqfree _ h).1 rfl) rfl rfl rfl rfl rfl rfl
      · rename_i hnone
        exact .attached _ (Or.inr (Or.inr (nearestFlowLink?_none hnone))) hends

/-! ## The data steps -/

/-- Steps that each add links with some property add such links when taken one after another. -/
theorem Wired.foldl_adds {step : Wired → PinId → Wired} {P : PinId → Link → Prop}
    (hstep : ∀ (w : Wired) i, w.graph.Adds (P i) (step w i).graph) (ids : List PinId) (w : Wired) :
    w.graph.Adds (fun l => ∃ i ∈ ids, P i l) (ids.foldl step w).graph :=
  List.foldlRecOn ids step (motive := fun v => w.graph.Adds (fun l => ∃ i ∈ ids, P i l) v.graph)
    (.refl _ _) fun v hv i hi => hv.trans ((hstep v i).imp fun _ _ _ _ _ _ hl => ⟨i, hi, hl⟩)

theorem mem_freeData {g : Graph} {ps : List Pin} {i : PinId} (h : i ∈ g.freeData ps) :
    ∃ p ∈ ps, p.id = i ∧ p.isFlow = false := by
  simp only [freeData, List.mem_map, List.mem_filter, Bool.and_eq_true, Bool.not_eq_true'] at h
  obtain ⟨p, ⟨hp, hdata, -⟩, rfl⟩ := h
  exact ⟨p, hp, rfl, hdata⟩

/-- **The data steps leave flow alone.** What they add carries data. -/
theorem linkData_adds {g : Graph} (hg : g.WellFormed) {m : Node} (hm : m ∈ g.nodes) {w : Wired}
    {links : List Link} (hw : w.graph = { g with links }) :
    w.graph.Adds (fun l => l.flow = false)
      ((g.freeData m.advertised.dataOut).foldl (Wired.linkOutput m.id)
        ((g.freeData m.advertised.dataIn).foldl (Wired.linkInput m.id) w)).graph := by
  have hin := Wired.foldl_adds (P := fun i l => l.toPin = i) (Wired.linkInput_adds m.id)
    (g.freeData m.advertised.dataIn) w
  have hout := Wired.foldl_adds (P := fun i l => l.fromPin = i) (Wired.linkOutput_adds m.id)
    (g.freeData m.advertised.dataOut)
    ((g.freeData m.advertised.dataIn).foldl (Wired.linkInput m.id) w)
  have hnodes : ∀ {v : Graph} {P : Link → Prop}, w.graph.Adds P v → v.nodes = g.nodes := by
    rintro _ _ ⟨new, rfl, -⟩
    rw [hw]
  refine (hin.imp fun l a b p q hj hl => ?_).trans (hout.imp fun l a b p q hj hl => ?_)
  · obtain ⟨i, hi, rfl⟩ := hl
    obtain ⟨pin, hpin, hid, hdata⟩ := mem_freeData hi
    have hmem := Node.mem_pins_of_advertised (Or.inl hpin)
    have htarget : b ∈ g.nodes := by simpa [hw] using hj.target
    obtain ⟨-, rfl⟩ := hg.eq_of_pin htarget hm hj.owns_target hmem (hj.toPin.symm.trans hid.symm)
    exact hj.isFlow_eq.2.symm.trans hdata
  · obtain ⟨i, hi, rfl⟩ := hl
    obtain ⟨pin, hpin, hid, hdata⟩ := mem_freeData hi
    have hmem := Node.mem_pins_of_advertised (Or.inr hpin)
    have hsource : a ∈ g.nodes := hnodes hin ▸ hj.source
    obtain ⟨-, rfl⟩ := hg.eq_of_pin hsource hm hj.owns_source hmem
      (hj.fromPin.symm.trans hid.symm)
    exact hj.isFlow_eq.1.symm.trans hdata

/-! ## Flow after wiring -/

/-- A flow link of the second graph that the first one does not have. -/
def NewFlow (g g' : Graph) (n m : NodeId) : Prop :=
  ∃ l ∈ g'.links, l ∉ g.links ∧ l.flow = true ∧ l.fromNode = n ∧ l.toNode = m

/-- No way along flow links leads back to where it begins. -/
def FlowAcyclic (g : Graph) : Prop := ∀ n, ¬ TransGen g.FlowLink n n

/-- The new flow links of `g'` at node `n` close a cycle with those of `g`: one leads into `n` from
where flow from `n` leads, or one leads out of `n` to where flow comes to `n` from, or one into `n`
and one out of it lie on a way from the one to the other. -/
def ClosesFlow (g g' : Graph) (n : NodeId) : Prop :=
  Closes g.FlowLink n (fun a => g.NewFlow g' a n) (fun b => g.NewFlow g' n b)

namespace FlowStep

variable {g g' : Graph} {n : NodeId} {flowIn flowOut : Option PinId}
  (h : g.FlowStep n flowIn flowOut g')
include h

/-- Only links change. -/
theorem links_only : g' = { g with links := g'.links } := by
  cases h with
  | spliced => rfl
  | attached _ close adds =>
    obtain ⟨new, rfl, -⟩ := adds
    rfl

/-- What is new begins or ends at the node, but not both. -/
theorem new_touches {l : Link} (hl : l ∈ g'.links) (hnew : l ∉ g.links) :
    (l.toNode = n ∨ l.fromNode = n) ∧ l.fromNode ≠ l.toNode := by
  cases h with
  | spliced k head tail mem flow far head_new tail_new head_flow tail_flow head_from head_to
      tail_from tail_to =>
    simp only [Link.involvesNode, Bool.or_eq_false_iff, beq_eq_false_iff_ne] at far
    simp only [List.mem_append, List.mem_cons, List.not_mem_nil, or_false] at hl
    rcases hl with hl | rfl | rfl
    · exact absurd (List.mem_of_mem_filter hl) hnew
    · exact ⟨Or.inl head_to, by rw [head_from, head_to]; exact far.1⟩
    · exact ⟨Or.inr tail_from, by rw [tail_from, tail_to]; exact Ne.symm far.2⟩
  | attached _ close adds =>
    obtain ⟨new, rfl, hadded⟩ := adds
    obtain ⟨⟨a, b, p, q, hj⟩, -, -, hends⟩ :=
      hadded l ((List.mem_append.mp hl).resolve_left hnew)
    exact ⟨hends.imp And.right And.right, by rw [hj.fromNode, hj.toNode]; exact hj.apart⟩

/-- Where a flow link leads, one still gets. -/
theorem old_leads (hids : (g.links.map Link.id).Nodup) {x y : NodeId} (hxy : g.FlowLink x y) :
    TransGen g'.FlowLink x y := by
  obtain ⟨k, hk, hflow, rfl, rfl⟩ := hxy
  cases h with
  | spliced l head tail mem flow far head_new tail_new head_flow tail_flow head_from head_to
      tail_from tail_to =>
    by_cases heq : k.id = l.id
    · -- the link that has been split
      obtain rfl := List.inj_on_of_nodup_map hids hk mem heq
      exact .head ⟨head, by simp, head_flow, head_from, head_to⟩
        (.single ⟨tail, by simp, tail_flow, tail_from, tail_to⟩)
    · exact .single ⟨k, by simp [Graph.unlink, hk, heq], hflow, rfl, rfl⟩
  | attached _ close adds =>
    obtain ⟨new, rfl, -⟩ := adds
    exact .single ⟨k, List.mem_append_left _ hk, hflow, rfl, rfl⟩

/-- A flow link was there before, or it is a new one into the node or out of it. -/
theorem flowLink_or {x y : NodeId} (hxy : g'.FlowLink x y) :
    g.FlowLink x y ∨ (y = n ∧ g.NewFlow g' x n) ∨ (x = n ∧ g.NewFlow g' n y) := by
  obtain ⟨l, hl, hflow, rfl, rfl⟩ := hxy
  by_cases hold : l ∈ g.links
  · exact Or.inl ⟨l, hold, hflow, rfl, rfl⟩
  · refine Or.inr ((h.new_touches hl hold).1.imp (fun hto => ⟨hto, ?_⟩) fun hfrom => ⟨hfrom, ?_⟩)
    · exact ⟨l, hl, hold, hflow, rfl, hto⟩
    · exact ⟨l, hl, hold, hflow, hfrom, rfl⟩

/-- The flow links after the step lie on a cycle exactly if the new ones close one. -/
theorem flowAcyclic_iff (hids : (g.links.map Link.id).Nodup) (hacyclic : g.FlowAcyclic) :
    g'.FlowAcyclic ↔ ¬ g.ClosesFlow g' n := by
  constructor
  · intro hafter hcloses
    refine hafter n (cycle_of_closes (fun x y => h.old_leads hids) ?_ ?_ hcloses)
    · rintro a ⟨l, hl, -, hflow, hfrom, hto⟩
      exact ⟨l, hl, hflow, hfrom, hto⟩
    · rintro b ⟨l, hl, -, hflow, hfrom, hto⟩
      exact ⟨l, hl, hflow, hfrom, hto⟩
  · exact fun hopen => acyclic_of_detour hacyclic hopen fun x y => h.flowLink_or

/-- If there is a flow link and none of them touches the node, then new flow links into and out of the
node are the halves of one. -/
theorem halves {k k' : Link} (hsome : ∃ l ∈ g.links, l.flow = true)
    (hapart : ∀ l ∈ g.links, l.flow = true → l.involvesNode n = false)
    (hk : k ∈ g'.links) (hknew : k ∉ g.links) (hkto : k.toNode = n)
    (hk' : k' ∈ g'.links) (hknew' : k' ∉ g.links) (hkfrom' : k'.fromNode = n) :
    g.FlowLink k.fromNode k'.toNode := by
  have hkapart := (h.new_touches hk hknew).2
  have hkapart' := (h.new_touches hk' hknew').2
  cases h with
  | spliced l head tail mem flow far head_new tail_new head_flow tail_flow head_from head_to
      tail_from tail_to =>
    simp only [List.mem_append, List.mem_cons, List.not_mem_nil, or_false] at hk hk'
    have hhead : k = head := by
      rcases hk with hk | hk | rfl
      · exact absurd (List.mem_of_mem_filter hk) hknew
      · exact hk
      · exact absurd (tail_from.trans hkto.symm) hkapart
    have htail : k' = tail := by
      rcases hk' with hk' | rfl | hk'
      · exact absurd (List.mem_of_mem_filter hk') hknew'
      · exact absurd (hkfrom'.trans head_to.symm) hkapart'
      · exact hk'
    exact ⟨l, mem, flow, by rw [hhead, head_from], by rw [htail, tail_to]⟩
  | attached _ close adds =>
    -- both flow pins are free, so there would have been a link to split
    obtain ⟨new, rfl, hadded⟩ := adds
    have hin : flowIn ≠ none := by
      rcases (hadded k ((List.mem_append.mp hk).resolve_left hknew)).2.2.2 with
        ⟨hin, -⟩ | ⟨-, hfrom⟩
      · exact hin
      · exact absurd (hfrom.trans hkto.symm) hkapart
    have hout : flowOut ≠ none := by
      rcases (hadded k' ((List.mem_append.mp hk').resolve_left hknew')).2.2.2 with
        ⟨-, hto⟩ | ⟨hout, -⟩
      · exact absurd (hkfrom'.trans hto.symm) hkapart'
      · exact hout
    obtain ⟨l, hl, hflow⟩ := hsome
    have hnear := (close.resolve_left hin).resolve_left hout l hl hflow
    rw [hapart l hl hflow] at hnear
    cases hnear

/-- A node that flow does not touch is spliced in, or attached at one end alone, if there are flow
links. Either way no cycle is closed. -/
theorem not_closesFlow (hacyclic : g.FlowAcyclic) (hsome : ∃ l ∈ g.links, l.flow = true)
    (hapart : ∀ l ∈ g.links, l.flow = true → l.involvesNode n = false) :
    ¬ g.ClosesFlow g' n := by
  have haway : ∀ {x y}, g.FlowLink x y → x ≠ n ∧ y ≠ n := by
    rintro _ _ ⟨l, hl, hflow, rfl, rfl⟩
    simpa [Link.involvesNode] using hapart l hl hflow
  have hself : ¬ g.NewFlow g' n n := by
    rintro ⟨l, hl, hnew, -, hfrom, hto⟩
    exact (h.new_touches hl hnew).2 (hfrom.trans hto.symm)
  rintro (⟨a, ha, hna⟩ | ⟨b, hb, hbn⟩ | ⟨a, b, ⟨k, hk, hknew, -, rfl, hkto⟩,
    ⟨k', hk', hknew', -, hkfrom', rfl⟩, hba⟩)
  · rcases ReflTransGen.cases_head hna with rfl | ⟨c, hc, -⟩
    · exact hself ha
    · exact (haway hc).1 rfl
  · rcases ReflTransGen.cases_tail hbn with rfl | ⟨c, -, hc⟩
    · exact hself hb
    · exact (haway hc).2 rfl
  · exact hacyclic _ (TransGen.tail' hba
      (h.halves hsome hapart hk hknew hkto hk' hknew' hkfrom'))

end FlowStep

/-- Wiring is a flow step, after which data links are added. -/
theorem autoLink_steps {g : Graph} (hg : g.WellFormed) (hb : g.IsBuiltin) {n : NodeId}
    (hn : n ∈ g.nodeIds) (s : Supply) :
    ∃ w g' flowIn flowOut, g.autoLink n s = .ok w ∧ g.FlowStep n flowIn flowOut g' ∧
      g'.Adds (fun l => l.flow = false) w.graph := by
  obtain ⟨m, hm, rfl⟩ := mem_nodeIds.mp hn
  have hflow := linkFlow_step hg hb hm s
  refine ⟨_, _, _, _, ?_, hflow, linkData_adds hg hm hflow.links_only⟩
  rw [autoLink, hg.node?_of_mem hm]

/-- **When wiring closes a cycle of flow.** Wiring succeeds, and if there was no cycle of flow before,
there is one afterwards exactly if the new flow links of the node close one. This cannot be if no flow
link touches the node and there are flow links, for then one of them is split. -/
theorem autoLink_flowAcyclic_iff {g : Graph} (hg : g.WellFormed) (hb : g.IsBuiltin)
    (hids : (g.links.map Link.id).Nodup) (hacyclic : g.FlowAcyclic) {n : NodeId}
    (hn : n ∈ g.nodeIds) (s : Supply) :
    ∃ w, g.autoLink n s = .ok w ∧ (w.graph.FlowAcyclic ↔ ¬ g.ClosesFlow w.graph n) ∧
      ((∃ l ∈ g.links, l.flow = true) →
        (∀ l ∈ g.links, l.flow = true → l.involvesNode n = false) → w.graph.FlowAcyclic) := by
  obtain ⟨w, g', flowIn, flowOut, hw, hstep, data, hdata, hadded⟩ := autoLink_steps hg hb hn s
  -- the data links that come last are none of the flow links
  have hflow : ∀ l, l.flow = true → (l ∈ w.graph.links ↔ l ∈ g'.links) := by
    intro l hl
    rw [hdata, List.mem_append]
    refine or_iff_left fun hmem => ?_
    have hdatum : l.flow = false := (hadded l hmem).2
    rw [hl] at hdatum
    cases hdatum
  have hlinks : w.graph.FlowLink = g'.FlowLink := by
    funext x y
    refine propext (exists_congr fun l => ⟨fun ⟨hl, hfl, h⟩ => ?_, fun ⟨hl, hfl, h⟩ => ?_⟩)
    · exact ⟨(hflow l hfl).mp hl, hfl, h⟩
    · exact ⟨(hflow l hfl).mpr hl, hfl, h⟩
  have hnew : g.NewFlow w.graph = g.NewFlow g' := by
    funext x y
    refine propext (exists_congr fun l => ⟨fun ⟨hl, h, hfl, hxy⟩ => ?_, fun ⟨hl, h, hfl, hxy⟩ => ?_⟩)
    · exact ⟨(hflow l hfl).mp hl, h, hfl, hxy⟩
    · exact ⟨(hflow l hfl).mpr hl, h, hfl, hxy⟩
  have hiff := hstep.flowAcyclic_iff hids hacyclic
  rw [ClosesFlow, ← hnew, FlowAcyclic, ← hlinks] at hiff
  refine ⟨w, hw, hiff, fun hsome hapart => hiff.mpr ?_⟩
  have hopen := hstep.not_closesFlow hacyclic hsome hapart
  rwa [ClosesFlow, ← hnew] at hopen

/-- Flow runs from a start node to an end node; a transition stands apart. -/
def standingApart : Graph :=
  let nodes := [exampleNode 1 (.start ⟨Uuid.ofNat 11⟩),
    exampleNode 2 (.finish ⟨⟨Uuid.ofNat 21⟩, ⟨Uuid.ofNat 22⟩⟩),
    exampleNode 3 (.transition (examplePins 30) .standard)]
  { name := "standing apart", nodes, owners := indexOf nodes
    links := [exampleLink 61 1 11 2 21 true] }

/-- Wiring the transition splits the link, and flow still has no cycle. -/
theorem standingApart_flowAcyclic : ∃ w,
    standingApart.autoLink ⟨Uuid.ofNat 3⟩ (.countingFrom 0) = .ok w ∧ w.graph.FlowAcyclic := by
  have hlinks : ∀ l ∈ standingApart.links, l = exampleLink 61 1 11 2 21 true := by
    simp [standingApart]
  have hwellFormed : standingApart.WellFormed := by
    refine wellFormed_of_indexOf rfl (by decide) (by decide) (fun l hl => ?_) (by decide)
    rw [hlinks l hl]
    exact joins_of_getElem? (i := 0) (j := 1) (k := 0) (m := 0) rfl rfl rfl rfl rfl (by decide) rfl
  have hbuiltin : standingApart.IsBuiltin := by
    intro n hn
    simp only [standingApart, List.mem_cons, List.not_mem_nil, or_false] at hn
    rcases hn with rfl | rfl | rfl <;> rfl
  have hacyclic : standingApart.FlowAcyclic := by
    intro n hcycle
    obtain ⟨m, ⟨l, hl, -, hfrom, -⟩, -⟩ := TransGen.head'_iff.mp hcycle
    obtain ⟨k, -, ⟨l', hl', -, -, hto⟩⟩ := TransGen.tail'_iff.mp hcycle
    rw [hlinks l hl] at hfrom
    rw [hlinks l' hl'] at hto
    exact absurd (hfrom.trans hto.symm) (by decide)
  obtain ⟨w, hw, -, hsplit⟩ := autoLink_flowAcyclic_iff hwellFormed hbuiltin (by decide) hacyclic
    (n := ⟨Uuid.ofNat 3⟩) (by decide) (.countingFrom 0)
  refine ⟨w, hw, hsplit ⟨_, List.mem_singleton_self _, rfl⟩ fun l hl _ => ?_⟩
  rw [hlinks l hl]
  rfl

/-- Two transitions without links. -/
def sideBySide : Graph :=
  let nodes := [exampleNode 1 (.transition (examplePins 10) .standard),
    exampleNode 2 (.transition (examplePins 20) .standard)]
  { name := "side by side", nodes, links := [], owners := indexOf nodes }

theorem sideBySide_wellFormed : sideBySide.WellFormed :=
  wellFormed_of_indexOf rfl (by decide) (by decide) (fun l hl => by cases hl) (by decide)

theorem sideBySide_isBuiltin : sideBySide.IsBuiltin := by
  intro n hn
  simp only [sideBySide, List.mem_cons, List.not_mem_nil, or_false] at hn
  rcases hn with rfl | rfl <;> rfl

/-- Wiring one of the two transitions leads the exit of each to the entrance of the other. -/
theorem sideBySide_flowCycle : sideBySide.WellFormed ∧ sideBySide.IsBuiltin ∧
    (sideBySide.links.map Link.id).Nodup ∧ sideBySide.FlowAcyclic ∧
    ⟨Uuid.ofNat 2⟩ ∈ sideBySide.nodeIds ∧
    ∃ w, sideBySide.autoLink ⟨Uuid.ofNat 2⟩ (.countingFrom 0) = .ok w ∧
      ¬ w.graph.FlowAcyclic := by
  have hacyclic : sideBySide.FlowAcyclic := by
    intro n hcycle
    obtain ⟨m, ⟨l, hl, -⟩, -⟩ := TransGen.head'_iff.mp hcycle
    cases hl
  refine ⟨sideBySide_wellFormed, sideBySide_isBuiltin, by decide, hacyclic, by decide, ?_⟩
  have hlinks : (sideBySide.autoLink ⟨Uuid.ofNat 2⟩ (.countingFrom 0)).map
      (fun w => w.graph.links.filter Link.flow) =
        .ok [⟨(Supply.countingFrom 0).takeLink.1, ⟨Uuid.ofNat 1⟩, ⟨Uuid.ofNat 14⟩, ⟨Uuid.ofNat 2⟩,
            ⟨Uuid.ofNat 20⟩, true⟩,
          ⟨(Supply.countingFrom 0).takeLink.2.takeLink.1, ⟨Uuid.ofNat 2⟩, ⟨Uuid.ofNat 24⟩,
            ⟨Uuid.ofNat 1⟩, ⟨Uuid.ofNat 10⟩, true⟩] := by
    decide +kernel
  cases hw : sideBySide.autoLink ⟨Uuid.ofNat 2⟩ (.countingFrom 0) with
  | error e => simp [hw, Except.map] at hlinks
  | ok w =>
    simp only [hw, Except.map, Except.ok.injEq] at hlinks
    have hmem : ∀ l ∈ w.graph.links.filter Link.flow,
        w.graph.FlowLink l.fromNode l.toNode := fun l hl =>
      ⟨l, List.mem_of_mem_filter hl, (List.mem_filter.mp hl).2, rfl, rfl⟩
    simp only [hlinks, List.mem_cons, List.not_mem_nil, or_false, forall_eq_or_imp,
      forall_eq] at hmem
    exact ⟨w, rfl, fun hafter => hafter _ (.head hmem.1 (.single hmem.2))⟩

end Graph

end Patchbay
