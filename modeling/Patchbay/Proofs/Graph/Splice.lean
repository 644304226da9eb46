import Patchbay.Proofs.Graph.FlowCycles

/-!
# Where flow goes after a splice

Flow follows the first of the links that leave a pin. A splice takes one link away and puts two new ones
at the end. So if several links leave the pin, and flow has followed the one that is split, flow does not
come to the spliced node afterwards: it goes where the next older link leads. In all other cases flow goes
where it went before, up to the detour.

`Graph.autoLink_spliced` is what wiring comes to if it splits a link, `Graph.Detours` says what one would
expect of flow then, and **`Graph.autoLink_detours_iff`** tells when it is so and what happens otherwise.
-/

namespace Patchbay

namespace Graph

/-! ## The record of what has been split -/

namespace Wired

theorem tryLink_removed (w : Wired) (source target : PinId) :
    (w.tryLink source target).wiring.removed = w.wiring.removed := by
  simp only [tryLink]
  split <;> rfl

theorem attachIn_removed (w : Wired) (n : NodeId) (place : Point) (flowIn : Option PinId) :
    (w.attachIn n place flowIn).wiring.removed = w.wiring.removed := by
  cases flowIn with
  | none => rfl
  | some input =>
    simp only [attachIn]
    split
    · exact tryLink_removed w _ _
    · rfl

theorem attachOut_removed (w : Wired) (n : NodeId) (place : Point) (flowOut : Option PinId) :
    (w.attachOut n place flowOut).wiring.removed = w.wiring.removed := by
  cases flowOut with
  | none => rfl
  | some output =>
    simp only [attachOut]
    split
    · exact tryLink_removed w _ _
    · rfl

theorem linkInput_removed (n : NodeId) (w : Wired) (input : PinId) :
    (w.linkInput n input).wiring.removed = w.wiring.removed := by
  rw [linkInput]
  split
  · rfl
  · split
    · exact tryLink_removed w _ _
    · rfl

theorem linkOutput_removed (n : NodeId) (w : Wired) (output : PinId) :
    (w.linkOutput n output).wiring.removed = w.wiring.removed := by
  rw [linkOutput]
  split
  · rfl
  · split
    · exact tryLink_removed w _ _
    · rfl

/-- Steps that leave the record alone do so when taken one after another. -/
theorem foldl_removed {step : Wired → PinId → Wired}
    (hstep : ∀ w i, (step w i).wiring.removed = w.wiring.removed) (ids : List PinId) (w : Wired) :
    (ids.foldl step w).wiring.removed = w.wiring.removed :=
  List.foldlRecOn ids step (motive := fun v => v.wiring.removed = w.wiring.removed) rfl
    fun v hv i _ => (hstep v i).trans hv

/-- A splice records the link that it splits, or nothing. -/
theorem splice_removed (w : Wired) (l : Link) (input output : PinId) :
    (w.splice l input output).wiring.removed = some l ∨
      (w.splice l input output).wiring.removed = w.wiring.removed := by
  simp only [splice]
  split
  · exact Or.inl rfl
  · refine Or.inr ?_
    split <;> rfl

end Wired

/-! ## What a splice comes to -/

/-- Flow may leave node `a` through pin `r`. -/
structure Exit (g : Graph) (a : Node) (r : Pin) : Prop where
  mem : a ∈ g.nodes
  owns : r ∈ a.outputs
  flow : r.isFlow = true

/-- Node `m` has been spliced into link `l` through pins `p` and `q` by the links `head` and `tail`, and
`data` are the links that have been added after that. -/
structure Spliced (g : Graph) (m : Node) (l : Link) (p q : Pin) (head tail : Link)
    (data : List Link) (g' : Graph) : Prop where
  entrance : m.advertised.flowIn = some p
  exit : g.Exit m q
  advertised : m.advertised.flowOut = some q
  mem : l ∈ g.links
  flow : l.flow = true
  far : l.involvesNode m.id = false
  /-- Nothing has led to the entrance before. -/
  entrance_free : ∀ k ∈ g.links, k.toPin ≠ p.id
  /-- Nothing has left through the exit before. -/
  exit_free : ∀ k ∈ g.links, k.fromPin ≠ q.id
  head_from : head.fromPin = l.fromPin
  head_to : (head.toNode, head.toPin) = (m.id, p.id)
  tail_from : tail.fromPin = q.id
  tail_to : (tail.toNode, tail.toPin) = (l.toNode, l.toPin)
  data_apart : ∀ k ∈ data, ∀ a r, g.Exit a r → k.fromPin ≠ r.id
  eq : g' = { g with links := (g.unlink l.id).links ++ [head, tail] ++ data }

/-- If the flow step records a split, then of the nearest flow link, through two free pins. -/
lemma linkFlow_removed {g : Graph} {m : Node} {s : Supply} {flowIn flowOut : Option PinId} {l : Link}
    (h : ((Wired.mk g s .none).linkFlow m.id m.position flowIn flowOut).wiring.removed = some l) :
    ∃ i o, flowIn = some i ∧ flowOut = some o ∧ g.nearestFlowLink? m.id m.position = some l := by
  have hattached : ∀ flowIn flowOut,
      (((Wired.mk g s .none).attachIn m.id m.position flowIn).attachOut m.id m.position
        flowOut).wiring.removed = none := fun flowIn flowOut =>
    (Wired.attachOut_removed _ m.id m.position flowOut).trans
      (Wired.attachIn_removed _ m.id m.position flowIn)
  cases flowIn with
  | none => simp [Wired.linkFlow, hattached] at h
  | some i =>
    cases flowOut with
    | none => simp [Wired.linkFlow, hattached] at h
    | some o =>
      simp only [Wired.linkFlow] at h
      cases hnear : g.nearestFlowLink? m.id m.position with
      | none => simp [hnear, hattached] at h
      | some k =>
        simp only [hnear] at h
        rcases Wired.splice_removed ⟨g, s, .none⟩ k i o with hk | hk
        · exact ⟨i, o, rfl, rfl, hk.symm.trans h⟩
        · rw [hk] at h
          cases h

/-- **What wiring comes to if it splits a link.** -/
theorem autoLink_spliced {g : Graph} (hg : g.WellFormed) (hb : g.IsBuiltin) {m : Node}
    (hm : m ∈ g.nodes) {s : Supply} {w : Wired} (hw : g.autoLink m.id s = .ok w) {l : Link}
    (hl : w.wiring.removed = some l) :
    ∃ p q head tail data, g.Spliced m l p q head tail data w.graph := by
  rw [autoLink, hg.node?_of_mem hm] at hw
  obtain rfl := Except.ok.inj hw
  rw [Wired.foldl_removed (Wired.linkOutput_removed m.id),
    Wired.foldl_removed (Wired.linkInput_removed m.id)] at hl
  obtain ⟨i, o, hin, hout, hnear⟩ := linkFlow_removed hl
  obtain ⟨hmem, hflow, hfar⟩ := nearestFlowLink?_some hnear
  obtain ⟨p, hp, rfl, hpfree⟩ := freePin?_some hin
  obtain ⟨q, hq, rfl, hqfree⟩ := freePin?_some hout
  have hpin := Node.flowIn_spec (hb m hm) hp
  have hqout := Node.flowOut_spec (hb m hm) hq
  obtain ⟨mid, hhead, rfl, htail⟩ := halves_accepted hg hm hmem hflow hfar hpin hqout
    (fun k hk => (hpfree k hk).2) s.takeLink.1 s.takeLink.2.takeLink.1
  have heq := Wired.splice_graph (w := ⟨g, s, .none⟩) hhead htail
  have hsplice : (Wired.mk g s .none).linkFlow m.id m.position (g.freePin? m.advertised.flowIn)
      (g.freePin? m.advertised.flowOut) = (Wired.mk g s .none).splice l p.id q.id := by
    simp only [hin, hout, Wired.linkFlow, hnear]
  rw [← hsplice] at heq
  obtain ⟨data, hdata, hadded⟩ := linkData_adds hg hm heq
  refine ⟨p, q, ⟨s.takeLink.1, l.fromNode, l.fromPin, m.id, p.id, true⟩,
    ⟨s.takeLink.2.takeLink.1, m.id, q.id, l.toNode, l.toPin, true⟩, data, hp, ⟨hm, ?_, ?_⟩, hq, hmem, hflow, hfar,
    fun k hk => (hpfree k hk).2, fun k hk => (hqfree k hk).1, rfl, rfl, rfl, rfl,
    fun k hk a r hr hfrom => ?_, ?_⟩
  · exact Node.mem_outputs_of_direction (hb m hm) hqout.1 hqout.2.1
  · rw [Pin.isFlow, hqout.2.2]
    rfl
  · obtain ⟨⟨b, c, r', q', hj⟩, hdatum⟩ := hadded k hk
    have hsource : b ∈ g.nodes := by simpa [heq] using hj.source
    obtain ⟨-, rfl⟩ := hg.eq_of_pin hsource hr.mem hj.owns_source
      (List.mem_append_right _ hr.owns) (hj.fromPin.symm.trans hfrom)
    have hflow := hj.isFlow_eq.1.symm.trans hr.flow
    rw [hdatum] at hflow
    cases hflow
  · rw [hdata, heq]
    simp only [List.append_assoc, List.cons_append, List.nil_append]

/-! ## Following flow -/

lemma mem_of_linksFrom {g : Graph} {i : PinId} {k : Link} (h : k ∈ g.linksFrom i) : k ∈ g.links :=
  List.mem_of_mem_filter h

/-- Where flow goes through an exit, if the links are as given. -/
theorem Exit.follow_eq {g : Graph} (hg : g.WellFormed) (hb : g.IsBuiltin) {a : Node} {r : Pin}
    (h : g.Exit a r) (links : List Link) : Graph.follow { g with links } a.id r.id =
      .ok ((links.filter fun l => l.fromPin == r.id).head?.map fun l => (l.toNode, l.toPin)) := by
  have hmem : r ∈ a.pins := List.mem_append_right _ h.owns
  have hpin : Graph.pin? { g with links } r.id = some r := hg.pin?_of_mem h.mem hmem
  rw [follow, hpin]
  exact if_pos ⟨hg.owner?_of_mem h.mem hmem, h.flow,
    Node.direction_of_mem_outputs (hb a h.mem) h.owns⟩

/-- What one would expect of flow after node `m` has been spliced into link `l` through pins `p` and
`q`: where flow has followed the link, it goes to the node and on to where the link has led, and
everywhere else it goes where it has gone before. -/
def Detours (g : Graph) (m : Node) (l : Link) (p q : Pin) (g' : Graph) : Prop :=
  (∀ a r, g.Exit a r → r ≠ q → g'.follow a.id r.id =
    if (g.linksFrom r.id).head? = some l then .ok (some (m.id, p.id)) else g.follow a.id r.id) ∧
  g'.follow m.id q.id = .ok (some (l.toNode, l.toPin))

namespace Spliced

variable {g g' : Graph} {m : Node} {l head tail : Link} {p q : Pin} {data : List Link}
  (h : g.Spliced m l p q head tail data g')
include h

/-- The links that leave an exit after the splice, the data links apart: what has been there before
without the link that is split, then the new ones. -/
lemma linksFrom_eq {a : Node} {r : Pin} (hr : g.Exit a r) :
    g'.linksFrom r.id = ((g.linksFrom r.id).filter fun k => k.id != l.id) ++
      ([head, tail].filter fun k => k.fromPin == r.id) := by
  have hdata : data.filter (fun k => k.fromPin == r.id) = [] :=
    List.filter_eq_nil_iff.mpr fun k hk => by simpa using h.data_apart k hk a r hr
  simp only [h.eq, linksFrom, unlink, List.filter_append, hdata, List.append_nil,
    List.filter_filter, Bool.and_comm]

/-- The link that is split leaves an exit of its own node. -/
lemma exists_exit (hg : g.WellFormed) (hb : g.IsBuiltin) :
    ∃ a r, g.Exit a r ∧ a.id = l.fromNode ∧ r.id = l.fromPin := by
  obtain ⟨a, b, r, r', hj⟩ := hg.joins l h.mem
  exact ⟨a, r, ⟨hj.source, Node.mem_outputs_of_direction (hb a hj.source) hj.owns_source hj.output,
    hj.isFlow_eq.1.trans h.flow⟩, hj.fromNode.symm, hj.fromPin.symm⟩

/-- The link that is split is the only one with its identity. -/
lemma id_ne (hids : (g.links.map Link.id).Nodup) {k : Link} (hk : k ∈ g.links) (hne : k ≠ l) :
    (k.id != l.id) = true := by
  simpa using mt (List.inj_on_of_nodup_map hids hk h.mem) hne

section Follow

variable (hg : g.WellFormed) (hb : g.IsBuiltin) {a : Node} {r : Pin} (hr : g.Exit a r)
include hg hb hr

/-- Flow goes where the first of the links leads that leave an exit. -/
lemma follow_first : g'.follow a.id r.id =
    .ok ((g'.linksFrom r.id).head?.map fun k => (k.toNode, k.toPin)) := by
  have hfirst := hr.follow_eq hg hb g'.links
  have heq : { g with links := g'.links } = g' := by rw [h.eq]
  rw [heq] at hfirst
  exact hfirst

/-- **Away from the splice, flow goes where it has gone before.** -/
lemma follow_elsewhere (hids : (g.links.map Link.id).Nodup) (hl : r.id ≠ l.fromPin)
    (hq : r.id ≠ q.id) : g'.follow a.id r.id = g.follow a.id r.id := by
  have hkept : ((g.linksFrom r.id).filter fun k => k.id != l.id) = g.linksFrom r.id := by
    refine List.filter_eq_self.mpr fun k hk => ?_
    obtain ⟨hk, hfrom⟩ := List.mem_filter.mp hk
    refine h.id_ne hids hk ?_
    rintro rfl
    exact hl (beq_iff_eq.mp hfrom).symm
  have hnew : ([head, tail].filter fun k => k.fromPin == r.id) = [] := by
    simp [h.head_from, h.tail_from, hl.symm, hq.symm]
  rw [h.follow_first hg hb hr, h.linksFrom_eq hr, hkept, hnew, List.append_nil]
  exact (hr.follow_eq hg hb g.links).symm

/-- **At the pin that the split link leaves**, flow follows the oldest of the other links, and comes to
the spliced node if there is none. -/
lemma follow_split (hl : r.id = l.fromPin) : g'.follow a.id r.id =
    .ok (some ((((g.linksFrom r.id).filter fun k => k.id != l.id).head?.map
      fun k => (k.toNode, k.toPin)).getD (m.id, p.id))) := by
  have htail : tail.fromPin ≠ r.id := by
    rw [h.tail_from, hl]
    exact (h.exit_free l h.mem).symm
  have hnew : ([head, tail].filter fun k => k.fromPin == r.id) = [head] := by
    simp [h.head_from, hl, hl ▸ htail]
  rw [h.follow_first hg hb hr, h.linksFrom_eq hr, hnew]
  cases (g.linksFrom r.id).filter fun k => k.id != l.id with
  | nil => simp [h.head_to]
  | cons k rest => rfl

omit hr in
/-- **From the spliced node, flow goes where the split link has led.** -/
lemma follow_onward : g'.follow m.id q.id = .ok (some (l.toNode, l.toPin)) := by
  have hnone : g.linksFrom q.id = [] :=
    List.filter_eq_nil_iff.mpr fun k hk => by simpa using h.exit_free k hk
  have hhead : head.fromPin ≠ q.id := by
    rw [h.head_from]
    exact h.exit_free l h.mem
  have hnew : ([head, tail].filter fun k => k.fromPin == q.id) = [tail] := by
    simp [h.tail_from, hhead]
  rw [h.follow_first hg hb h.exit, h.linksFrom_eq h.exit, hnone, hnew]
  simp [h.tail_to]

end Follow

/-- If the split link has been followed, and no other is followed in its place, there is no other. -/
lemma linksFrom_eq_singleton (hids : (g.links.map Link.id).Nodup)
    (hfirst : (g.linksFrom l.fromPin).head? = some l)
    (hrest : ((g.linksFrom l.fromPin).filter fun k => k.id != l.id) = []) :
    g.linksFrom l.fromPin = [l] := by
  obtain ⟨rest, hlinks⟩ := List.head?_eq_some_iff.mp hfirst
  have hnd : (g.linksFrom l.fromPin).Nodup := (List.Nodup.of_map _ hids).filter _
  rw [hlinks] at hrest hnd ⊢
  cases rest with
  | nil => rfl
  | cons k rest =>
    have hk := mem_of_linksFrom (hlinks.symm ▸ List.mem_cons_of_mem l List.mem_cons_self)
    have hne : k ≠ l := by
      rintro rfl
      simp at hnd
    exact absurd (h.id_ne hids hk hne) (List.filter_eq_nil_iff.mp hrest k (by simp))

/-- **Flow takes the detour exactly if the split link has not been followed, or nothing else has left
its pin.** -/
theorem detours_iff (hg : g.WellFormed) (hb : g.IsBuiltin)
    (hids : (g.links.map Link.id).Nodup) :
    g.Detours m l p q g' ↔
      ((g.linksFrom l.fromPin).head? = some l → g.linksFrom l.fromPin = [l]) := by
  constructor
  · rintro ⟨hdetour, -⟩ hfirst
    obtain ⟨a, r, hr, -, hl⟩ := h.exists_exit hg hb
    have hrq : r ≠ q := by
      rintro rfl
      exact h.exit_free l h.mem hl.symm
    have hfollow := (h.follow_split hg hb hr hl).symm.trans (hdetour a r hr hrq)
    rw [hl, if_pos hfirst] at hfollow
    refine h.linksFrom_eq_singleton hids hfirst ?_
    -- another link that is followed would lead to the entrance, which has been free
    cases hrest : (g.linksFrom l.fromPin).filter fun k => k.id != l.id with
    | nil => rfl
    | cons k rest =>
      have hk : k ∈ g.links := by
        have hmem : k ∈ (g.linksFrom l.fromPin).filter fun k => k.id != l.id := by simp [hrest]
        exact mem_of_linksFrom (List.mem_of_mem_filter hmem)
      have hto : (k.toNode, k.toPin) = (m.id, p.id) := by simpa [hrest] using hfollow
      exact absurd (Prod.mk.inj hto).2 (h.entrance_free k hk)
  · intro hsingle
    refine ⟨fun a r hr hrq => ?_, h.follow_onward hg hb⟩
    by_cases hl : r.id = l.fromPin
    · have hbefore := hr.follow_eq hg hb g.links
      rw [h.follow_split hg hb hr hl, hl]
      split_ifs with hfirst
      · simp [hsingle hfirst]
      · -- the link that has been followed is still the first
        rw [hl] at hbefore
        refine Eq.trans ?_ hbefore.symm
        have hmem : l ∈ g.linksFrom l.fromPin := by simp [linksFrom, h.mem]
        cases hlinks : g.linksFrom l.fromPin with
        | nil => simp [hlinks] at hmem
        | cons k rest =>
          have hk := mem_of_linksFrom (hlinks.symm ▸ List.mem_cons_self)
          have hne : k ≠ l := by simpa [hlinks] using hfirst
          have hid := h.id_ne hids hk hne
          have hfilter : g.links.filter (fun k => k.fromPin == l.fromPin) = k :: rest := hlinks
          simp [hid, hfilter]
    · have hq : r.id ≠ q.id := fun heq => hrq (hg.eq_of_pin hr.mem h.exit.mem
        (List.mem_append_right _ hr.owns) (List.mem_append_right _ h.exit.owns) heq).2
      have hother : (g.linksFrom r.id).head? ≠ some l := fun hfirst =>
        hl (beq_iff_eq.mp (List.mem_filter.mp (List.mem_of_mem_head? hfirst)).2).symm
      rw [if_neg hother, h.follow_elsewhere hg hb hr hids hl hq]

end Spliced

/-- **Where flow goes after a splice.** If wiring splits a link, then flow goes where it has gone before
wherever the link has not left, and from the spliced node it goes where the link has led. At the pin that
the link has left, it follows the oldest of the other links, and comes to the spliced node only if there
is none. So flow takes the detour unless the link has been the first of several. -/
theorem autoLink_detours_iff {g : Graph} (hg : g.WellFormed) (hb : g.IsBuiltin)
    (hids : (g.links.map Link.id).Nodup) {m : Node} (hm : m ∈ g.nodes) {s : Supply} {w : Wired}
    (hw : g.autoLink m.id s = .ok w) {l : Link} (hl : w.wiring.removed = some l) :
    ∃ p q, m.advertised.flowIn = some p ∧ m.advertised.flowOut = some q ∧
      (∀ a r, g.Exit a r → r.id ≠ l.fromPin → r ≠ q →
        w.graph.follow a.id r.id = g.follow a.id r.id) ∧
      w.graph.follow m.id q.id = .ok (some (l.toNode, l.toPin)) ∧
      (w.graph.follow l.fromNode l.fromPin =
        .ok (some ((((g.linksFrom l.fromPin).filter fun k => k.id != l.id).head?.map
          fun k => (k.toNode, k.toPin)).getD (m.id, p.id)))) ∧
      (g.Detours m l p q w.graph ↔
        ((g.linksFrom l.fromPin).head? = some l → g.linksFrom l.fromPin = [l])) := by
  obtain ⟨p, q, head, tail, data, h⟩ := autoLink_spliced hg hb hm hw hl
  obtain ⟨a, r, hr, ha, hrl⟩ := h.exists_exit hg hb
  have hsplit := h.follow_split hg hb hr hrl
  rw [ha, hrl] at hsplit
  refine ⟨p, q, h.entrance, h.advertised, fun b i hi hil hiq => ?_, h.follow_onward hg hb, hsplit,
    h.detours_iff hg hb hids⟩
  exact h.follow_elsewhere hg hb hi hids hil fun heq => hiq (hg.eq_of_pin hi.mem h.exit.mem
    (List.mem_append_right _ hi.owns) (List.mem_append_right _ h.exit.owns) heq).2

/-! ## A graph in which flow is led past the spliced node -/

/-- Flow leaves a start node through two links; a transition stands near the first of them. -/
def fannedOut : Graph :=
  let nodes := [exampleNode 1 (.start ⟨Uuid.ofNat 11⟩),
    { exampleNode 2 (.finish ⟨⟨Uuid.ofNat 21⟩, ⟨Uuid.ofNat 22⟩⟩) with position := ⟨10, 0⟩ },
    { exampleNode 3 (.finish ⟨⟨Uuid.ofNat 31⟩, ⟨Uuid.ofNat 32⟩⟩) with position := ⟨100, 0⟩ },
    { exampleNode 4 (.transition (examplePins 40) .standard) with position := ⟨5, 0⟩ }]
  { name := "fanned out", nodes, owners := indexOf nodes
    links := [exampleLink 61 1 11 2 21 true, exampleLink 62 1 11 3 31 true] }

theorem fannedOut_wellFormed : fannedOut.WellFormed := by
  refine wellFormed_of_indexOf rfl (by decide) (by decide) (fun l hl => ?_) (by decide)
  simp only [fannedOut, List.mem_cons, List.not_mem_nil, or_false] at hl
  rcases hl with rfl | rfl
  · exact joins_of_getElem? (i := 0) (j := 1) (k := 0) (m := 0) rfl rfl rfl rfl rfl (by decide) rfl
  · exact joins_of_getElem? (i := 0) (j := 2) (k := 0) (m := 0) rfl rfl rfl rfl rfl (by decide) rfl

theorem fannedOut_isBuiltin : fannedOut.IsBuiltin := by
  intro n hn
  simp only [fannedOut, List.mem_cons, List.not_mem_nil, or_false] at hn
  rcases hn with rfl | rfl | rfl | rfl <;> rfl

/-- What wiring has split, read off a computation. -/
lemma exists_of_removed {g : Graph} {n : NodeId} {s : Supply} {l : Link}
    (h : ((g.autoLink n s).toOption.bind fun w => w.wiring.removed) = some l) :
    ∃ w, g.autoLink n s = .ok w ∧ w.wiring.removed = some l := by
  cases hw : g.autoLink n s with
  | error e => simp [hw, Except.toOption] at h
  | ok w => exact ⟨w, rfl, by simpa [hw, Except.toOption] using h⟩

/-- Wiring the transition splits the first of the two links. Flow now goes where the second one leads,
past the transition. -/
theorem fannedOut_astray : fannedOut.WellFormed ∧ fannedOut.IsBuiltin ∧
    (fannedOut.links.map Link.id).Nodup ∧ ∃ m ∈ fannedOut.nodes, ∃ w l p q,
      fannedOut.autoLink m.id (.countingFrom 0) = .ok w ∧ w.wiring.removed = some l ∧
      m.advertised.flowIn = some p ∧ m.advertised.flowOut = some q ∧
      ¬ fannedOut.Detours m l p q w.graph := by
  have hids : (fannedOut.links.map Link.id).Nodup := by decide
  obtain ⟨m, hm, hid⟩ := mem_nodeIds.mp (show ⟨Uuid.ofNat 4⟩ ∈ fannedOut.nodeIds by decide)
  obtain ⟨w, hw, hl⟩ := exists_of_removed (g := fannedOut) (n := ⟨Uuid.ofNat 4⟩)
    (s := .countingFrom 0) (l := exampleLink 61 1 11 2 21 true) (by decide +kernel)
  rw [← hid] at hw
  obtain ⟨p, q, head, tail, data, h⟩ :=
    autoLink_spliced fannedOut_wellFormed fannedOut_isBuiltin hm hw hl
  refine ⟨fannedOut_wellFormed, fannedOut_isBuiltin, hids, m, hm, w, _, p, q, hw, hl, h.entrance,
    h.advertised, fun hdetours => ?_⟩
  have hsingle := (h.detours_iff fannedOut_wellFormed fannedOut_isBuiltin hids).mp hdetours
  exact absurd (hsingle (by decide)) (by decide)

/-- If the first link is the only one, flow takes the detour. -/
theorem singleLink_detours : ∃ m ∈ fannedOut.nodes, ∃ w l p q,
    Graph.autoLink { fannedOut with links := fannedOut.links.take 1 } m.id (.countingFrom 0) =
      .ok w ∧ Detours { fannedOut with links := fannedOut.links.take 1 } m l p q w.graph := by
  have hwellFormed := fannedOut_wellFormed.restrict (List.take_sublist 1 fannedOut.links)
  obtain ⟨m, hm, hid⟩ := mem_nodeIds.mp (show ⟨Uuid.ofNat 4⟩ ∈ fannedOut.nodeIds by decide)
  obtain ⟨w, hw, hl⟩ := exists_of_removed (n := ⟨Uuid.ofNat 4⟩) (s := .countingFrom 0)
    (g := { fannedOut with links := fannedOut.links.take 1 })
    (l := exampleLink 61 1 11 2 21 true) (by decide +kernel)
  rw [← hid] at hw
  obtain ⟨p, q, -, -, -, -, -, hiff⟩ :=
    autoLink_detours_iff hwellFormed fannedOut_isBuiltin (by decide) hm hw hl
  exact ⟨m, hm, w, _, p, q, hw, hiff.mpr fun _ => by decide⟩

end Graph

end Patchbay
