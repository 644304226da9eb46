import Patchbay.Proofs.Graph.FlowCycles
import Patchbay.Proofs.Graph.Sweep
import Patchbay.Proofs.Run.Cycles

/-!
# Automatic wiring and cycles of data

Automatic wiring matches the data pins of a node with those of its flow neighbours. Every data link
that it makes therefore runs along flow (`Graph.linkData_along`). The links that were there before need
not: a node may take data from one that flow comes to later, which is then pulled ahead. If a node is
spliced in between the two, and takes data from the one before and hands it to the one behind, that
closes a cycle of data.

**`Graph.autoLink_dataAcyclic_iff`** says exactly when wiring does so. As long as nothing is pulled
ahead, it does not.
-/

namespace Patchbay

open Relation

/-- Steps that all lead from one place to another lead nowhere twice. -/
theorem not_transGen_of_apart {α : Type} {r : α → α → Prop} {a b : α}
    (hr : ∀ x y, r x y → x = a ∧ y = b) (hab : a ≠ b) (x : α) : ¬ TransGen r x x := by
  intro h
  obtain ⟨y, hxy, -⟩ := TransGen.head'_iff.mp h
  obtain ⟨z, -, hzx⟩ := TransGen.tail'_iff.mp h
  exact hab ((hr x y hxy).1.symm.trans (hr z x hzx).2)

/-- What is offered are pins of the node. -/
theorem Node.mem_pins_of_offered {n : Node} {d : Direction} {p : Pin} (h : p ∈ n.offered d) :
    p ∈ n.pins := by
  have hmem := List.mem_of_mem_filter h
  rw [pins, List.mem_append]
  cases d with
  | input =>
    dsimp only at hmem
    split_ifs at hmem
    · exact .inl hmem
    · exact List.mem_append.mp (mem_pins_of_advertised (.inl hmem))
  | output =>
    dsimp only at hmem
    split_ifs at hmem
    · exact .inr hmem
    · exact List.mem_append.mp (mem_pins_of_advertised (.inr hmem))

namespace Graph

variable {g g' g'' : Graph} {n : NodeId}

/-! ## Data links run along flow -/

/-- The link carries data to or from node `n`, and flow leads there as well. -/
def RunsAlong (g : Graph) (n : NodeId) (l : Link) : Prop :=
  l.flow = false ∧ (l.toNode = n ∧ TransGen g.FlowLink l.fromNode n ∨
    l.fromNode = n ∧ TransGen g.FlowLink n l.toNode)

/-- Adding links that carry data leaves flow alone. -/
theorem Adds.flowLink_eq {P : Link → Prop} (h : g.Adds P g') (hP : ∀ l, P l → l.flow = false) :
    g'.FlowLink = g.FlowLink := by
  obtain ⟨new, rfl, hnew⟩ := h
  funext x y
  refine propext ⟨?_, ?_⟩
  · rintro ⟨l, hl, hflow, hxy⟩
    rcases List.mem_append.mp hl with hl | hl
    · exact ⟨l, hl, hflow, hxy⟩
    · rw [hP l (hnew l hl).2] at hflow
      cases hflow
  · rintro ⟨l, hl, hflow, hxy⟩
    exact ⟨l, List.mem_append_left _ hl, hflow, hxy⟩

/-- Flow leads from the nodes that are found upstream. -/
theorem leads_of_mem_upstream {m : NodeId} (h : m ∈ g.flowNeighbours n .upstream) :
    ReflTransGen g.FlowLink m n :=
  exists_hops.mp (mem_flowNeighbours_iff.mp h).2

/-- Flow leads to the nodes that are found downstream. -/
theorem leads_of_mem_downstream {m : NodeId} (h : m ∈ g.flowNeighbours n .downstream) :
    ReflTransGen g.FlowLink n m :=
  exists_hops.mp (mem_flowNeighbours_iff.mp h).2

/-- What is offered to a node is a pin of one of its flow neighbours. -/
theorem offeredPin?_some {h : Heading} {d : Direction} {accepts : PinType → Bool} {i : PinId}
    (hi : g.offeredPin? n h d accepts = some i) :
    ∃ m ∈ g.nodes, m.id ∈ g.flowNeighbours n h ∧ ∃ p ∈ m.pins, p.id = i := by
  obtain ⟨p, hp, rfl⟩ := Option.map_eq_some_iff.mp hi
  obtain ⟨m, hm, hpm⟩ := List.mem_flatMap.mp (List.mem_of_find?_eq_some hp)
  obtain ⟨k, hk, hmk⟩ := List.mem_filterMap.mp hm
  obtain ⟨hmem, rfl⟩ := node?_some hmk
  exact ⟨m, hmem, hk, p, Node.mem_pins_of_offered hpm, rfl⟩

section Steps

variable (hg : g.WellFormed) {m : Node} (hm : m ∈ g.nodes) {p : Pin} (hp : p ∈ m.pins)
  (hdata : p.isFlow = false) {w : Wired} {links : List Link} (hw : w.graph = { g with links })
include hg hm hp hdata hw

/-- What feeds a data pin comes from where flow comes from. -/
theorem Wired.linkInput_along :
    w.graph.Adds (w.graph.RunsAlong m.id) (w.linkInput m.id p.id).graph := by
  have hnodes : w.graph.nodes = g.nodes := by rw [hw]
  rw [linkInput]
  split
  · exact .refl _ _
  · split
    · rename_i hoffered
      obtain ⟨k, hk, hnear, q, hq, rfl⟩ := offeredPin?_some hoffered
      refine (tryLink_adds w _ _).imp fun l a b p' q' hj hl => ?_
      obtain ⟨rfl, rfl⟩ := hg.eq_of_pin (hnodes ▸ hj.target) hm hj.owns_target hp
        (hj.toPin.symm.trans hl.2)
      obtain ⟨rfl, -⟩ := hg.eq_of_pin (hnodes ▸ hj.source) (hnodes ▸ hk) hj.owns_source hq
        (hj.fromPin.symm.trans hl.1)
      refine ⟨hj.isFlow_eq.2.symm.trans hdata, .inl ⟨hj.toNode, ?_⟩⟩
      rw [hj.fromNode]
      exact (reflTransGen_iff_eq_or_transGen.mp (leads_of_mem_upstream hnear)).resolve_left
        hj.apart.symm
    · exact .refl _ _

/-- What a data pin feeds is where flow goes to. -/
theorem Wired.linkOutput_along :
    w.graph.Adds (w.graph.RunsAlong m.id) (w.linkOutput m.id p.id).graph := by
  have hnodes : w.graph.nodes = g.nodes := by rw [hw]
  rw [linkOutput]
  split
  · exact .refl _ _
  · split
    · rename_i hoffered
      obtain ⟨k, hk, hnear, q, hq, rfl⟩ := offeredPin?_some hoffered
      refine (tryLink_adds w _ _).imp fun l a b p' q' hj hl => ?_
      obtain ⟨rfl, rfl⟩ := hg.eq_of_pin (hnodes ▸ hj.source) hm hj.owns_source hp
        (hj.fromPin.symm.trans hl.1)
      obtain ⟨rfl, -⟩ := hg.eq_of_pin (hnodes ▸ hj.target) (hnodes ▸ hk) hj.owns_target hq
        (hj.toPin.symm.trans hl.2)
      refine ⟨hj.isFlow_eq.1.symm.trans hdata, .inr ⟨hj.fromNode, ?_⟩⟩
      rw [hj.toNode]
      exact (reflTransGen_iff_eq_or_transGen.mp (leads_of_mem_downstream hnear)).resolve_left
        hj.apart.symm
    · exact .refl _ _

end Steps

/-- Data steps taken one after another all go by the flow that was there to begin with. -/
theorem Wired.foldl_along {step : Wired → PinId → Wired} (ids : List PinId)
    (hstep : ∀ i ∈ ids, ∀ (w : Wired) (links : List Link), w.graph = { g with links } →
      w.graph.Adds (w.graph.RunsAlong n) (step w i).graph)
    {w : Wired} {links : List Link} (hw : w.graph = { g with links }) :
    w.graph.Adds (w.graph.RunsAlong n) (ids.foldl step w).graph := by
  refine List.foldlRecOn ids step (motive := fun v => w.graph.Adds (w.graph.RunsAlong n) v.graph)
    (.refl _ _) fun v hv i hi => hv.trans ?_
  have hflow : v.graph.FlowLink = w.graph.FlowLink := hv.flowLink_eq fun _ hl => hl.1
  obtain ⟨new, hnew, -⟩ := hv
  refine (hstep i hi v (links ++ new) (by rw [hnew, hw])).imp fun l _ _ _ _ _ hl => ?_
  rwa [RunsAlong, ← hflow]

/-- **The data steps go by flow.** What they add runs along flow. -/
theorem linkData_along (hg : g.WellFormed) {m : Node} (hm : m ∈ g.nodes) {w : Wired}
    {links : List Link} (hw : w.graph = { g with links }) :
    w.graph.Adds (w.graph.RunsAlong m.id)
      ((g.freeData m.advertised.dataOut).foldl (Wired.linkOutput m.id)
        ((g.freeData m.advertised.dataIn).foldl (Wired.linkInput m.id) w)).graph := by
  have hin := Wired.foldl_along (g.freeData m.advertised.dataIn) (fun i hi v _ hv => by
    obtain ⟨p, hp, rfl, hdata⟩ := mem_freeData hi
    exact Wired.linkInput_along hg hm (Node.mem_pins_of_advertised (.inl hp)) hdata hv) hw
  have hflow := hin.flowLink_eq fun _ hl => hl.1
  obtain ⟨new, hnew, -⟩ := id hin
  rw [hw] at hnew
  have hout := Wired.foldl_along (g.freeData m.advertised.dataOut) (fun i hi v _ hv => by
    obtain ⟨p, hp, rfl, hdata⟩ := mem_freeData hi
    exact Wired.linkOutput_along hg hm (Node.mem_pins_of_advertised (.inr hp)) hdata hv) hnew
  refine hin.trans (hout.imp fun l _ _ _ _ _ hl => ?_)
  rwa [RunsAlong, ← hflow]

namespace FlowStep

variable {flowIn flowOut : Option PinId} (h : g.FlowStep n flowIn flowOut g')
include h

/-- The flow step leaves data alone. -/
theorem mem_links_iff (hids : (g.links.map Link.id).Nodup) {k : Link} (hk : k.flow = false) :
    k ∈ g'.links ↔ k ∈ g.links := by
  cases h with
  | spliced l head tail mem flow far head_new tail_new head_flow tail_flow head_from head_to
      tail_from tail_to =>
    simp only [List.mem_append, List.mem_cons, List.not_mem_nil, or_false]
    constructor
    · rintro (hold | rfl | rfl)
      · exact List.mem_of_mem_filter hold
      · simp [hk] at head_flow
      · simp [hk] at tail_flow
    · refine fun hold => .inl (List.mem_filter.mpr ⟨hold, ?_⟩)
      rw [bne_iff_ne]
      intro heq
      obtain rfl := List.inj_on_of_nodup_map hids hold mem heq
      simp [hk] at flow
  | attached _ close adds =>
    obtain ⟨new, rfl, hadded⟩ := adds
    refine List.mem_append.trans (or_iff_left fun hmem => ?_)
    have hflow := (hadded k hmem).2.2.1
    simp [hk] at hflow

/-- A node that flow does not touch changes no ways between the others. -/
theorem leads_of_leads (hacyclic : g.FlowAcyclic) (hsome : ∃ l ∈ g.links, l.flow = true)
    (hapart : ∀ l ∈ g.links, l.flow = true → l.involvesNode n = false) {x y : NodeId}
    (hx : x ≠ n) (hy : y ≠ n) (hxy : TransGen g'.FlowLink x y) : TransGen g.FlowLink x y := by
  have haway : ∀ {x y}, g.FlowLink x y → x ≠ n ∧ y ≠ n := by
    rintro _ _ ⟨l, hl, hflow, rfl, rfl⟩
    simpa [Link.involvesNode] using hapart l hl hflow
  have hdetour := detour_of_transGen (h.not_closesFlow hacyclic hsome hapart)
    (fun a b => h.flowLink_or) hxy
  cases hdetour with
  | direct way => exact way
  | entering a new before after =>
    rcases ReflTransGen.cases_head after with rfl | ⟨c, hc, -⟩
    · exact absurd rfl hy
    · exact absurd rfl (haway hc).1
  | leaving b new before after =>
    rcases ReflTransGen.cases_tail before with rfl | ⟨c, -, hc⟩
    · exact absurd rfl hx
    · exact absurd rfl (haway hc).2
  | through a b entry exit before after =>
    obtain ⟨k, hk, hknew, -, rfl, hkto⟩ := entry
    obtain ⟨k', hk', hknew', -, hkfrom', rfl⟩ := exit
    exact (TransGen.tail' before (h.halves hsome hapart hk hknew hkto hk' hknew' hkfrom')).trans_left
      after

end FlowStep

/-! ## Data after wiring -/

/-- By a data link of the second graph that the first one does not have, `x` takes data from `y`. -/
def NewData (g g' : Graph) (x y : NodeId) : Prop :=
  ∃ l ∈ g'.links, l ∉ g.links ∧ l.flow = false ∧ l.toNode = x ∧ l.fromNode = y

/-- No node depends on its own data. -/
def DataAcyclic (g : Graph) : Prop := ∀ n, ¬ TransGen g.DataLink n n

/-- The new data links of `g'` at node `n` close a cycle with those of `g`: a node newly takes data from
`n` that `n` depends on, or `n` newly takes data from one that depends on `n`, or it newly takes data
from one that depends on another one that newly takes data from `n`. -/
def ClosesData (g g' : Graph) (n : NodeId) : Prop :=
  Closes g.DataLink n (fun x => g.NewData g' x n) (fun y => g.NewData g' n y)

/-- A node depends, by the data links of `g`, on one that flow comes to after it, by the flow links of
`g'`. -/
def PullsAhead (g g' : Graph) : Prop := ∃ x y, TransGen g.DataLink x y ∧ TransGen g'.FlowLink x y

/-- What wiring node `n` comes to for data: links are added at the node, and they run along flow. -/
structure DataStep (g : Graph) (n : NodeId) (g' : Graph) : Prop where
  kept : ∀ l ∈ g.links, l.flow = false → l ∈ g'.links
  along : ∀ l ∈ g'.links, l ∉ g.links → l.flow = false → g'.RunsAlong n l

namespace DataStep

variable (h : g.DataStep n g')
include h

/-- A node newly takes data from one that flow leads from, and one of the two is the node wired. -/
theorem along_of_newData {x y : NodeId} (hxy : g.NewData g' x y) :
    (x = n ∨ y = n) ∧ TransGen g'.FlowLink y x := by
  obtain ⟨l, hl, hnew, hdata, rfl, rfl⟩ := hxy
  rcases (h.along l hl hnew hdata).2 with ⟨hto, hway⟩ | ⟨hfrom, hway⟩
  · exact ⟨.inl hto, by rwa [hto]⟩
  · exact ⟨.inr hfrom, by rwa [hfrom]⟩

/-- The data links after the step lie on a cycle exactly if the new ones close one. -/
theorem dataAcyclic_iff (hacyclic : g.DataAcyclic) : g'.DataAcyclic ↔ ¬ g.ClosesData g' n := by
  constructor
  · intro hafter hcloses
    refine hafter n (cycle_of_closes (fun x y hxy => .single ?_) ?_ ?_ hcloses)
    · obtain ⟨l, hl, hdata, hends⟩ := hxy
      exact ⟨l, h.kept l hl hdata, hdata, hends⟩
    · rintro x ⟨l, hl, -, hdata, hends⟩
      exact ⟨l, hl, hdata, hends⟩
    · rintro y ⟨l, hl, -, hdata, hends⟩
      exact ⟨l, hl, hdata, hends⟩
  · refine fun hopen => acyclic_of_detour hacyclic hopen fun x y hxy => ?_
    obtain ⟨l, hl, hdata, rfl, rfl⟩ := hxy
    by_cases hold : l ∈ g.links
    · exact .inl ⟨l, hold, hdata, rfl, rfl⟩
    · rcases (h.along l hl hold hdata).2 with ⟨hto, -⟩ | ⟨hfrom, -⟩
      · exact .inr (.inr ⟨hto, l, hl, hold, hdata, hto, rfl⟩)
      · exact .inr (.inl ⟨hfrom, l, hl, hold, hdata, rfl, hfrom⟩)

/-- A cycle that is closed runs with flow through the new links, so it runs against flow elsewhere. -/
theorem not_closesData (hflow : g'.FlowAcyclic) (hahead : ¬ g.PullsAhead g') :
    ¬ g.ClosesData g' n := by
  have hopen : ∀ {x y}, ReflTransGen g.DataLink x y → ¬ TransGen g'.FlowLink x y := by
    intro x y hdata hway
    rcases reflTransGen_iff_eq_or_transGen.mp hdata with rfl | hdata
    · exact hflow _ hway
    · exact hahead ⟨x, y, hdata, hway⟩
  rintro (⟨x, hx, hnx⟩ | ⟨y, hy, hyn⟩ | ⟨x, y, hx, hy, hyx⟩)
  · exact hopen hnx (h.along_of_newData hx).2
  · exact hopen hyn (h.along_of_newData hy).2
  · exact hopen hyx ((h.along_of_newData hy).2.trans (h.along_of_newData hx).2)

end DataStep

/-- Wiring is a flow step and a data step, and the flow afterwards is that of the flow step. -/
theorem autoLink_dataStep (hg : g.WellFormed) (hb : g.IsBuiltin)
    (hids : (g.links.map Link.id).Nodup) (hn : n ∈ g.nodeIds) (s : Supply) :
    ∃ w g' flowIn flowOut, g.autoLink n s = .ok w ∧ g.FlowStep n flowIn flowOut g' ∧
      w.graph.FlowLink = g'.FlowLink ∧ g.DataStep n w.graph := by
  obtain ⟨m, hm, rfl⟩ := mem_nodeIds.mp hn
  have hstep := linkFlow_step hg hb hm s
  have hadds := linkData_along hg hm hstep.links_only
  have hflow := hadds.flowLink_eq fun _ hl => hl.1
  refine ⟨_, _, _, _, by rw [autoLink, hg.node?_of_mem hm], hstep, hflow, ?_⟩
  obtain ⟨new, hnew, hadded⟩ := id hadds
  constructor
  · intro l hl hdata
    rw [hnew]
    exact List.mem_append_left _ ((hstep.mem_links_iff hids hdata).mpr hl)
  · intro l hl hfresh hdata
    rw [hnew] at hl
    rcases List.mem_append.mp hl with hl | hl
    · exact absurd ((hstep.mem_links_iff hids hdata).mp hl) hfresh
    · have halong := (hadded l hl).2
      rwa [RunsAlong, ← hflow] at halong

/-- **When wiring closes a cycle of data.** Wiring succeeds, and if there was no cycle of data before,
there is one afterwards exactly if the new data links of the node close one. The new links all run
along flow. So there is none if flow has no cycle and nothing is pulled ahead; of a node that has no
links yet, it is enough that this was so before. -/
theorem autoLink_dataAcyclic_iff (hg : g.WellFormed) (hb : g.IsBuiltin)
    (hids : (g.links.map Link.id).Nodup) (hacyclic : g.DataAcyclic) (hn : n ∈ g.nodeIds)
    (s : Supply) :
    ∃ w, g.autoLink n s = .ok w ∧ (w.graph.DataAcyclic ↔ ¬ g.ClosesData w.graph n) ∧
      (∀ x y, g.NewData w.graph x y → (x = n ∨ y = n) ∧ TransGen w.graph.FlowLink y x) ∧
      (w.graph.FlowAcyclic → ¬ g.PullsAhead w.graph → w.graph.DataAcyclic) ∧
      (g.FlowAcyclic → ¬ g.PullsAhead g → (∃ l ∈ g.links, l.flow = true) →
        (∀ l ∈ g.links, l.involvesNode n = false) → w.graph.DataAcyclic) := by
  obtain ⟨w, g', flowIn, flowOut, hw, hstep, hflow, hdata⟩ := autoLink_dataStep hg hb hids hn s
  have hiff := hdata.dataAcyclic_iff hacyclic
  refine ⟨w, hw, hiff, fun x y => hdata.along_of_newData, fun hafter hahead =>
    hiff.mpr (hdata.not_closesData hafter hahead), fun hbefore hahead hsome hapart => ?_⟩
  have hflowApart : ∀ l ∈ g.links, l.flow = true → l.involvesNode n = false :=
    fun l hl _ => hapart l hl
  have hafter : w.graph.FlowAcyclic := by
    rw [FlowAcyclic, hflow]
    exact (hstep.flowAcyclic_iff hids hbefore).mpr (hstep.not_closesFlow hbefore hsome hflowApart)
  refine hiff.mpr (hdata.not_closesData hafter ?_)
  rintro ⟨x, y, hxy, hway⟩
  have haway : ∀ {a b}, g.DataLink a b → a ≠ n ∧ b ≠ n := by
    rintro _ _ ⟨l, hl, -, rfl, rfl⟩
    simpa [Link.involvesNode, and_comm] using hapart l hl
  obtain ⟨a, hxa, -⟩ := TransGen.head'_iff.mp hxy
  obtain ⟨b, -, hby⟩ := TransGen.tail'_iff.mp hxy
  exact hahead ⟨x, y, hxy, hstep.leads_of_leads hbefore hsome hflowApart (haway hxa).1 (haway hby).2
    (hflow ▸ hway)⟩

/-! ## Two transitions and one to be put between them -/

def threeTransitions : List Node :=
  [exampleNode 1 (.transition (examplePins 10) .standard),
    exampleNode 2 (.transition (examplePins 20) .standard),
    exampleNode 3 (.transition (examplePins 30) .standard)]

/-- Flow runs from the first transition to the second one, and there is one data link. The third
transition stands apart. -/
def transitions (data : Link) : Graph :=
  { name := "transitions", nodes := threeTransitions, owners := indexOf threeTransitions
    links := [exampleLink 61 1 14 2 20 true, data] }

/-- The second transition takes its first picture from the first one. -/
def handedOn : Graph := transitions (exampleLink 62 1 15 2 21 false)

/-- The first transition takes its first picture from the second one. -/
def drawnBack : Graph := transitions (exampleLink 62 2 25 1 11 false)

theorem transitions_isBuiltin (data : Link) : (transitions data).IsBuiltin := by
  intro n hn
  simp only [transitions, threeTransitions, List.mem_cons, List.not_mem_nil, or_false] at hn
  rcases hn with rfl | rfl | rfl <;> rfl

theorem transitions_wellFormed {data : Link}
    (hdata : ∃ a b p q, (transitions data).Joins data a b p q)
    (htargets : ((transitions data).links.map Link.toPin).Nodup) : (transitions data).WellFormed := by
  have hnodes : (threeTransitions.map Node.id).Nodup := by decide
  have hpins : ((threeTransitions.flatMap Node.pins).map Pin.id).Nodup := by decide
  refine wellFormed_of_indexOf rfl hnodes hpins (fun l hl => ?_) htargets
  simp only [transitions, List.mem_cons, List.not_mem_nil, or_false] at hl
  rcases hl with rfl | rfl
  · exact joins_of_getElem? (i := 0) (j := 1) (k := 4) (m := 0) rfl rfl rfl rfl rfl (by decide) rfl
  · exact hdata

theorem flowLink_transitions {data : Link} (hdata : data.flow = false) {x y : NodeId}
    (h : (transitions data).FlowLink x y) : x = ⟨Uuid.ofNat 1⟩ ∧ y = ⟨Uuid.ofNat 2⟩ := by
  obtain ⟨l, hl, hflow, rfl, rfl⟩ := h
  simp only [transitions, List.mem_cons, List.not_mem_nil, or_false] at hl
  rcases hl with rfl | rfl
  · exact ⟨rfl, rfl⟩
  · rw [hdata] at hflow
    cases hflow

theorem dataLink_transitions {data : Link} {x y : NodeId} (h : (transitions data).DataLink x y) :
    x = data.toNode ∧ y = data.fromNode := by
  obtain ⟨l, hl, hflow, rfl, rfl⟩ := h
  simp only [transitions, List.mem_cons, List.not_mem_nil, or_false] at hl
  rcases hl with rfl | rfl
  · cases hflow
  · exact ⟨rfl, rfl⟩

/-- If data runs along flow, putting the third transition in between closes no cycle. -/
theorem handedOn_dataAcyclic : ∃ w,
    handedOn.autoLink ⟨Uuid.ofNat 3⟩ (.countingFrom 0) = .ok w ∧ w.graph.DataAcyclic := by
  have hwellFormed : handedOn.WellFormed := transitions_wellFormed
    (joins_of_getElem? (i := 0) (j := 1) (k := 5) (m := 1) rfl rfl rfl rfl rfl (by decide) rfl)
    (by decide)
  have hdata : handedOn.DataAcyclic :=
    not_transGen_of_apart (fun _ _ => dataLink_transitions) (by decide)
  have hflow : handedOn.FlowAcyclic :=
    not_transGen_of_apart (fun _ _ => flowLink_transitions rfl) (by decide)
  have hahead : ¬ handedOn.PullsAhead handedOn := by
    rintro ⟨x, y, hxy, hway⟩
    obtain ⟨a, hxa, -⟩ := TransGen.head'_iff.mp hxy
    obtain ⟨b, hxb, -⟩ := TransGen.head'_iff.mp hway
    exact absurd ((dataLink_transitions hxa).1.symm.trans (flowLink_transitions rfl hxb).1)
      (by decide)
  obtain ⟨w, hw, -, -, -, hopen⟩ := autoLink_dataAcyclic_iff hwellFormed (transitions_isBuiltin _)
    (by decide) hdata (n := ⟨Uuid.ofNat 3⟩) (by decide) (.countingFrom 0)
  exact ⟨w, hw, hopen hflow hahead ⟨_, List.mem_cons_self, rfl⟩ (by decide)⟩

/-- If the first transition pulls the second one ahead, putting the third one in between lets it take
the picture of the first one and hand its own to the second one, and each depends on itself. -/
theorem drawnBack_dataCycle : drawnBack.WellFormed ∧ drawnBack.IsBuiltin ∧
    (drawnBack.links.map Link.id).Nodup ∧ drawnBack.FlowAcyclic ∧ drawnBack.DataAcyclic ∧
    ⟨Uuid.ofNat 3⟩ ∈ drawnBack.nodeIds ∧
    ∃ w, drawnBack.autoLink ⟨Uuid.ofNat 3⟩ (.countingFrom 0) = .ok w ∧
      ¬ w.graph.DataAcyclic := by
  refine ⟨transitions_wellFormed (joins_of_getElem? (i := 1) (j := 0) (k := 5) (m := 1) rfl rfl rfl
    rfl rfl (by decide) rfl) (by decide), transitions_isBuiltin _, by decide,
    not_transGen_of_apart (fun _ _ => flowLink_transitions rfl) (by decide),
    not_transGen_of_apart (fun _ _ => dataLink_transitions) (by decide), by decide, ?_⟩
  have hlinks : (drawnBack.autoLink ⟨Uuid.ofNat 3⟩ (.countingFrom 0)).map
      (fun w => (w.graph.links.filter fun l => !l.flow).map fun l => (l.toNode, l.fromNode)) =
        .ok [(⟨Uuid.ofNat 1⟩, ⟨Uuid.ofNat 2⟩), (⟨Uuid.ofNat 3⟩, ⟨Uuid.ofNat 1⟩),
          (⟨Uuid.ofNat 2⟩, ⟨Uuid.ofNat 3⟩)] := by
    decide +kernel
  cases hw : drawnBack.autoLink ⟨Uuid.ofNat 3⟩ (.countingFrom 0) with
  | error e => simp [hw, Except.map] at hlinks
  | ok w =>
    simp only [hw, Except.map, Except.ok.injEq] at hlinks
    have hmem : ∀ ends ∈ (w.graph.links.filter fun l => !l.flow).map fun l =>
        (l.toNode, l.fromNode), w.graph.DataLink ends.1 ends.2 := by
      rintro _ hends
      obtain ⟨l, hl, rfl⟩ := List.mem_map.mp hends
      obtain ⟨hl, hdata⟩ := List.mem_filter.mp hl
      exact ⟨l, hl, by simpa using hdata, rfl, rfl⟩
    simp only [hlinks, List.mem_cons, List.not_mem_nil, or_false, forall_eq_or_imp,
      forall_eq] at hmem
    exact ⟨w, rfl, fun hafter => hafter _ (.head hmem.1 (.head hmem.2.2 (.single hmem.2.1)))⟩

end Graph

end Patchbay
