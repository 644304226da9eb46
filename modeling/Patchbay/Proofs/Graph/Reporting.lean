import Patchbay.Proofs.Graph.Connectivity

/-!
# What automatic wiring reports

Automatic wiring reports the links that it has made and the link that it has split. Two of the three
things that it can do to the links are told by the report: links that are added at the end, and a link
that gives way to two halves. The third is not. A splice that is refused is undone, but the link that
comes back has another identity and stands behind all others, and flow leaves a pin through the oldest of
its links.

`Graph.Reported` pairs what happens to the links with what is reported, and `Graph.autoLink_reported`
says that there is nothing else. **`Graph.autoLink_silent_iff`** tells when an empty report means that
nothing has changed. It always does if the node advertises flow pins as wiring expects them
(`Node.AdvertisesFlow`), as all built-in nodes do.
-/

namespace Patchbay

/-- The flow pins that a node advertises can take flow in and let it out. -/
structure Node.AdvertisesFlow (m : Node) : Prop where
  entrance : ∀ p, m.advertised.flowIn = some p → p.direction = .input ∧ p.type = .flow
  exit : ∀ q, m.advertised.flowOut = some q → q.direction = .output ∧ q.type = .flow

theorem Node.advertisesFlow_of_builtin {m : Node} (hm : m.body.isBuiltin = true) :
    m.AdvertisesFlow :=
  ⟨fun _ hp => (flowIn_spec hm hp).2, fun _ hq => (flowOut_spec hm hq).2⟩

namespace Graph

/-! ## The record of the links made -/

namespace Wired

/-- Links have been added at the end, and they are what the record has gained. -/
def Records (w w' : Wired) : Prop :=
  ∃ new, w'.graph = { w.graph with links := w.graph.links ++ new } ∧
    w'.wiring = { w.wiring with created := w.wiring.created ++ new.map Link.id }

theorem Records.refl (w : Wired) : w.Records w := ⟨[], by simp, by simp⟩

theorem Records.trans {w w' w'' : Wired} (h : w.Records w') (h' : w'.Records w'') :
    w.Records w'' := by
  obtain ⟨new, hgraph, hwiring⟩ := h
  obtain ⟨more, hgraph', hwiring'⟩ := h'
  exact ⟨new ++ more, by simp [hgraph', hgraph], by simp [hwiring', hwiring]⟩

theorem tryLink_records (w : Wired) (source target : PinId) :
    w.Records (w.tryLink source target) := by
  simp only [tryLink]
  split
  · rename_i hlink
    obtain ⟨l, -, -, -, -, -, hid, -, -, rfl, -⟩ := link_spec hlink
    exact ⟨[l], rfl, by simp [hid]⟩
  · exact .refl w

theorem attachIn_records (w : Wired) (n : NodeId) (place : Point) (flowIn : Option PinId) :
    w.Records (w.attachIn n place flowIn) := by
  cases flowIn with
  | none => exact .refl w
  | some input =>
    simp only [attachIn]
    split
    · exact tryLink_records w _ _
    · exact .refl w

theorem attachOut_records (w : Wired) (n : NodeId) (place : Point) (flowOut : Option PinId) :
    w.Records (w.attachOut n place flowOut) := by
  cases flowOut with
  | none => exact .refl w
  | some output =>
    simp only [attachOut]
    split
    · exact tryLink_records w _ _
    · exact .refl w

theorem linkInput_records (n : NodeId) (w : Wired) (input : PinId) :
    w.Records (w.linkInput n input) := by
  rw [linkInput]
  split
  · exact .refl w
  · split
    · exact tryLink_records w _ _
    · exact .refl w

theorem linkOutput_records (n : NodeId) (w : Wired) (output : PinId) :
    w.Records (w.linkOutput n output) := by
  rw [linkOutput]
  split
  · exact .refl w
  · split
    · exact tryLink_records w _ _
    · exact .refl w

/-- Steps that record what they add do so when taken one after another. -/
theorem foldl_records {step : Wired → PinId → Wired}
    (hstep : ∀ (w : Wired) i, w.Records (step w i)) (ids : List PinId) (w : Wired) :
    w.Records (ids.foldl step w) :=
  List.foldlRecOn ids step (motive := fun v => w.Records v) (.refl w)
    fun v hv i _ => hv.trans (hstep v i)

end Wired

/-! ## What happens and what is reported -/

/-- What wiring node `m` has done, and what it says about it. `again` is the identity of a link that has
been made again. -/
inductive Reported (g : Graph) (m : Node) (again : LinkId) (w : Wired) : Prop
  /-- Links have been added, and they are what is reported. -/
  | extended (new : List Link) (picked : g.picked? m = none)
    (graph : w.graph = { g with links := g.links ++ new })
    (wiring : w.wiring = ⟨new.map Link.id, none⟩)
  /-- The picked link has given way to two halves, and more links have been added. -/
  | spliced (l head tail : Link) (new : List Link) (picked : g.picked? m = some l)
    (graph : w.graph = { g with links := (g.unlink l.id).links ++ (head :: tail :: new) })
    (wiring : w.wiring = ⟨(head :: tail :: new).map Link.id, some l⟩)
  /-- The picked link has been taken away and put back, about which nothing is said. -/
  | restored (l : Link) (new : List Link) (picked : g.picked? m = some l)
    (misfit : ¬ m.AdvertisesFlow)
    (graph : w.graph =
      { g with links := (g.unlink l.id).links ++ ({ l with id := again } :: new) })
    (wiring : w.wiring = ⟨new.map Link.id, none⟩)

/-- Links that are added and recorded later change nothing about it. -/
theorem Reported.records {g : Graph} {m : Node} {again : LinkId} {w w' : Wired}
    (h : g.Reported m again w) (h' : w.Records w') : g.Reported m again w' := by
  obtain ⟨more, hgraph, hwiring⟩ := h'
  cases h with
  | extended new picked graph wiring =>
    exact .extended (new ++ more) picked (by simp [hgraph, graph]) (by simp [hwiring, wiring])
  | spliced l head tail new picked graph wiring =>
    exact .spliced l head tail (new ++ more) picked (by simp [hgraph, graph])
      (by simp [hwiring, wiring])
  | restored l new picked misfit graph wiring =>
    exact .restored l (new ++ more) picked misfit (by simp [hgraph, graph])
      (by simp [hwiring, wiring])

section AutoLink

variable {g : Graph} (hg : g.WellFormed) {m : Node} (hm : m ∈ g.nodes) {s : Supply}
  (hnew : ∀ l ∈ g.links, l.id ≠ s.takeLink.1 ∧ l.id ≠ s.takeLink.2.takeLink.1)
include hg hm hnew

/-- What a splice through free pins of the node comes to. -/
lemma splice_reported {p q : Pin} (hp : g.freePin? m.advertised.flowIn = some p.id)
    (hq : g.freePin? m.advertised.flowOut = some q.id) {l : Link}
    (hnear : g.nearestFlowLink? m.id m.position = some l) :
    g.Reported m s.takeLink.2.takeLink.2.takeLink.1
      ((Wired.mk g s .none).splice l p.id q.id) := by
  have hpicked : g.picked? m = some l := by rw [picked?, hp, hq, hnear]
  obtain ⟨hl, hflow, hfar⟩ := nearestFlowLink?_some hnear
  rcases splice_cases hg hl (w := ⟨g, s, .none⟩) rfl hnew p.id q.id with
    ⟨mid, done, hhead, htail, hgraph, hwiring⟩ | ⟨hgraph, hwiring⟩
  · obtain ⟨head, -, -, -, -, -, hheadId, -, -, rfl, -⟩ := link_spec hhead
    obtain ⟨tail, -, -, -, -, -, htailId, -, -, rfl, -⟩ := link_spec htail
    exact .spliced l head tail [] hpicked (by simp [hgraph, Graph.unlink])
      (by rw [hwiring]; simp [hheadId, htailId, Wiring.none])
  · refine .restored l [] hpicked (fun hfits => ?_) hgraph hwiring
    -- had the pins been fit for flow, there would be two halves
    obtain ⟨p', hp', hpid, hfree⟩ := freePin?_some hp
    obtain ⟨q', hq', hqid, -⟩ := freePin?_some hq
    rw [← hpid] at hfree
    obtain ⟨mid, hhead, rfl, htail⟩ := halves_accepted hg hm hl hflow hfar
      ⟨Node.mem_pins_of_flow (Or.inl hp'), hfits.entrance p' hp'⟩
      ⟨Node.mem_pins_of_flow (Or.inr hq'), hfits.exit q' hq'⟩ (fun k hk => (hfree k hk).2)
      s.takeLink.1 s.takeLink.2.takeLink.1
    have hhalved := Wired.splice_graph (w := ⟨g, s, .none⟩) hhead htail
    rw [hpid, hqid, hgraph] at hhalved
    simpa using congrArg (fun g => g.links.length) hhalved

/-- What the flow step comes to. -/
lemma linkFlow_reported : g.Reported m s.takeLink.2.takeLink.2.takeLink.1
    ((Wired.mk g s .none).linkFlow m.id m.position (g.freePin? m.advertised.flowIn)
      (g.freePin? m.advertised.flowOut)) := by
  have hattached : g.picked? m = none → ∀ flowIn flowOut,
      g.Reported m s.takeLink.2.takeLink.2.takeLink.1
        (((Wired.mk g s .none).attachIn m.id m.position flowIn).attachOut m.id m.position
          flowOut) := fun hpicked flowIn flowOut =>
    (Reported.extended (w := ⟨g, s, .none⟩) [] hpicked (by simp) rfl).records
      ((Wired.attachIn_records _ m.id m.position flowIn).trans
        (Wired.attachOut_records _ m.id m.position flowOut))
  cases hin : g.freePin? m.advertised.flowIn with
  | none => exact hattached (by rw [picked?, hin]) none (g.freePin? m.advertised.flowOut)
  | some i =>
    cases hout : g.freePin? m.advertised.flowOut with
    | none => exact hattached (by rw [picked?, hin, hout]) (some i) none
    | some o =>
      simp only [Wired.linkFlow]
      cases hnear : g.nearestFlowLink? m.id m.position with
      | none => exact hattached (by rw [picked?, hin, hout, hnear]) _ _
      | some l =>
        obtain ⟨p, -, rfl, -⟩ := freePin?_some hin
        obtain ⟨q, -, rfl, -⟩ := freePin?_some hout
        exact splice_reported hg hm hnew hin hout hnear

/-- **What wiring does and what it reports.** Links are added, a link is split, or a link is taken away
and put back. -/
theorem autoLink_reported : ∃ w, g.autoLink m.id s = .ok w ∧
    g.Reported m s.takeLink.2.takeLink.2.takeLink.1 w := by
  rw [autoLink, hg.node?_of_mem hm]
  exact ⟨_, rfl, ((linkFlow_reported hg hm hnew).records
    (Wired.foldl_records (Wired.linkInput_records m.id) _ _)).records
      (Wired.foldl_records (Wired.linkOutput_records m.id) _ _)⟩

end AutoLink

/-! ## Empty reports -/

/-- An empty report about a graph that is as it was, or about a link that has been put back. -/
lemma Reported.silent {g : Graph} {m : Node} {again : LinkId} {w : Wired}
    (h : g.Reported m again w) (hempty : w.wiring.isEmpty = true) :
    (g.picked? m = none ∧ w.graph = g) ∨ ∃ l, g.picked? m = some l ∧ ¬ m.AdvertisesFlow ∧
      w.graph = { g with links := (g.unlink l.id).links ++ [{ l with id := again }] } := by
  simp only [Wiring.isEmpty, Bool.and_eq_true, List.isEmpty_iff, Option.isNone_iff_eq_none]
    at hempty
  cases h with
  | extended new picked graph wiring =>
    obtain rfl : new = [] := by simpa [wiring] using hempty
    exact Or.inl ⟨picked, by simpa using graph⟩
  | spliced l head tail new picked graph wiring => simp [wiring] at hempty
  | restored l new picked misfit graph wiring =>
    obtain rfl : new = [] := by simpa [wiring] using hempty
    exact Or.inr ⟨l, picked, misfit, graph⟩

/-- An empty report about a built-in node is about a graph that is as it was. -/
theorem Reported.unchanged_of_builtin {g : Graph} {m : Node} {again : LinkId} {w : Wired}
    (h : g.Reported m again w) (hempty : w.wiring.isEmpty = true) (hm : m.body.isBuiltin = true) :
    w.graph = g := by
  rcases h.silent hempty with ⟨-, hsame⟩ | ⟨l, -, hmisfit, -⟩
  · exact hsame
  · exact absurd (Node.advertisesFlow_of_builtin hm) hmisfit

/-- **What an empty report means.** Wiring fails only for a node that is not there. If it reports nothing,
then nothing has changed unless a link has been picked for a splice. In that case the node advertises a
pin that flow cannot use, the splice has been refused, and the picked link has been put back with another
identity behind all others. The identities drawn have to be new to the graph. -/
theorem autoLink_silent_iff {g : Graph} (hg : g.WellFormed) {s : Supply}
    (hnew : ∀ l ∈ g.links, l.id ≠ s.takeLink.1 ∧ l.id ≠ s.takeLink.2.takeLink.1 ∧
      l.id ≠ s.takeLink.2.takeLink.2.takeLink.1) (n : NodeId) :
    (∀ e, g.autoLink n s = .error e ↔ n ∉ g.nodeIds ∧ e = .nodeNotFound n) ∧
    ∀ w, g.autoLink n s = .ok w → w.wiring.isEmpty = true → ∃ m ∈ g.nodes, m.id = n ∧
      (w.graph.links = g.links ↔ g.picked? m = none) ∧
      (g.picked? m = none → w.graph = g) ∧
      ∀ l, g.picked? m = some l → ¬ m.AdvertisesFlow ∧ w.graph = { g with
        links := (g.unlink l.id).links ++
          [{ l with id := s.takeLink.2.takeLink.2.takeLink.1 }] } := by
  have hdrawn := fun l hl => (⟨(hnew l hl).1, (hnew l hl).2.1⟩ : _ ∧ _)
  by_cases hn : n ∈ g.nodeIds
  · obtain ⟨m, hm, rfl⟩ := mem_nodeIds.mp hn
    obtain ⟨w, hw, hreported⟩ := autoLink_reported hg hm hdrawn
    refine ⟨fun e => by simp [hw, hn], fun w' hw' hempty => ⟨m, hm, rfl, ?_⟩⟩
    obtain rfl := Except.ok.inj (hw.symm.trans hw')
    rcases hreported.silent hempty with ⟨hpicked, hsame⟩ | ⟨l, hpicked, hmisfit, hrestored⟩
    · exact ⟨by simp [hpicked, hsame], fun _ => hsame, by simp [hpicked]⟩
    · refine ⟨?_, by simp [hpicked], fun k hk => ?_⟩
      · -- the identity of the restored link has not been there before
        simp only [hpicked, reduceCtorEq, iff_false]
        intro hlinks
        have hmem : { l with id := s.takeLink.2.takeLink.2.takeLink.1 } ∈ g.links := by
          rw [← hlinks, hrestored]
          simp
        exact (hnew _ hmem).2.2 rfl
      · obtain rfl := Option.some.inj (hpicked.symm.trans hk)
        exact ⟨hmisfit, hrestored⟩
  · have hnone : g.node? n = none := by
      cases hnode : g.node? n with
      | none => rfl
      | some m => exact absurd (mem_nodeIds.mpr ⟨m, node?_some hnode⟩) hn
    have hrefused : g.autoLink n s = .error (.nodeNotFound n) := by rw [autoLink, hnone]
    refine ⟨fun e => ?_, fun w hw => ?_⟩
    · rw [hrefused, Except.error.injEq, eq_comm, and_iff_right hn]
    · rw [hrefused] at hw
      cases hw

/-! ## A refused splice after which flow goes elsewhere -/

/-- The node that advertises its data pin stands near the first of two links that leave the start
node. -/
def misadvertisedFan : Graph :=
  let nodes := misadvertised.nodes ++
    [{ exampleNode 4 (.finish ⟨⟨Uuid.ofNat 41⟩, ⟨Uuid.ofNat 42⟩⟩) with position := ⟨100, 0⟩ }]
  { name := "misadvertised fan", nodes, owners := indexOf nodes
    links := misadvertised.links ++ [exampleLink 62 1 11 4 41 true] }

theorem misadvertisedFan_wellFormed : misadvertisedFan.WellFormed := by
  refine wellFormed_of_indexOf rfl (by decide) (by decide) (fun l hl => ?_) (by decide)
  simp only [misadvertisedFan, misadvertised, List.cons_append, List.nil_append, List.mem_cons,
    List.not_mem_nil, or_false] at hl
  rcases hl with rfl | rfl
  · exact joins_of_getElem? (i := 0) (j := 1) (k := 0) (m := 0) rfl rfl rfl rfl rfl (by decide) rfl
  · exact joins_of_getElem? (i := 0) (j := 3) (k := 0) (m := 0) rfl rfl rfl rfl rfl (by decide) rfl

/-- What wiring comes to, read off a computation. -/
lemma exists_wired {α : Type} {g : Graph} {n : NodeId} {s : Supply} {f : Wired → α} {a : α}
    (h : (g.autoLink n s).toOption.map f = some a) : ∃ w, g.autoLink n s = .ok w ∧ f w = a := by
  cases hw : g.autoLink n s with
  | error e => simp [hw, Except.toOption] at h
  | ok w => exact ⟨w, rfl, by simpa [hw, Except.toOption] using h⟩

/-- Nothing is reported, but the first of the two links has another identity and comes last now, and flow
goes where the second one leads. -/
theorem misadvertisedFan_silent : misadvertisedFan.WellFormed ∧ ∃ w,
    misadvertisedFan.autoLink ⟨Uuid.ofNat 3⟩ (.countingFrom 100) = .ok w ∧
      w.wiring.isEmpty = true ∧
      misadvertisedFan.links = [exampleLink 61 1 11 2 21 true, exampleLink 62 1 11 4 41 true] ∧
      w.graph.links = [exampleLink 62 1 11 4 41 true,
        { exampleLink 61 1 11 2 21 true with id := ⟨Supply.randomKind 102⟩ }] ∧
      misadvertisedFan.follow ⟨Uuid.ofNat 1⟩ ⟨Uuid.ofNat 11⟩ =
        .ok (some (⟨Uuid.ofNat 2⟩, ⟨Uuid.ofNat 21⟩)) ∧
      w.graph.follow ⟨Uuid.ofNat 1⟩ ⟨Uuid.ofNat 11⟩ =
        .ok (some (⟨Uuid.ofNat 4⟩, ⟨Uuid.ofNat 41⟩)) := by
  obtain ⟨w, hw, heq⟩ := exists_wired (g := misadvertisedFan) (n := ⟨Uuid.ofNat 3⟩)
    (s := .countingFrom 100)
    (f := fun w => (w.wiring, w.graph.links, w.graph.follow ⟨Uuid.ofNat 1⟩ ⟨Uuid.ofNat 11⟩))
    (a := (.none, [exampleLink 62 1 11 4 41 true,
        { exampleLink 61 1 11 2 21 true with id := ⟨Supply.randomKind 102⟩ }],
      .ok (some (⟨Uuid.ofNat 4⟩, ⟨Uuid.ofNat 41⟩)))) (by decide +kernel)
  simp only [Prod.mk.injEq] at heq
  obtain ⟨hwiring, hlinks, hfollow⟩ := heq
  exact ⟨misadvertisedFan_wellFormed, w, hw, by rw [hwiring]; rfl, rfl, hlinks, by decide +kernel,
    hfollow⟩

/-- An empty report about the misadvertised node is about a link that has been put back, and one about
the start node, whose pin is taken, is about a graph that is as it was. -/
theorem misadvertisedFan_restored : ∃ w w',
    misadvertisedFan.autoLink ⟨Uuid.ofNat 3⟩ (.countingFrom 100) = .ok w ∧
      w.wiring.isEmpty = true ∧ w.graph.links ≠ misadvertisedFan.links ∧
      misadvertisedFan.autoLink ⟨Uuid.ofNat 1⟩ (.countingFrom 100) = .ok w' ∧
      w'.wiring.isEmpty = true ∧ w'.graph = misadvertisedFan := by
  obtain ⟨w, hw, hempty⟩ := exists_wired (g := misadvertisedFan) (n := ⟨Uuid.ofNat 3⟩)
    (s := .countingFrom 100) (f := fun w => w.wiring.isEmpty) (a := true) (by decide +kernel)
  obtain ⟨w', hw', hempty'⟩ := exists_wired (g := misadvertisedFan) (n := ⟨Uuid.ofNat 1⟩)
    (s := .countingFrom 100) (f := fun w => w.wiring.isEmpty) (a := true) (by decide +kernel)
  have hsilent := autoLink_silent_iff misadvertisedFan_wellFormed (s := .countingFrom 100)
    (by decide)
  have hpicked : ∀ m ∈ misadvertisedFan.nodes,
      (m.id = ⟨Uuid.ofNat 3⟩ → misadvertisedFan.picked? m ≠ none) ∧
      (m.id = ⟨Uuid.ofNat 1⟩ → misadvertisedFan.picked? m = none) := by decide +kernel
  obtain ⟨m, hm, hid, hlinks, -⟩ := (hsilent _).2 w hw hempty
  obtain ⟨m', hm', hid', -, hsame, -⟩ := (hsilent _).2 w' hw' hempty'
  exact ⟨w, w', hw, hempty, mt hlinks.mp ((hpicked m hm).1 hid), hw', hempty',
    hsame ((hpicked m' hm').2 hid')⟩

end Graph

end Patchbay
