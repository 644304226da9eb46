import Patchbay.Proofs.Graph.Additions

/-!
# What wiring leaves behind

A run of wiring leaves nothing to be done for the node (`Graph.WiredUp`), and this has two sides. Whatever data
pin is still free has no candidate, and one that is not has been joined to a nearest one
(**`Graph.autoLink_matches`**). And the next run does nothing (**`Graph.autoLink_again`**), because a node that is
wired up is left as it is (`Graph.WiredUp.autoLink_eq`).

The second run finds other flow neighbours than the first one, and fewer free pins, and it may take another
course. That need not be followed: what it would do is what `Graph.WiredUp` rules out step by step.
-/

namespace Patchbay

namespace Graph

variable {g : Graph} {d : Direction} {m b : Node} {p o : Pin} {s : Supply}

/-! ## Nearest matches -/

/-- A data pin that has been free and is not any more was joined to a candidate, and none was nearer. -/
lemma Added.matched {x : Recorded} {new : List Link} (h : g.Added m s x new) (hg : g.WellFormed)
    (hwell : ∀ a ∈ g.nodes, a.AdvertisesWell) (hm : m ∈ g.nodes) (hp : p ∈ m.preferredData d)
    (hfree : g.isLinked p.id = false) (hlinked : x.graph.isLinked p.id = true) :
    ∃ before l after k b o, new = before ++ l :: after ∧ l = .between d l.id m b p o ∧
      (g.rewired (g.picked? m) before).Candidate d m p k b o ∧
      ∀ j b' o', (g.rewired (g.picked? m) before).Candidate d m p j b' o' → k ≤ j := by
  have hown := Node.mem_pins_of_preferredData hp
  rw [h.graph, isLinked_rewired hg hm hown, hfree, Bool.false_or, List.any_eq_true] at hlinked
  obtain ⟨l, hl, htouch⟩ := hlinked
  obtain ⟨before, after, rfl⟩ := List.append_of_mem hl
  obtain ⟨e, b, q, o, hextends, hdata⟩ := (h.wires before l after rfl).1.extends hwell hm
  obtain rfl := (hextends.involvesPin_iff hg hm hextends.mem hown).mp htouch
  obtain ⟨hdirection, hcarries⟩ := (hwell m hm).data d p hp
  obtain ⟨hpref, k, hc, hnearest⟩ := hdata (by rw [hextends.eq, Link.between_flow, hcarries])
  obtain rfl : e = d := ((hwell m hm).data e p hpref).1.symm.trans hdirection
  exact ⟨before, l, after, k, b, o, rfl, hextends.eq, hc, hnearest⟩

/-- **Data pins are matched with what is nearest, and as far as there is anything.** A data pin that gets
linked is linked to a candidate, and when the graph was asked for the link, no candidate was nearer. One
that stays free has no candidate in the end. -/
theorem autoLink_matches (hg : g.WellFormed) (hids : (g.links.map Link.id).Nodup)
    (hwell : ∀ a ∈ g.nodes, a.AdvertisesWell) (hm : m ∈ g.nodes) (s : Supply) :
    ∃ x, g.autoLinkRecorded m.id s = .ok x ∧ g.autoLink m.id s = .ok x.toWired ∧
      ∀ d, ∀ p ∈ m.preferredData d, g.isLinked p.id = false →
        (x.graph.isLinked p.id = true → ∃ before l after k b o,
          x.graph.links = before ++ l :: after ∧ l = .between d l.id m b p o ∧
          ⟨{ g with links := before }, l.fromPin, l.toPin⟩ ∈ x.requests ∧
          Candidate { g with links := before } d m p k b o ∧
          ∀ j b' o', Candidate { g with links := before } d m p j b' o' → k ≤ j) ∧
        (x.graph.isLinked p.id = false → ∀ k b o, ¬ x.graph.Candidate d m p k b o) := by
  obtain ⟨x, new, h⟩ := autoLink_added hg hids hwell hm s
  refine ⟨x, h.run, h.toWired, fun d p hp hfree => ⟨fun hlinked => ?_, fun hleft => ?_⟩⟩
  · obtain ⟨before, l, after, k, b, o, rfl, heq, hc, hnearest⟩ := h.matched hg hwell hm hp hfree hlinked
    refine ⟨g.linksWithout (g.picked? m) ++ before, l, after, k, b, o, ?_, heq,
      (h.wires before l after rfl).2, hc, hnearest⟩
    rw [h.graph, rewired, List.append_assoc]
  · exact (h.wiredUp.data d p hp).resolve_left (by simp [hleft])

/-- Of two transitions without links, the one that is wired takes its first picture from the other one.
There is nothing left that its second picture could be taken from. -/
theorem sideBySide_matches : ∃ m ∈ sideBySide.nodes, ∃ (x : Recorded) (p q : Pin),
    sideBySide.autoLink m.id (.countingFrom 0) = .ok x.toWired ∧ m.preferredData .input = [p, q] ∧
      (∃ links k b o, Candidate { sideBySide with links } .input m p k b o ∧
        x.graph.isLinked o.id = true) ∧
      ∀ k b o, ¬ x.graph.Candidate .input m q k b o := by
  obtain ⟨x, -, hw, hmatches⟩ := autoLink_matches sideBySide_wellFormed (by decide)
    (fun a ha => Node.advertisesWell_of_builtin (sideBySide_isBuiltin a ha))
    (m := exampleNode 2 (.transition (examplePins 20) .standard)) (by simp [sideBySide])
    (.countingFrom 0)
  obtain ⟨w, hw', hlinked⟩ := exists_wired (g := sideBySide) (n := ⟨Uuid.ofNat 2⟩)
    (s := .countingFrom 0)
    (f := fun w => (w.graph.isLinked ⟨Uuid.ofNat 21⟩, w.graph.isLinked ⟨Uuid.ofNat 22⟩))
    (a := (true, false)) (by decide +kernel)
  obtain rfl := Except.ok.inj (hw'.symm.trans hw)
  obtain ⟨hfirst, hsecond⟩ := Prod.mk.inj hlinked
  obtain ⟨before, l, after, k, b, o, hlinks, heq, -, hc, -⟩ :=
    (hmatches .input (examplePins 20).firstPin List.mem_cons_self rfl).1 hfirst
  refine ⟨_, by simp [sideBySide], x, (examplePins 20).firstPin, (examplePins 20).secondPin, hw, rfl,
    ⟨before, k, b, o, hc, ?_⟩, (hmatches .input (examplePins 20).secondPin (by decide) rfl).2 hsecond⟩
  refine isLinked_iff.mpr ⟨l, by simp [hlinks], ?_⟩
  rw [heq]
  exact Link.involvesPin_between.mpr (.inr rfl)

/-! ## Nothing left to be done -/

/-- Nothing is attached on a side that is settled. -/
lemma Recorded.Attached.eq_of_settled {x y : Recorded} (h : Recorded.Attached d m x y)
    (hx : x.graph.FlowSettled d m) : y = x := by
  cases h with
  | settled => rfl
  | joined b p o link =>
    rcases hx p link.preferred with hlinked | hnone
    · rw [link.free] at hlinked
      cases hlinked
    · have hother := link.other
      rw [hnone] at hother
      cases hother

namespace WiredUp

variable (h : g.WiredUp m) (hg : g.WellFormed) (hwell : ∀ a ∈ g.nodes, a.AdvertisesWell)
  (hm : m ∈ g.nodes)
include h hg hwell hm

lemma flowWired_eq (s : Supply) : g.flowWired m s = g.opened none s := by
  have hstage := flowStage hg (fun a ha => (hwell a ha).toAdvertisesFlow) hm s
  generalize g.flowWired m s = x at hstage
  cases hstage with
  | spliced l a b p q r t picked splices => exact absurd splices h.unfit
  | attached y _ picked unfit entrance exit =>
    obtain rfl := entrance.eq_of_settled (h.flow .input)
    exact exit.eq_of_settled (h.flow .output)

/-- A data pin that is settled and free has no candidate. -/
lemma foldl_linkData_eq (s : Supply) (d : Direction) :
    (g.freeData (m.preferredData d)).foldl (Recorded.linkData m.id d) (g.opened none s) =
      g.opened none s := by
  rw [freeData_preferred]
  refine List.foldlRecOn _ _ (motive := fun x => x = g.opened none s) rfl fun x hx i hi => ?_
  obtain ⟨p, hp, rfl⟩ := List.mem_map.mp hi
  obtain ⟨hpref, hfree⟩ := (mem_freePins (hwell m hm)).mp hp
  rw [hx]
  rcases Recorded.linkData_cases (x := g.opened none s) hg hwell hm hpref hfree with
    ⟨hsame, -⟩ | ⟨k, b, o, -, hc, -⟩
  · exact hsame
  · exact absurd hc ((h.data d p hpref).resolve_left (by simp [hfree]) k b o)

/-- **A node that is wired up is left as it is**, and nothing is reported. -/
theorem autoLink_eq (s : Supply) : g.autoLink m.id s = .ok ⟨g, s, .none⟩ := by
  rw [← autoLinkRecorded_toWired, autoLinkRecorded_eq hg hm, h.flowWired_eq hg hwell hm,
    h.foldl_linkData_eq hg hwell hm, h.foldl_linkData_eq hg hwell hm]
  rfl

end WiredUp

/-- **Wiring a node once more does nothing**: the second report is empty, the graph stays as the first run
has left it, and no identity is drawn. -/
theorem autoLink_again (hg : g.WellFormed) (hids : (g.links.map Link.id).Nodup)
    (hwell : ∀ a ∈ g.nodes, a.AdvertisesWell) (hm : m ∈ g.nodes) (s : Supply) :
    ∃ w, g.autoLink m.id s = .ok w ∧
      ∀ s', w.graph.autoLink m.id s' = .ok ⟨w.graph, s', .none⟩ := by
  obtain ⟨x, new, h⟩ := autoLink_added hg hids hwell hm s
  have hx := autoLink_kept wellFormed_keptByWiring hg h.toWired
  have hnodes : x.graph.nodes = g.nodes := by
    rw [h.graph]
    rfl
  exact ⟨x.toWired, h.toWired, h.wiredUp.autoLink_eq hx (hnodes ▸ hwell) (hnodes ▸ hm)⟩

/-- The transition that has been spliced into the first of two links is not spliced into the second one. -/
theorem fannedOut_again : ∃ m ∈ fannedOut.nodes, ∃ w,
    fannedOut.autoLink m.id (.countingFrom 0) = .ok w ∧
      w.wiring.removed = some (exampleLink 61 1 11 2 21 true) ∧
      w.graph.autoLink m.id (.countingFrom 0) = .ok ⟨w.graph, .countingFrom 0, .none⟩ := by
  obtain ⟨m, hm, hid⟩ := mem_nodeIds.mp (show ⟨Uuid.ofNat 4⟩ ∈ fannedOut.nodeIds by decide)
  obtain ⟨w, hw, hagain⟩ := autoLink_again fannedOut_wellFormed (by decide)
    (fun a ha => Node.advertisesWell_of_builtin (fannedOut_isBuiltin a ha)) hm (.countingFrom 0)
  obtain ⟨w', hw', hremoved⟩ := exists_of_removed (g := fannedOut) (n := ⟨Uuid.ofNat 4⟩)
    (s := .countingFrom 0) (l := exampleLink 61 1 11 2 21 true) (by decide +kernel)
  obtain rfl := Except.ok.inj (hw'.symm.trans (hid ▸ hw))
  exact ⟨m, hm, w', hw, hremoved, hagain _⟩

end Graph

end Patchbay
