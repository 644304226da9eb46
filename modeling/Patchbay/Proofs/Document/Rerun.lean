import Patchbay.Proofs.Document.Keeping
import Patchbay.Proofs.Run.Agreement

/-!
# A graph that was saved runs the same

What a graph does when it is run is in its document. **`Graph.load_save_agree`** says that a graph of
built-in nodes with finite settings is read back from its document as a graph that runs alike, from every
node and in every mode, each of the two in a state of its own.

Three facts carry this. Where nodes stand does not matter to a run, so the graph may be taken as it comes
back (`Graph.kept`). What is read back is a copy, with links in their order, and a copy in which the nodes
keep their identities differs by a renaming of pins. And graphs that differ so run alike.
-/

namespace Patchbay

namespace Graph

/-- Where nodes stand is not part of what renamings speak of. -/
theorem Renamed.of_kept {σ : Equiv.Perm PinId} {g g' : Graph}
    (hstorable : ∀ n ∈ g.nodes, n.body.Storable) (h : Graph.Renamed σ g.kept g') :
    Graph.Renamed σ g g' where
  nodes := by
    have hnodes : g.kept.nodes = g.nodes.map fun n => { n with position := n.position.kept } :=
      List.map_congr_left fun n hn => by rw [Node.kept, Body.kept_eq_self (hstorable n hn)]
    have hrenamed := h.nodes
    rw [hnodes, List.forall₂_map_left_iff] at hrenamed
    exact hrenamed.imp fun _ _ hab => ⟨hab.id, hab.name, hab.enabled, hab.body⟩
  links := h.links
  owner? := h.owner?

section Reading

variable {g : Graph} (hg : g.WellFormed) (hb : g.IsBuiltin) {c : Catalog} (hc : c.HasBuiltins)
  {s : Supply} (hs : ∀ i j, s.next ≤ i → i < j → j < s.next + g.pins.length → s.draw i ≠ s.draw j)
include hg hb hc hs

/-- **A graph is read back with its pins renamed**, wherever its nodes stand. -/
theorem load_save_renamed (hstorable : ∀ n ∈ g.nodes, n.body.Storable) :
    ∃ st σ, Graph.load c s (g.save []) = .ok st ∧ st.graph.WellFormed ∧
      Graph.Renamed σ g st.graph := by
  have hinj : Set.InjOn (Remap.resolve []) {n | n ∈ g.nodeIds} := fun _ _ _ _ h => h
  obtain ⟨st, ps, ks, hload, hcopy, hids, -⟩ := load_save_beside hg hb hc hs
    (fun n hn => (Body.storable_iff.mp (hstorable n hn)).1) hinj
  obtain ⟨σ, hσ⟩ := hcopy.renamed rfl rfl (kept_isBuiltin hb) hids
  exact ⟨st, σ, hload, hcopy.wellFormed', hσ.of_kept hstorable⟩

/-- **Saving and reading back preserves runs**: a graph of built-in nodes with finite settings, saved and
read back, runs like before. The two runs need not share a state, as long as nothing has run in either
and the unlinked inputs are as they were made. They fail alike, or have the same report, and the end nodes
that were executed hold the same frame. -/
theorem load_save_agree (hstorable : ∀ n ∈ g.nodes, n.body.Storable) :
    ∃ st, Graph.load c s (g.save []) = .ok st ∧
      ∀ u u', g.Pristine u → st.graph.Pristine u' → u'.stopped = u.stopped → ∀ mode,
        Agree g st.graph (g.run mode u) (st.graph.run mode u') ∧
          ∀ start, Agree g st.graph (g.runFrom mode start u) (st.graph.runFrom mode start u') := by
  obtain ⟨st, σ, hload, hwf, hσ⟩ := load_save_renamed hg hb hc hs hstorable
  exact ⟨st, hload, fun u u' hu hu' hstopped mode =>
    ⟨hσ.run_agree hg hb hwf hu hu' hstopped mode, hσ.runFrom_agree hg hb hwf hu hu' hstopped mode⟩⟩

end Reading

/-- The example, read back from its document, completes along the same nodes and leaves the same frame
at its end. -/
theorem pullAhead_load_save_agree : ∃ st,
    Graph.load .builtin (.countingFrom 100) (pullAhead.save []) = .ok st ∧
      (st.graph.run ⟨false, true⟩ (.initial .empty)).1.map (fun r => (r.status, r.path)) =
        .ok (.completed, [⟨.ofNat 1⟩, ⟨.ofNat 2⟩, ⟨.ofNat 3⟩, ⟨.ofNat 4⟩]) ∧
      ∃ n ∈ st.graph.nodes, ∃ pins, n.id = ⟨.ofNat 4⟩ ∧ n.body = .finish pins ∧
        (st.graph.run ⟨false, true⟩ (.initial .empty)).2.memory.value pins.framePin =
          (pullAhead.run ⟨false, true⟩ (.initial .empty)).2.memory.value
            (FinishPins.framePin ⟨⟨.ofNat 41⟩, ⟨.ofNat 42⟩⟩) := by
  have hstorable : ∀ n ∈ pullAhead.nodes, n.body.Storable := by
    intro n hn
    simp only [pullAhead, List.mem_cons, List.not_mem_nil, or_false] at hn
    rcases hn with rfl | rfl | rfl | rfl | rfl
    case inr.inr.inr.inr => exact (by decide +kernel : (1 : Float32).isFinite = true)
    all_goals trivial
  have hbuiltins : Catalog.builtin.HasBuiltins := fun b => by cases b <;> rfl
  have hpins : pullAhead.pins.length = 16 := by decide
  obtain ⟨st, hload, hagree⟩ := load_save_agree pullAhead_wellFormed pullAhead_isBuiltin hbuiltins
    (s := .countingFrom 100) (fun i j _ hij hj => Supply.countingFrom_distinct hij (by
      have hnext : (Supply.countingFrom 100).next = 0 := rfl
      rw [hpins, hnext] at hj
      show 100 + j < 2 ^ 122
      omega)) hstorable
  obtain ⟨⟨houtcome, hfinish⟩, -⟩ := hagree (.initial .empty) (.initial .empty)
    pullAhead.pristine_initial st.graph.pristine_initial rfl ⟨false, true⟩
  obtain ⟨n, hn, pins, hid, hbody, -, hframe⟩ :=
    hfinish (exampleNode 4 (.finish ⟨⟨.ofNat 41⟩, ⟨.ofNat 42⟩⟩)) (by simp [pullAhead]) _ rfl
      (by decide +kernel)
  refine ⟨st, hload, ?_, n, hn, pins, hid, hbody, hframe⟩
  rw [houtcome]
  decide +kernel

end Graph

end Patchbay
