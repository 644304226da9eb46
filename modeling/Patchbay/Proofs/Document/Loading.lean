import Patchbay.Document.GraphDocument
import Patchbay.Proofs.Graph.Wiring

/-!
# Reading documents is made of edits

Reading is lenient: an entry that cannot be restored is left out with a warning, and what was read
before it stays. So an invariant has to hold after every entry, whatever becomes of it. What edits keep
(`Graph.KeptByEdits`) does: a new node brings pins that were drawn for it, and a document reaches no more
than its settings; a link goes through the same checks as any other. So merging keeps it, too
(`Graph.merge_kept`), and the graph read so far is healthy with the supply that is left.
-/

namespace Patchbay

theorem Catalog.registry_of_find? {c : Catalog} {name : String} {t : NodeType}
    (h : c.find? name = some t) : c.registry name = some t.factory := by
  rw [registry, h, Option.map_some]

namespace Loading

/-- It holds of the graph that has been read and of the supply that is left. -/
def Upholds (P : Graph → Supply → Prop) (st : Loading) : Prop := P st.graph st.supply

variable {P : Graph → Supply → Prop} {c : Catalog} (hP : Graph.KeptByEdits c P)
include hP

/-- A node comes in, or is rejected, that `s` gave the pins to. -/
theorem addNode_kept (st : Loading) {s : Supply} (h : P st.graph s) {name : String} {id : NodeId}
    {m m' : Node} (hcreate : c.create? name id s = some (m, st.supply)) (hassigned : m.Assigned m')
    (index : Nat) (typeName : String) (written : NodeId) (isRepeat : Bool) :
    (st.addNode index typeName written isRepeat m').Upholds P := by
  simp only [addNode]
  split
  · exact hP.drawn hcreate h
  · rename_i hadd
    split
    · exact hP.create hcreate hassigned hadd h
    · exact hP.create hcreate hassigned hadd h

variable {st : Loading} (h : st.Upholds P)
include h

/-- Choosing the identity of a node takes one identity from the supply or none. -/
theorem identityFor_kept (written : NodeId) (isRepeat : Bool) :
    P st.graph (st.identityFor written isRepeat).2 := by
  rw [identityFor]
  split
  · exact hP.skip 1 h
  · exact h

theorem restoreNodeBy_kept (index : Nat) (fields : Fields) (typeName : String) (written : NodeId) :
    (restoreNodeBy c.registry st index fields typeName written).Upholds P := by
  simp only [restoreNodeBy]
  -- from here on it does not matter whether a warning has been given
  have hwarned : (if st.loaded.has written then st.warn (.duplicateNode index written)
      else st).Upholds P := by
    split <;> exact h
  generalize (if st.loaded.has written then st.warn (.duplicateNode index written)
    else st) = st' at hwarned ⊢
  have hchosen := identityFor_kept hP hwarned written (st.loaded.has written)
  set chosen := st'.identityFor written (st.loaded.has written)
  split
  · exact hchosen
  · rename_i factory hfactory
    obtain ⟨t, hfind, rfl⟩ := Option.map_eq_some_iff.mp hfactory
    have hcreate := Catalog.create?_of_find? hfind chosen.1 chosen.2
    split
    · exact hP.drawn hcreate hchosen
    · rename_i restored warnings hload
      exact addNode_kept hP ⟨st'.graph, _, st'.loaded, st'.report.warn warnings⟩ hchosen hcreate
        (Node.assigned_load hload) index typeName written _

theorem loadNode_kept (entry : Json × Nat) : (loadNode c st entry).Upholds P := by
  obtain ⟨j, index⟩ := entry
  simp only [loadNode, loadNodeBy]
  split
  · exact h
  · split
    · exact h
    · split
      · exact h
      · rename_i hentry
        refine restoreNodeBy_kept hP ?_ index _ _ _
        rw [entryId] at hentry
        split at hentry
        · cases hentry
          exact h
        · cases hentry
        · cases hentry
          exact hP.skip 1 h

theorem loadLink_kept (entry : Json × Nat) : (loadLink st entry).Upholds P := by
  obtain ⟨j, index⟩ := entry
  simp only [loadLink]
  split
  · exact h
  · split
    · exact h
    · split
      · exact h
      · rename_i hlink
        exact hP.link hlink (hP.skip 1 h)

omit hP in
/-- A list of entries is read one by one. -/
theorem foldl_kept {step : Loading → Json × Nat → Loading}
    (hstep : ∀ st : Loading, st.Upholds P → ∀ entry, (step st entry).Upholds P)
    (entries : List (Json × Nat)) : (entries.foldl step st).Upholds P :=
  List.foldlRecOn entries step h fun st hst entry _ => hstep st hst entry

end Loading

namespace Graph

/-- **Merging a document** into a graph keeps what edits keep. -/
theorem merge_kept {P : Graph → Supply → Prop} {c : Catalog} (hP : KeptByEdits c P) {g : Graph}
    {s : Supply} (h : P g s) {doc : Json} {st : Loading} (hmerge : g.merge c s doc = .ok st) :
    st.Upholds P := by
  simp only [merge, mergeBy] at hmerge
  split at hmerge
  · cases hmerge
  · split at hmerge
    · cases hmerge
    · obtain rfl := Except.ok.inj hmerge
      have hstart : ∀ report, (Loading.mk g s [] report).Upholds P := fun _ => h
      refine Loading.foldl_kept ?_ (fun st hst => Loading.loadLink_kept hP hst) _
      exact Loading.foldl_kept (hstart _) (fun st hst => Loading.loadNode_kept hP hst)
        (Loading.entries _ "nodes").1

/-- A text that can be read is that of a document. -/
theorem load_of_loadText {c : Catalog} {s : Supply} {text : Option String} {st : Loading}
    (h : loadText c s text = .ok st) : ∃ doc, load c s doc = .ok st := by
  simp only [loadText] at h
  split at h
  · cases h
  · split at h
    · cases h
    · exact ⟨_, h⟩

end Graph

namespace Loading

/-- What has been read is healthy with the supply that is left. -/
def Healthy (n : Nat) (st : Loading) : Prop := st.graph.Healthy n st.supply

/-- Reading one entry keeps the graph healthy. -/
theorem loadNode_healthy {n : Nat} {st : Loading} (h : st.Healthy n) (c : Catalog)
    (entry : Json × Nat) : (loadNode c st entry).Healthy n :=
  loadNode_kept (Graph.healthy_keptByEdits n c) h entry

end Loading

namespace Graph

/-- Merging a document into a graph keeps it healthy. -/
theorem merge_healthy {n : Nat} {g : Graph} {s : Supply} (h : g.Healthy n s) {c : Catalog}
    {doc : Json} {st : Loading} (hmerge : g.merge c s doc = .ok st) : st.Healthy n :=
  merge_kept (healthy_keptByEdits n c) h hmerge

end Graph

end Patchbay
