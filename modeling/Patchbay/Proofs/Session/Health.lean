import Patchbay.Proofs.Action
import Patchbay.Proofs.Document.Loading
import Patchbay.Session

/-!
# What edits of a session keep

What edits of a graph keep (`Graph.KeptByEdits`), the edits of a session keep of its graph and its supply,
whether they fail or not: what an edit does to the graph is one of those edits, and what follows it, on the
answer of the observer, is automatic wiring or a run, which does not touch the graph at all.

A session is healthy if its graph is, with the supply of the session. Health is kept so.
-/

namespace Patchbay

open Patchbay.Action

namespace Session

/-- It holds of the graph of the session and of its supply, and the session makes its nodes by the catalog
`c`. -/
structure Upholds (c : Catalog) (P : Graph → Supply → Prop) (s : Session) : Prop where
  catalog : s.catalog = c
  kept : P s.graph s.supply

/-- The graph of the session is healthy with its supply. -/
def Healthy (n : Nat) (s : Session) : Prop := s.graph.Healthy n s.supply

variable {c : Catalog} {P : Graph → Supply → Prop} (hP : Graph.KeptByEdits c P)

/-! ## After an edit -/

section Telling

variable {s : Session} (hs : s.Upholds c P)
include hP hs

theorem wire_upholds (m : NodeId) : (s.wire m).2.Upholds c P := by
  rw [wire]
  split
  · rename_i hw
    exact ⟨hs.catalog, Graph.autoLink_kept hP.toKeptByWiring hs.kept hw⟩
  · exact hs

theorem tell_upholds (notice : Notice) : (s.tell notice).2.Upholds c P := by
  set told := if s.observer.isSome then { s with notices := s.notices ++ [notice] } else s
    with htold
  have ht : told.Upholds c P := by
    rw [htold]
    split
    · exact ⟨hs.catalog, hs.kept⟩
    · exact hs
  have hwired := wire_upholds hP ht notice.node
  simp only [tell, ← htold]
  split
  · exact ht
  · split
    all_goals
      rename_i heq
      rw [heq] at hwired
      exact hwired
  · -- a run leaves the graph and the supply alone
    split
    all_goals
      rename_i heq
      have hran : told.runGraph.2.Upholds c P := ⟨ht.catalog, ht.kept⟩
      rw [heq] at hran
      exact hran

end Telling

include hP

theorem announce_keeps (kind : ChangeKind) (m : NodeId) : Keeps (Upholds c P) (announce kind m) :=
  Keeps.get_bind fun _ hs => tell_upholds hP hs _

/-! ## Edits -/

theorem addNode_keeps (kind : ChangeKind) (typeName : String) (position : Point) :
    Keeps (Upholds c P) (addNode kind typeName position) := by
  refine Keeps.get_bind fun s hs => ?_
  simp only
  split
  · exact hs
  · rename_i node supply hcreate
    rw [hs.catalog] at hcreate
    split
    · exact hs
    · rename_i graph hadd
      have hcame : P graph supply := hP.create hcreate (node.assigned_refl.apply _) hadd
        (hP.skip 1 hs.kept)
      exact Keeps.set_bind (Keeps.bind (announce_keeps hP _ _) fun _ => Keeps.pure _)
        ⟨hs.catalog, hcame⟩

theorem deleteNode_keeps (m : NodeId) : Keeps (Upholds c P) (deleteNode m) := by
  refine Keeps.get_bind fun s hs => ?_
  split
  · exact hs
  · rename_i node graph htake
    obtain ⟨-, rfl⟩ := Graph.takeNode?_some htake
    have hremoved : (s.withoutNode m).Upholds c P := ⟨hs.catalog, hP.removeNode m hs.kept⟩
    exact tell_upholds hP hremoved _

theorem link_keeps (source target : PinId) : Keeps (Upholds c P) (link source target) := by
  refine Keeps.get_bind fun s hs => ?_
  simp only
  split
  · exact hs
  · rename_i graph hlink
    have hlinked : P graph s.supply.takeLink.2 := hP.link hlink (hP.skip 1 hs.kept)
    split
    · exact Keeps.set_bind (Keeps.bind (announce_keeps hP _ _) fun _ => Keeps.pure _)
        ⟨hs.catalog, hlinked⟩
    · exact ⟨hs.catalog, hlinked⟩

omit hP in
/-- Looking up a pin changes nothing. -/
theorem namedPin_keeps {I : Session → Prop} (m : NodeId) (name : String) (direction : Direction) :
    Keeps I (namedPin m name direction) := by
  refine Keeps.get_bind fun s hs => ?_
  split
  · exact hs
  · split <;> exact hs

theorem linkByName_keeps (source target : NodeId × String) :
    Keeps (Upholds c P) (linkByName source target) :=
  Keeps.bind (namedPin_keeps _ _ _) fun _ => Keeps.bind (namedPin_keeps _ _ _) fun _ =>
    link_keeps hP _ _

theorem unlink_keeps (l : LinkId) : Keeps (Upholds c P) (unlink l) := by
  refine Keeps.get_bind fun s hs => ?_
  split
  · exact hs
  · exact Keeps.set_bind (announce_keeps hP _ _) ⟨hs.catalog, hP.unlink l hs.kept⟩

theorem setInput_keeps (m : NodeId) (name : String) (value : Value) :
    Keeps (Upholds c P) (setInput m name value) :=
  Keeps.bind (namedPin_keeps _ _ _) fun _ =>
    Keeps.bind (fun _ hs => ⟨hs.catalog, hs.kept⟩) fun _ => announce_keeps hP _ _

theorem change_keeps (kind : ChangeKind) (expected : NodeClass) (m : NodeId)
    (changes : List NodeChange) : Keeps (Upholds c P) (change kind expected m changes) := by
  refine Keeps.get_bind fun s hs => ?_
  split
  · exact hs
  · split
    · exact Keeps.set_bind (announce_keeps hP _ _)
        ⟨hs.catalog, hP.assign m (fun a => a.assigned_applyAll changes) hs.kept⟩
    · exact hs

/-! ## Documents -/

omit hP in
theorem adopt_keeps {loading : Except LoadError Loading} {memory : Memory}
    (h : ∀ st, loading = .ok st → st.Upholds P) : Keeps (Upholds c P) (adopt memory loading) := by
  intro s hs
  cases loading with
  | error e => exact hs
  | ok st => exact ⟨hs.catalog, h st rfl⟩

/-- A document that replaces the graph is read into an empty one. -/
theorem load_keeps (doc : Json) : Keeps (Upholds c P) (load doc) := by
  refine Keeps.get_bind fun s hs => adopt_keeps (fun st hload => ?_) _ hs
  rw [hs.catalog] at hload
  exact Graph.merge_kept hP (hP.empty _ hs.kept) hload

theorem loadText_keeps (text : Option String) : Keeps (Upholds c P) (loadText text) := by
  refine Keeps.get_bind fun s hs => adopt_keeps (fun st htext => ?_) _ hs
  obtain ⟨doc, hload⟩ := Graph.load_of_loadText htext
  rw [hs.catalog] at hload
  exact Graph.merge_kept hP (hP.empty _ hs.kept) hload

theorem merge_keeps (doc : Json) : Keeps (Upholds c P) (merge doc) := by
  refine Keeps.get_bind fun s hs => adopt_keeps (fun st hmerge => ?_) _ hs
  rw [hs.catalog] at hmerge
  exact Graph.merge_kept hP hs.kept hmerge

end Session

end Patchbay
