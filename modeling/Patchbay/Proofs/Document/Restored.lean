import Patchbay.Proofs.Document.Accounting
import Patchbay.Proofs.Document.Lenient
import Patchbay.Proofs.Document.NodeRoundTrip

/-!
# What documents can bring in

A node that a document brings in is what the document makes of a new node of the catalog (`Node.restored`). Its
kind is that of the new node, and each of its settings is either that of the new node or one that a field has
been read as. So with the built-in catalog it is of a built-in kind, and its sizes have sixty-four bits.
-/

namespace Patchbay

/-! ## Sizes -/

theorem Json.natBelow?_lt {bits n : Nat} {j : Json} (h : j.natBelow? bits = some n) :
    n < 2 ^ bits := by
  obtain ⟨i, hi, rfl⟩ := Option.map_eq_some_iff.mp h
  cases j with
  | number x =>
    cases x with
    | int k =>
      simp only [intWithin?, Option.ite_none_right_eq_some, Option.some.injEq] at hi
      obtain ⟨⟨hlow, hhigh⟩, rfl⟩ := hi
      exact (Int.toNat_lt hlow).mpr hhigh
    | double => cases hi
  | _ => cases hi

/-- A size that a field is read as has as many bits as are read. -/
theorem Fields.pick_lt {fields : Fields} {key : String} {bits old : Nat} (h : old < 2 ^ bits) :
    fields.pick key (Json.natBelow? bits) old < 2 ^ bits := by
  rw [pick]
  cases hread : (fields.get? key).bind (Json.natBelow? bits) with
  | none => exact h
  | some n =>
    obtain ⟨j, -, hj⟩ := Option.bind_eq_some_iff.mp hread
    exact Json.natBelow?_lt hj

/-- Documents make bodies of the same kind, and do not make sizes too large. -/
theorem Body.restored_spec (b : Body) (fields : Fields) :
    (b.restored fields).isBuiltin = b.isBuiltin ∧ (b.Sized → (b.restored fields).Sized) := by
  cases b with
  | picture out s => exact ⟨rfl, fun h => ⟨Fields.pick_lt h.1, Fields.pick_lt h.2.1, Fields.pick_lt h.2.2⟩⟩
  | _ => exact ⟨rfl, fun h => h⟩

/-! ## Nodes that are read -/

/-- New nodes of the built-in catalog are of a built-in kind, and their sizes have sixty-four bits. -/
theorem Catalog.create?_builtin {name : String} {id : NodeId} {s s' : Supply} {n : Node}
    (h : Catalog.builtin.create? name id s = some (n, s')) :
    n.body.isBuiltin = true ∧ n.body.Sized := by
  obtain ⟨t, ht, hmade⟩ := Option.map_eq_some_iff.mp h
  obtain ⟨b, -, rfl⟩ := List.mem_map.mp (List.mem_of_find?_eq_some ht)
  obtain rfl := congrArg Prod.fst hmade
  cases b with
  | picture => exact ⟨rfl, (by decide : 64 < 2 ^ 64 ∧ 64 < 2 ^ 64 ∧ 4 < 2 ^ 64)⟩
  | _ => exact ⟨rfl, trivial⟩

/-- What the built-in catalog makes of an entry. -/
theorem Loading.Restores.builtin {j : Json} {n : Node}
    (h : Loading.Restores Catalog.builtin.registry j n) :
    n.body.isBuiltin = true ∧ n.body.Sized := by
  obtain ⟨e, -, f, hf, id, s, ws, hrestore⟩ := h
  obtain ⟨t, hfind, rfl⟩ := Option.map_eq_some_iff.mp hf
  obtain ⟨-, rfl, -⟩ := Node.load_eq_ok.mp hrestore
  obtain ⟨hbuiltin, hsized⟩ := Catalog.create?_builtin (Catalog.create?_of_find? hfind id s)
  obtain ⟨hkind, hsizes⟩ := (t.create id s).1.body.restored_spec e.fields
  exact ⟨hkind.trans hbuiltin, hsizes hsized⟩

namespace Graph

variable {g : Graph} {c : Catalog} {s : Supply} {doc : Json} {st : Loading}

/-- A node was there before, or the document has brought it in. -/
theorem mem_nodes_of_merge (h : g.merge c s doc = .ok st) {n : Node} (hn : n ∈ st.graph.nodes) :
    n ∈ g.nodes ∨ ∃ j, Loading.Restores c.registry j n := by
  obtain ⟨ns, ls, ws, ws₁, bad, ws₂, -, -, hnodes, -, hall⟩ :=
    mergeBy_reads c.registry_regular.warnsOfFields h
  rw [hall.nodes] at hn
  refine (List.mem_append.mp hn).imp_right fun hn => ?_
  obtain ⟨j, -, hj⟩ := hnodes.exists_entry hn
  exact ⟨j, hj⟩

/-- Merging with the built-in catalog brings in nodes of the built-in kinds. -/
theorem merge_isBuiltin (hg : g.IsBuiltin) (h : g.merge .builtin s doc = .ok st) :
    st.graph.IsBuiltin := fun n hn => by
  rcases mem_nodes_of_merge h hn with hn | ⟨j, hj⟩
  · exact hg n hn
  · exact hj.builtin.1

/-- So does loading, and all sizes have sixty-four bits. -/
theorem load_builtin (h : Graph.load .builtin s doc = .ok st) :
    st.graph.IsBuiltin ∧ ∀ n ∈ st.graph.nodes, n.body.Sized := by
  refine ⟨merge_isBuiltin (fun _ hn => absurd hn List.not_mem_nil) h, fun n hn => ?_⟩
  obtain ⟨j, hj⟩ := (mem_nodes_of_merge h hn).resolve_left List.not_mem_nil
  exact hj.builtin.2

end Graph

end Patchbay
