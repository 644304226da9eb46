import Patchbay.Proofs.Document.Factories
import Patchbay.Proofs.Document.Loading

/-!
# What one entry of a document does

Reading the entry of a node goes through the state of the reader in many places: a fresh identity may
be taken, a repetition is reported, an identity is chosen, the type makes a node and the node reads
the fields. What comes of it depends on little of the state, though, if the types are regular. Whether
an entry is restored is up to the entry and the registry (`Loading.NodeEntry.isRestored`). If it is not,
it is left out with the same warning in every state (`Loading.restoreNodeBy_of_not_restored`); if it is,
what comes in is the same in every state but for its identities
(`Loading.restoreNodeBy_of_restored`).

The identities are those of a supply, which reading only moves forward (`Supply.Reaches`).
-/

namespace Patchbay

/-! ## Which entries are restored -/

instance : Inhabited Supply := ⟨⟨fun _ => default, 0⟩⟩

namespace Loading

/-- What the entry of a node says. -/
structure NodeEntry where
  fields : Fields
  typeName : String
  /-- The identity that it writes, if it writes one. -/
  written : Option NodeId

/-- What an entry says, or why it cannot be read. -/
def readEntry (j : Json) : Except EntryFault NodeEntry :=
  match j.fields? with
  | none => .error .notAnObject
  | some fields =>
    match fields.typeName? with
    | none => .error .missingType
    | some typeName =>
      match fields.nodeId? with
      | none => .ok ⟨fields, typeName, none⟩
      | some (.ok n) => .ok ⟨fields, typeName, some n⟩
      | some (.error bad) => .error (.invalidId bad)

/-- The identity that an entry goes by: the one that it writes, or a fresh one. -/
def NodeEntry.claim (e : NodeEntry) (s : Supply) : NodeId × Supply :=
  match e.written with
  | some n => (n, s)
  | none => s.takeNode

/-- Whether an entry is restored: its type is known, and a new node of the type accepts it. Which node that is
does not matter if the types are regular (`NodeEntry.isRestored_iff`). -/
def NodeEntry.isRestored (r : Registry) (e : NodeEntry) : Bool :=
  match r e.typeName with
  | none => false
  | some f => (f.restore default default e.fields).isOk

/-- The identity that an entry writes, if it is restored. -/
def restored? (r : Registry) (j : Json) : Option (Option NodeId) :=
  match readEntry j with
  | .ok e => if e.isRestored r then some e.written else none
  | .error _ => none

variable {r : Registry} {j : Json} {e : NodeEntry}

theorem typeName?_of_readEntry (h : readEntry j = .ok e) :
    e.fields.typeName? = some e.typeName := by
  rw [readEntry] at h
  split at h
  · cases h
  · split at h
    · cases h
    · rename_i htype
      split at h
      all_goals cases h
      all_goals exact htype

/-- An entry that cannot be read is left out. -/
theorem loadNodeBy_of_error {fault : EntryFault} (h : readEntry j = .error fault) (st : Loading)
    (index : Nat) : loadNodeBy r st (j, index) = st.warn (.malformedNode index fault) := by
  rw [readEntry] at h
  simp only [loadNodeBy, entryId]
  split at h
  · cases h; simp [*]
  · split at h
    · cases h; simp [*]
    · split at h
      all_goals cases h
      simp [*]

/-- An entry that can be read is restored under the identity that it goes by. -/
theorem loadNodeBy_of_ok (h : readEntry j = .ok e) (st : Loading) (index : Nat) :
    loadNodeBy r st (j, index) = restoreNodeBy r { st with supply := (e.claim st.supply).2 } index
      e.fields e.typeName (e.claim st.supply).1 := by
  rw [readEntry] at h
  simp only [loadNodeBy, entryId]
  split at h
  · cases h
  · split at h
    · cases h
    · split at h
      all_goals cases h
      all_goals simp [*, NodeEntry.claim]

end Loading

theorem NodeType.info_create (t : NodeType) (id : NodeId) (s : Supply) :
    (t.create id s).1.info = t.info := by
  cases t with
  | builtin b => cases b <;> rfl
  | scripted t => rfl

theorem Catalog.find?_name {c : Catalog} {name : String} {t : NodeType}
    (h : c.find? name = some t) : t.info.name = name := by
  simpa using List.find?_some h

/-- A document of its type is refused by a node exactly if its version is newer. -/
theorem Node.load_isOk {n : Node} {fields : Fields} (htype : fields.typeName? = some n.info.name) :
    (∃ r, n.load fields = .ok r) ↔
      ∀ version, (fields.get? "version").bind (Json.natBelow? 32) = some version →
        version ≤ n.info.version := by
  simp only [load_eq, checkDocument, htype, if_true]
  cases hversion : fields.get? "version" with
  | none => simp
  | some j =>
    cases hj : j.natBelow? 32 with
    | none => simp [hj]
    | some version =>
      by_cases hnew : n.info.version < version
      · simp [hj, hnew]
      · simp [hj, hnew, Nat.le_of_not_lt hnew]

theorem LoadWarning.ofField_injective (n : NodeId) : Function.Injective (ofField n) := by
  rintro ⟨key, fault⟩ ⟨key', fault'⟩ h
  simp only [ofField, malformedField.injEq, true_and] at h
  rw [h.1, h.2]

/-- The warning names no node that has been restored. -/
def LoadWarning.IsGeneral : LoadWarning → Prop
  | .malformedField _ _ _ => False
  | _ => True

/-- What warnings are about: the document as a whole, or an entry of one of its lists. -/
inductive Subject where
  | document
  | node
  | link
  deriving DecidableEq

def LoadWarning.subject : LoadWarning → Subject
  | .missingVersion | .malformedDocument _ => .document
  | .malformedNode _ _ | .duplicateNode _ _ | .unknownType _ _ | .nodeRejected _ _ _
  | .malformedField _ _ _ => .node
  | .malformedLink _ | .danglingLink _ _ | .linkRejected _ _ => .link

/-- Warnings about the document as a whole name no nodes. -/
theorem LoadWarning.isGeneral_of_document {w : LoadWarning} (h : w.subject = .document) :
    w.IsGeneral := by
  cases w with
  | malformedField => cases h
  | _ => trivial

namespace Loading

variable {r : Registry} {e : NodeEntry}

/-- Whether an entry is restored has nothing to do with the identities that its node would get. -/
theorem NodeEntry.isRestored_iff (hr : r.Regular) {f : Factory} (hf : r e.typeName = some f) (id : NodeId)
    (s : Supply) : e.isRestored r = true ↔ ∃ restored, f.restore id s e.fields = .ok restored := by
  have halike := (hr _ _ hf).alike e.fields default id default s
  rw [isRestored, hf]
  dsimp only
  generalize f.restore default default e.fields = x, f.restore id s e.fields = y at halike
  cases halike with
  | refused => simp [Except.isOk, Except.toBool]
  | restored => simp [Except.isOk, Except.toBool]

/-- With the types of a catalog, an entry is restored if the catalog knows its type, in no older version
than the entry. -/
theorem NodeEntry.isRestored_registry {c : Catalog} (htype : e.fields.typeName? = some e.typeName) :
    e.isRestored c.registry = true ↔ ∃ t, c.find? e.typeName = some t ∧
      ∀ version, (e.fields.get? "version").bind (Json.natBelow? 32) = some version →
        version ≤ t.info.version := by
  cases hfind : c.find? e.typeName with
  | none => simp [isRestored, Catalog.registry, hfind]
  | some t =>
    have hinfo := t.info_create default default
    rw [isRestored_iff c.registry_regular (Catalog.registry_of_find? hfind) default default,
      Factory.restore, NodeType.factory,
      Node.load_isOk (by rw [hinfo, Catalog.find?_name hfind, htype]), hinfo]
    simp only [Option.some.injEq, exists_eq_left']

/-- The warning about an identity that an earlier entry had. -/
def repeated (st : Loading) (index : Nat) (written : NodeId) : List LoadWarning :=
  if st.loaded.has written then [.duplicateNode index written] else []

/-- The identity that a node would be restored under, and the supply after that. -/
def chosen (st : Loading) (written : NodeId) : NodeId × Supply :=
  st.identityFor written (st.loaded.has written)

/-- Restoring in steps that do not depend on each other. -/
theorem restoreNodeBy_eq (st : Loading) (index : Nat) (fields : Fields) (typeName : String)
    (written : NodeId) :
    restoreNodeBy r st index fields typeName written =
      match r typeName with
      | none => ⟨st.graph, (st.chosen written).2, st.loaded,
          st.report.warn (st.repeated index written ++ [.unknownType index typeName])⟩
      | some f =>
        let supply := (f.create (st.chosen written).1 (st.chosen written).2).2
        match f.restore (st.chosen written).1 (st.chosen written).2 fields with
        | .error e => ⟨st.graph, supply, st.loaded,
            st.report.warn (st.repeated index written ++ [.nodeRejected index typeName (.load e)])⟩
        | .ok (node, warnings) =>
          addNode ⟨st.graph, supply, st.loaded,
            st.report.warn (st.repeated index written ++ warnings)⟩ index typeName written
              (st.loaded.has written) node := by
  have hsame : (if st.loaded.has written then st.warn (.duplicateNode index written) else st) =
      { st with report := st.report.warn (st.repeated index written) } := by
    rw [repeated]
    split
    · rfl
    · simp [LoadReport.warn]
  have hchosen : ∀ report, identityFor { st with report } written (st.loaded.has written) =
      st.chosen written := fun _ => rfl
  simp only [restoreNodeBy, hsame, hchosen]
  cases r typeName with
  | none => simp only [warn, LoadReport.warn, List.append_assoc]
  | some f =>
    simp only [Factory.restore]
    rcases f.load (f.create (st.chosen written).1 (st.chosen written).2).1 fields with
      e | ⟨restored, warnings⟩
    · simp only [warn, LoadReport.warn, List.append_assoc]
    · simp only [LoadReport.warn, List.append_assoc]

/-- With the types of a catalog, the catalog makes the node and the node reads the fields. -/
theorem restoreNodeBy_registry (c : Catalog) (st : Loading) (index : Nat) (fields : Fields)
    (typeName : String) (written : NodeId) :
    restoreNodeBy c.registry st index fields typeName written =
      match c.create? typeName (st.chosen written).1 (st.chosen written).2 with
      | none => ⟨st.graph, (st.chosen written).2, st.loaded,
          st.report.warn (st.repeated index written ++ [.unknownType index typeName])⟩
      | some (node, supply) =>
        match node.load fields with
        | .error e => ⟨st.graph, supply, st.loaded,
            st.report.warn (st.repeated index written ++ [.nodeRejected index typeName (.load e)])⟩
        | .ok (node, warnings) =>
          addNode ⟨st.graph, supply, st.loaded,
            st.report.warn (st.repeated index written ++ warnings)⟩ index typeName written
              (st.loaded.has written) node := by
  rw [restoreNodeBy_eq, Catalog.create?]
  cases hfind : c.find? typeName with
  | none => rw [Catalog.registry, hfind, Option.map_none, Option.map_none]
  | some t => rw [Catalog.registry_of_find? hfind, Option.map_some]; rfl

/-- The supply from which a new node draws its pins, in this or in any other state. -/
theorem chosen_reaches (st : Loading) (written : NodeId) :
    st.supply.Reaches (st.chosen written).2 := by
  rw [chosen, identityFor]
  split
  · exact .takeNode _
  · exact .refl _

/-- **An entry that is not restored** is left out with the same warning in every state. -/
theorem restoreNodeBy_of_not_restored (hr : r.Regular) (h : e.isRestored r = false) (index : Nat) :
    ∃ w : LoadWarning, w.IsGeneral ∧ ∀ st written, ∃ s, (st.chosen written).2.Reaches s ∧
      restoreNodeBy r st index e.fields e.typeName written =
        ⟨st.graph, s, st.loaded, st.report.warn (st.repeated index written ++ [w])⟩ := by
  cases hf : r e.typeName with
  | none =>
    refine ⟨.unknownType index e.typeName, trivial, fun st written => ⟨_, .refl _, ?_⟩⟩
    rw [restoreNodeBy_eq, hf]
  | some f =>
    -- the refusal of one new node is the refusal of all of them
    have hregular := hr _ _ hf
    cases hrefused : f.restore default default e.fields with
    | ok restored =>
      have hrestored := (NodeEntry.isRestored_iff hr hf default default).mpr ⟨restored, hrefused⟩
      rw [h] at hrestored
      cases hrestored
    | error reason =>
      refine ⟨.nodeRejected index e.typeName (.load reason), trivial, fun st written => ?_⟩
      have hsame := hregular.alike e.fields default (st.chosen written).1 default (st.chosen written).2
      rw [hrefused] at hsame
      refine ⟨_, (hregular.pins (st.chosen written).1 (st.chosen written).2).reaches, ?_⟩
      rw [restoreNodeBy_eq, hf]
      simp only [hsame.eq_error]

/-- **An entry that is restored** brings in a node that is the same in every state but for its
identities, with the same warnings but for the node that they name, provided that the identity that
has been chosen for it is free. -/
theorem restoreNodeBy_of_restored (hr : r.Regular) (h : e.isRestored r = true) (index : Nat) :
    ∃ (b : Node) (faults : List (String × FieldFault)), ∀ st written,
      ∃ m s, m.id = (st.chosen written).1 ∧ m.blank = b ∧ m.DrawnBetween (st.chosen written).2 s ∧
        restoreNodeBy r st index e.fields e.typeName written =
          addNode ⟨st.graph, s, st.loaded, st.report.warn
            (st.repeated index written ++ faults.map (.ofField m.id))⟩ index e.typeName written
              (st.loaded.has written) m := by
  cases hf : r e.typeName with
  | none => simp [NodeEntry.isRestored, hf] at h
  | some f =>
    -- what one new node makes of the entry all of them do
    have hregular := hr _ _ hf
    obtain ⟨first, hfirst⟩ := (NodeEntry.isRestored_iff hr hf default default).mp h
    obtain ⟨faults, hfaults⟩ : ∃ faults : List (String × FieldFault),
        first.2 = faults.map (.ofField first.1.id) := by
      have hself := hregular.alike e.fields default default default default
      rw [hfirst] at hself
      obtain ⟨_, -, hself⟩ := hself.exists_ok
      exact hself.warnings.imp fun _ hfaults => hfaults.1
    refine ⟨first.1.blank, faults, fun st written => ?_⟩
    set chosen := st.chosen written with hchosen
    have hsame := hregular.alike e.fields default chosen.1 default chosen.2
    rw [hfirst] at hsame
    obtain ⟨⟨m, ws⟩, hrestore, hsame⟩ := hsame.exists_ok
    obtain ⟨faults', hf', hws⟩ := hsame.warnings
    obtain rfl : faults = faults' :=
      List.map_injective_iff.mpr (LoadWarning.ofField_injective first.1.id) (hfaults.symm.trans hf')
    obtain rfl : ws = faults.map (.ofField m.id) := hws
    obtain ⟨hid, hdrawn⟩ := hregular.restored hrestore
    refine ⟨m, _, hid, hsame.alike.symm, hdrawn, ?_⟩
    rw [restoreNodeBy_eq, hf, ← hchosen]
    simp only [hrestore]

/-! ## Supplies along a document -/

theorem claim_reaches (e : NodeEntry) (s : Supply) : s.Reaches (e.claim s).2 := by
  rw [NodeEntry.claim]
  split
  · exact .refl s
  · exact .takeNode s

theorem supply_addNode (st : Loading) (index : Nat) (typeName : String) (key : NodeId)
    (isRepeat : Bool) (m : Node) :
    (st.addNode index typeName key isRepeat m).supply = st.supply := by
  simp only [addNode]
  split
  · rfl
  · split <;> rfl

theorem loadNodeBy_reaches (hr : r.Regular) (st : Loading) (entry : Json × Nat) :
    st.supply.Reaches (loadNodeBy r st entry).supply := by
  obtain ⟨j, index⟩ := entry
  cases hj : readEntry j with
  | error fault =>
    rw [loadNodeBy_of_error hj]
    exact .refl _
  | ok e =>
    rw [loadNodeBy_of_ok hj]
    refine (claim_reaches e st.supply).trans ?_
    cases hrestored : e.isRestored r with
    | false =>
      obtain ⟨w, -, hleft⟩ := restoreNodeBy_of_not_restored hr hrestored index
      obtain ⟨s, hs, heq⟩ := hleft { st with supply := (e.claim st.supply).2 } (e.claim st.supply).1
      rw [heq]
      exact (chosen_reaches { st with supply := (e.claim st.supply).2 } _).trans hs
    | true =>
      obtain ⟨b, faults, hin⟩ := restoreNodeBy_of_restored hr hrestored index
      obtain ⟨m, s, -, -, hdrawn, heq⟩ :=
        hin { st with supply := (e.claim st.supply).2 } (e.claim st.supply).1
      rw [heq, supply_addNode]
      exact (chosen_reaches { st with supply := (e.claim st.supply).2 } _).trans hdrawn.reaches

theorem loadLink_reaches (st : Loading) (entry : Json × Nat) :
    st.supply.Reaches (loadLink st entry).supply := by
  obtain ⟨j, index⟩ := entry
  simp only [loadLink]
  split
  · exact .refl _
  · split
    · exact .refl _
    · split
      · exact .refl _
      · exact .takeLink _

theorem foldl_reaches {step : Loading → Json × Nat → Loading}
    (hstep : ∀ (st : Loading) (entry : Json × Nat), st.supply.Reaches (step st entry).supply)
    (entries : List (Json × Nat)) (st : Loading) :
    st.supply.Reaches (entries.foldl step st).supply :=
  List.foldlRecOn (motive := fun st' : Loading => st.supply.Reaches st'.supply) entries step
    (.refl _) fun st' hst' entry _ => hst'.trans (hstep st' entry)

end Loading

end Patchbay
