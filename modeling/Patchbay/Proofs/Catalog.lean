import Patchbay.Catalog
import Patchbay.Document.NodeDocument
import Patchbay.Proofs.Supply

/-!
# What making, editing and restoring a node do to its identities

A new node has the identity that it is given, and its pins have the next identities of the supply, in
order and without gaps (`Node.DrawnFrom`). What graphs need of this is less: the pins have identities
that were given meanwhile, each its own (`Node.DrawnBetween`). From then on neither changes: edits and
documents reach the settings of a node, never its identity or its pins.
-/

namespace Patchbay

/-! ## Making nodes -/

/-- The pins of the node have the identities that the supply gave between `s` and `s'`. -/
def Node.DrawnFrom (n : Node) (s s' : Supply) : Prop :=
  ∃ k, n.pins.map Pin.id = s.pinIds k ∧ s' = s.skip k

/-- The pins of the node have identities that the supply gave between `s` and `s'`, in whatever
order. -/
structure Node.DrawnBetween (n : Node) (s s' : Supply) : Prop where
  reaches : s.Reaches s'
  /-- The identity of each pin comes from a position of its own. -/
  positions : ∃ is : List Nat, is.Nodup ∧ (∀ i ∈ is, s.next ≤ i ∧ i < s'.next) ∧
    n.pins.map Pin.id = is.map fun i => ⟨s.draw i⟩

theorem Node.DrawnFrom.between {n : Node} {s s' : Supply} (h : n.DrawnFrom s s') :
    n.DrawnBetween s s' := by
  obtain ⟨k, hids, rfl⟩ := h
  exact ⟨⟨k, rfl⟩, List.range' s.next k, List.nodup_range', fun i hi => List.mem_range'_1.mp hi, hids⟩

/-- Where an identity of a pin comes from. -/
theorem Node.DrawnBetween.drawn {n : Node} {s s' : Supply} (h : n.DrawnBetween s s') {p : Pin}
    (hp : p ∈ n.pins) : ∃ i, s.next ≤ i ∧ i < s'.next ∧ p.id = ⟨s.draw i⟩ := by
  obtain ⟨is, -, hbounds, hids⟩ := h.positions
  obtain ⟨i, hi, hid⟩ := List.mem_map.mp (hids ▸ List.mem_map_of_mem (f := Pin.id) hp)
  exact ⟨i, (hbounds i hi).1, (hbounds i hi).2, hid.symm⟩

/-- Each described pin gets the next identity. -/
theorem NodeType.makePins_spec (specs : List PinSpec) (s : Supply) :
    (makePins specs s).1.map Pin.id = s.pinIds specs.length ∧
      (makePins specs s).2 = s.skip specs.length := by
  induction specs generalizing s with
  | nil => exact ⟨rfl, rfl⟩
  | cons spec rest ih =>
    obtain ⟨hids, hnext⟩ := ih s.takePin.2
    constructor
    · rw [List.length_cons, Supply.pinIds_succ, ← hids]
      rfl
    · show (makePins rest s.takePin.2).2 = _
      rw [hnext]
      show Supply.mk s.draw (s.next + 1 + rest.length) = ⟨s.draw, s.next + (rest.length + 1)⟩
      rw [Nat.add_assoc, Nat.add_comm 1]

/-- A new node has the identity it is given and draws those of its pins. -/
theorem NodeType.create_spec (t : NodeType) (id : NodeId) (s : Supply) :
    (t.create id s).1.id = id ∧ (t.create id s).1.DrawnFrom s (t.create id s).2 := by
  refine ⟨rfl, ?_⟩
  cases t with
  | builtin b =>
    cases b with
    | start | constant | picture => exact ⟨1, rfl, rfl⟩
    | finish => exact ⟨2, rfl, rfl⟩
    | branch => exact ⟨4, rfl, rfl⟩
    | transition => exact ⟨6, rfl, rfl⟩
  | scripted t =>
    set ins := t.pins.filter fun p => p.direction == .input
    set outs := t.pins.filter fun p => p.direction == .output
    obtain ⟨hins, hmid⟩ := makePins_spec ins s
    obtain ⟨houts, hend⟩ := makePins_spec outs (makePins ins s).2
    rw [hmid] at houts hend
    refine ⟨ins.length + outs.length, ?_, ?_⟩
    · show ((makePins ins s).1 ++ (makePins outs (makePins ins s).2).1).map Pin.id = _
      rw [List.map_append, hins, hmid, houts, Supply.pinIds_add]
    · show (makePins outs (makePins ins s).2).2 = _
      rw [hmid, hend, Supply.skip, Supply.skip, Supply.skip, Nat.add_assoc]

theorem Catalog.create?_spec {c : Catalog} {name : String} {id : NodeId} {s s' : Supply} {n : Node}
    (h : c.create? name id s = some (n, s')) : n.id = id ∧ n.DrawnFrom s s' := by
  obtain ⟨t, -, ht⟩ := Option.map_eq_some_iff.mp h
  have hspec := t.create_spec id s
  rw [ht] at hspec
  exact hspec

theorem Catalog.create?_of_find? {c : Catalog} {name : String} {t : NodeType}
    (h : c.find? name = some t) (id : NodeId) (s : Supply) :
    c.create? name id s = some (t.create id s) := by
  rw [create?, h, Option.map_some]

/-! ## Editing nodes -/

@[simp] theorem Body.apply_inputs (c : NodeChange) (b : Body) : (b.apply c).inputs = b.inputs := by
  cases c <;> cases b <;> rfl

@[simp] theorem Body.apply_outputs (c : NodeChange) (b : Body) :
    (b.apply c).outputs = b.outputs := by
  cases c <;> cases b <;> rfl

@[simp] theorem Node.apply_id (n : Node) (c : NodeChange) : (n.apply c).id = n.id := by
  cases c <;> rfl

@[simp] theorem Node.apply_pins (n : Node) (c : NodeChange) : (n.apply c).pins = n.pins := by
  have hbody : ∀ c, (n.body.apply c).inputs ++ (n.body.apply c).outputs = n.pins := fun c => by
    rw [Body.apply_inputs, Body.apply_outputs]
    rfl
  cases c with
  | name | position | enabled => rfl
  | _ => exact hbody _

@[simp] theorem Node.apply_nodeClass (n : Node) (c : NodeChange) :
    (n.apply c).body.nodeClass = n.body.nodeClass := by
  obtain ⟨_, _, _, _, body⟩ := n
  cases c <;> cases body <;> rfl

/-- The node `m` is like `n` up to settings: it may have been made of it by assignments to fields. -/
structure Node.Assigned (n m : Node) : Prop where
  id : m.id = n.id
  pins : m.pins = n.pins
  nodeClass : m.body.nodeClass = n.body.nodeClass

theorem Node.assigned_refl (n : Node) : n.Assigned n := ⟨rfl, rfl, rfl⟩

theorem Node.Assigned.symm {n m : Node} (h : n.Assigned m) : m.Assigned n :=
  ⟨h.id.symm, h.pins.symm, h.nodeClass.symm⟩

/-- The pins of a node may have been drawn before it was assigned to. -/
theorem Node.Assigned.drawnFrom {n m : Node} (h : n.Assigned m) {s s' : Supply}
    (hn : n.DrawnFrom s s') : m.DrawnFrom s s' :=
  hn.imp fun _ hk => ⟨h.pins ▸ hk.1, hk.2⟩

theorem Node.Assigned.apply {n m : Node} (h : n.Assigned m) (c : NodeChange) :
    n.Assigned (m.apply c) where
  id := (m.apply_id c).trans h.id
  pins := (m.apply_pins c).trans h.pins
  nodeClass := (m.apply_nodeClass c).trans h.nodeClass

theorem Node.assigned_applyAll (n : Node) (changes : List NodeChange) :
    n.Assigned (n.applyAll changes) :=
  List.foldlRecOn changes Node.apply n.assigned_refl fun _ hm c _ => hm.apply c

/-- Edits keep the identity and the pins of a node. -/
theorem Node.applyAll_kept (n : Node) (changes : List NodeChange) :
    (n.applyAll changes).id = n.id ∧ (n.applyAll changes).pins = n.pins :=
  ⟨(n.assigned_applyAll changes).id, (n.assigned_applyAll changes).pins⟩

/-! ## Restoring nodes -/

/-- What holds of a node, and is kept by the assignments that its fields make, holds of it after it has
read a document. -/
theorem Node.load_induction {P : Node → Prop} {n m : Node} {fields : Fields}
    {ws : List LoadWarning} (h : n.load fields = .ok (m, ws)) (hn : P n)
    (hstep : ∀ a, P a → ∀ r ∈ n.fieldRules, ∀ j c, r.change? j = some c → P (a.apply c)) : P m := by
  rw [load_eq] at h
  split at h
  · cases h
  · rename_i warnings _
    have hfold := List.foldlRecOn (motive := fun acc => P acc.1) n.fieldRules
      (FieldRule.read fields) (b := (n, warnings)) hn fun acc hacc r hr => by
        rw [FieldRule.read]
        split
        · exact hacc
        · split
          · rename_i c hc
            exact hstep _ hacc r hr _ c hc
          · exact hacc
    rwa [Except.ok.inj h] at hfold

theorem Node.assigned_load {n m : Node} {fields : Fields} {ws : List LoadWarning}
    (h : n.load fields = .ok (m, ws)) : n.Assigned m :=
  load_induction h n.assigned_refl fun _ ha _ _ _ c _ => ha.apply c

/-- A document does not change the identity and the pins of the node that reads it. -/
theorem Node.load_kept {n m : Node} {fields : Fields} {ws : List LoadWarning}
    (h : n.load fields = .ok (m, ws)) : m.id = n.id ∧ m.pins = n.pins :=
  ⟨(assigned_load h).id, (assigned_load h).pins⟩

end Patchbay
