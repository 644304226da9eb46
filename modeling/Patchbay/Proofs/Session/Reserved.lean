import Patchbay.Proofs.Document.Restored
import Patchbay.Proofs.Run.Delivery
import Patchbay.Proofs.Session.Operations

/-!
# Whose pin it is

Identities are not drawn twice, so the frame pin of an end node is never the pin of another node, before or
after. That is what a history of edits needs to know of the pin. At any time it is the pin of that end node or
of nobody, or else there is no such end node and never will be (`Graph.Lacks`). `Graph.Reserves` says so, and
edits keep it together with the health of the graph (`Graph.reserves_keptByEdits`).
-/

namespace Patchbay

/-! ## Settings do not matter -/

theorem Body.isBuiltin_eq (b : Body) : b.isBuiltin = decide (b.nodeClass ≠ .scripted) := by
  cases b <;> rfl

namespace Node.Assigned

variable {n m : Node} (h : n.Assigned m)
include h

theorem isBuiltin : m.body.isBuiltin = n.body.isBuiltin := by
  rw [Body.isBuiltin_eq, Body.isBuiltin_eq, h.nodeClass]

/-- An end node stays the same end node. -/
theorem finish {pins : FinishPins} (hn : n.body = .finish pins) : m.body = .finish pins := by
  have hclass := h.nodeClass
  have hpins := h.pins
  rw [hn] at hclass
  cases hm : m.body with
  | finish pins' =>
    simp only [Node.pins, Node.inputs, Node.outputs, hn, hm, Body.inputs, Body.outputs,
      FinishPins.enterPin, FinishPins.framePin, Pin.input] at hpins
    obtain ⟨enter, frame⟩ := pins
    obtain ⟨enter', frame'⟩ := pins'
    simp_all
  | _ =>
    rw [hm] at hclass
    cases hclass

end Node.Assigned

/-- The pin is not among those that the supply gives before position `n`. -/
def Supply.Passed (n : Nat) (p : PinId) (s : Supply) : Prop :=
  ∀ i, s.next ≤ i → i < n → p ≠ ⟨s.draw i⟩

namespace Graph

variable {n : Nat} {pins : FinishPins} {g g' : Graph} {s s' : Supply}

/-- There is no end node with these pins, and the supply does not give them any more. -/
structure Lacks (n : Nat) (pins : FinishPins) (g : Graph) (s : Supply) : Prop where
  passed : s.Passed n pins.frame
  absent : s.next ≤ n → ∀ m ∈ g.nodes, m.body ≠ .finish pins

/-- All nodes are of built-in kinds, and the frame pin belongs to the end node with these pins or to nobody,
unless there is no such end node and none will come. -/
structure Reserves (n : Nat) (pins : FinishPins) (g : Graph) (s : Supply) : Prop where
  builtin : g.IsBuiltin
  settled : (s.next ≤ n → g.Dedicates pins) ∨ g.Lacks n pins s

/-! ## Edits keep it -/

section Adding

variable {m : Node} (hadd : g.addNode m = .ok g')
include hadd

theorem mem_addNode {a : Node} (ha : a ∈ g'.nodes) : a ∈ g.nodes ∨ a = m := by
  rw [(addNode_parts hadd).2.1] at ha
  simpa using ha

theorem IsBuiltin.addNode (hb : g.IsBuiltin) (hm : m.body.isBuiltin = true) : g'.IsBuiltin :=
  fun a ha => (mem_addNode hadd ha).elim (hb a) fun heq => heq ▸ hm

end Adding

namespace Lacks

variable (h : g.Lacks n pins s)
include h

theorem skip (k : Nat) : g.Lacks n pins (s.skip k) where
  passed i hi := h.passed i (Nat.le_of_add_right_le hi)
  absent hn := h.absent (Nat.le_of_add_right_le hn)

theorem change (hnodes : ∀ m ∈ g'.nodes, ∃ a ∈ g.nodes, a.Assigned m) : g'.Lacks n pins s where
  passed := h.passed
  absent hn m hm hbody := by
    obtain ⟨a, ha, hassigned⟩ := hnodes m hm
    exact h.absent hn a ha (hassigned.symm.finish hbody)

/-- A node comes in that does not have the frame pin. -/
theorem addNode {m : Node} (hother : s.next ≤ n → ∀ p ∈ m.pins, p.id ≠ pins.frame)
    (hadd : g.addNode m = .ok g') : g'.Lacks n pins s where
  passed := h.passed
  absent hn a ha hbody := by
    rcases mem_addNode hadd ha with ha | rfl
    · exact h.absent hn a ha hbody
    · exact hother hn pins.framePin (Node.framePin_mem hbody) rfl

/-- A node comes in whose pins have just been drawn. The frame pin is not among them. -/
theorem addDrawn {m : Node} (hdrawn : m.DrawnFrom s s') (hadd : g.addNode m = .ok g') :
    g'.Lacks n pins s' := by
  have hs' : g.Lacks n pins s' := by
    obtain ⟨k, -, rfl⟩ := hdrawn
    exact h.skip k
  refine hs'.addNode (fun hn p hp hid => ?_) hadd
  obtain ⟨i, hi, hin, hdraw⟩ := hdrawn.between.drawn hp
  exact h.passed i hi (hin.trans_le hn) (hid.symm.trans hdraw)

end Lacks

theorem lacks_keptByEdits (n : Nat) (pins : FinishPins) (c : Catalog) :
    KeptByEdits c fun g s => g.Healthy n s ∧ g.Lacks n pins s :=
  (healthy_keptByEdits n c).and_of_nodes (fun k h => h.skip k) (fun h hnodes => h.change hnodes)
    fun hcreate hassigned hadd _ h =>
      h.addDrawn (hassigned.drawnFrom (Catalog.create?_spec hcreate).2) hadd

namespace Reserves

variable (h : g.Reserves n pins s)
include h

theorem skip (k : Nat) : g.Reserves n pins (s.skip k) where
  builtin := h.builtin
  settled := h.settled.imp (fun hpins hn => hpins (Nat.le_of_add_right_le hn)) (·.skip k)

theorem change (hnodes : ∀ m ∈ g'.nodes, ∃ a ∈ g.nodes, a.Assigned m) : g'.Reserves n pins s where
  builtin m hm := by
    obtain ⟨a, ha, hassigned⟩ := hnodes m hm
    exact hassigned.isBuiltin.trans (h.builtin a ha)
  settled := by
    refine h.settled.imp (fun hpins hn m hm p hp hid => ?_) (·.change hnodes)
    obtain ⟨a, ha, hassigned⟩ := hnodes m hm
    exact hassigned.finish (hpins hn a ha p (hassigned.pins ▸ hp) hid)

/-- A node comes in that does not have the frame pin. -/
theorem addNode {m : Node} (hbuiltin : m.body.isBuiltin = true)
    (hother : ∀ p ∈ m.pins, p.id ≠ pins.frame) (hadd : g.addNode m = .ok g') :
    g'.Reserves n pins s := by
  refine ⟨h.builtin.addNode hadd hbuiltin, h.settled.imp (fun hpins hn a ha p hp hid => ?_)
    fun hlacks => hlacks.addNode (fun _ => hother) hadd⟩
  rcases mem_addNode hadd ha with ha | rfl
  · exact hpins hn a ha p hp hid
  · exact absurd hid (hother p hp)

/-- A node comes in whose pins have just been drawn. Whoever gets the frame pin gets it for good. -/
theorem addDrawn {m : Node} (hs : g.Healthy n s) (hbuiltin : m.body.isBuiltin = true)
    (hdrawn : m.DrawnFrom s s') (hadd : g.addNode m = .ok g') : g'.Reserves n pins s' := by
  by_cases hother : ∀ p ∈ m.pins, p.id ≠ pins.frame
  · have hs' : g.Reserves n pins s' := by
      obtain ⟨k, -, rfl⟩ := hdrawn
      exact h.skip k
    exact hs'.addNode hbuiltin hother hadd
  push Not at hother
  obtain ⟨p, hp, hid⟩ := hother
  obtain ⟨i, hi, hin, hframe⟩ := hdrawn.between.drawn hp
  rw [hid] at hframe
  -- the pin was nobody's up to now, and it will not be given again
  have hfree : s'.next ≤ n → ∀ a ∈ g.nodes, ∀ q ∈ a.pins, q.id ≠ pins.frame := by
    intro hn a ha q hq hqid
    have hunused := hs.unused i hi (hin.trans_le hn)
    rw [← hframe, ← hqid, (hs.wellFormed (hdrawn.between.reaches.le.trans hn)).owner?_of_mem ha hq] at hunused
    cases hunused
  have hpassed : s'.Passed n pins.frame := by
    intro j hj hjn heq
    rw [hframe, hdrawn.between.reaches.draw_eq, PinId.mk.injEq] at heq
    exact hs.distinct i j hi (hin.trans_le hj) hjn heq
  refine ⟨h.builtin.addNode hadd hbuiltin, ?_⟩
  by_cases hbody : m.body = .finish pins
  · refine .inl fun hn a ha q hq hqid => ?_
    rcases mem_addNode hadd ha with ha | rfl
    · exact absurd hqid (hfree hn a ha q hq)
    · exact hbody
  · refine .inr ⟨hpassed, fun hn a ha ha' => ?_⟩
    rcases mem_addNode hadd ha with ha | rfl
    · exact hfree hn a ha pins.framePin (Node.framePin_mem ha') rfl
    · exact hbody ha'

end Reserves

/-- **Edits keep a pin reserved**, with nodes of the built-in catalog. -/
theorem reserves_keptByEdits (n : Nat) (pins : FinishPins) :
    KeptByEdits .builtin fun g s => g.Healthy n s ∧ g.Reserves n pins s :=
  (healthy_keptByEdits n .builtin).and_of_nodes (fun k h => h.skip k) (fun h hnodes => h.change hnodes)
    fun hcreate hassigned hadd hs h =>
      h.addDrawn hs (hassigned.isBuiltin.trans (Catalog.create?_builtin hcreate).1)
        (hassigned.drawnFrom (Catalog.create?_spec hcreate).2) hadd

/-- In a healthy graph every pin is reserved. -/
theorem Healthy.reserves (hs : g.Healthy n s) (hn : s.next ≤ n) (hb : g.IsBuiltin)
    (pins : FinishPins) : g.Reserves n pins s := by
  have hg := hs.wellFormed hn
  refine ⟨hb, ?_⟩
  by_cases hend : ∃ m ∈ g.nodes, m.body = .finish pins
  · obtain ⟨m, hm, hbody⟩ := hend
    exact .inl fun _ => hg.dedicates hm hbody
  push Not at hend
  by_cases howned : ∃ m ∈ g.nodes, ∃ p ∈ m.pins, p.id = pins.frame
  · -- the pin of another node is not given to anyone else
    obtain ⟨m, hm, p, hp, hid⟩ := howned
    refine .inr ⟨fun i hi hin heq => ?_, fun _ => hend⟩
    have hunused := hs.unused i hi hin
    rw [← heq, ← hid, hg.owner?_of_mem hm hp] at hunused
    cases hunused
  · push Not at howned
    exact .inl fun _ m hm p hp hid => absurd hid (howned m hm p hp)

end Graph

end Patchbay
