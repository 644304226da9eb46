import Patchbay.Proofs.Graph.Reach

/-!
# How far flow leads

`Graph.Hops` counts the flow links on a way, and `Graph.Away` does so in either direction. With every step in a
direction one gets one link farther away, and there is no other way to get there (`away_succ_iff`). The length
of the shortest way is the distance of two nodes (`Graph.flowDistance`).
-/

namespace Patchbay

open Relation

namespace Graph

/-! ## Ways -/

/-- Flow leads from `a` to `b` over `k` links. -/
inductive Hops (g : Graph) : Nat → NodeId → NodeId → Prop
  | zero (a : NodeId) : Hops g 0 a a
  | next {k : Nat} {a b c : NodeId} (way : Hops g k a b) (last : g.FlowLink b c) :
    Hops g (k + 1) a c

variable {g : Graph} {n m : NodeId} {k : Nat}

/-- A way may be counted from its other end. -/
lemma Hops.head {a b c : NodeId} (first : g.FlowLink a b) (way : g.Hops k b c) :
    g.Hops (k + 1) a c := by
  induction way with
  | zero => exact (Hops.zero a).next first
  | next _ last ih => exact (ih first).next last

/-- A way that is not empty begins with a link. -/
lemma Hops.exists_head {a c : NodeId} (h : g.Hops (k + 1) a c) :
    ∃ b, g.FlowLink a b ∧ g.Hops k b c := by
  generalize hlength : k + 1 = j at h
  induction h generalizing k with
  | zero => cases hlength
  | @next j a b c way last ih =>
    obtain rfl := Nat.succ.inj hlength
    cases k with
    | zero =>
      cases way
      exact ⟨c, last, .zero c⟩
    | succ k =>
      obtain ⟨d, hfirst, hrest⟩ := ih rfl
      exact ⟨d, hfirst, hrest.next last⟩

/-- Flow leads wherever it leads over some number of links. -/
lemma exists_hops : (∃ k, g.Hops k n m) ↔ ReflTransGen g.FlowLink n m := by
  constructor
  · rintro ⟨k, h⟩
    induction h with
    | zero => exact .refl
    | next _ last ih => exact ih.tail last
  · intro h
    induction h with
    | refl => exact ⟨0, .zero n⟩
    | tail _ last ih =>
      obtain ⟨k, hk⟩ := ih
      exact ⟨k + 1, hk.next last⟩

/-! ## Ways in either direction -/

/-- Flow leads over `k` links between `n` and `m`, towards `m` or from there. -/
def Away (g : Graph) (heading : Heading) (k : Nat) (n m : NodeId) : Prop :=
  match heading with
  | .upstream => g.Hops k m n
  | .downstream => g.Hops k n m

/-- Distances along flow are up to the flow links. -/
lemma away_congr {g' : Graph} (h : g'.FlowLink = g.FlowLink) : g'.Away = g.Away := by
  have hops : ∀ {h h' : Graph}, h'.FlowLink = h.FlowLink → ∀ {k a c}, h'.Hops k a c →
      h.Hops k a c := by
    intro h h' heq k a c hway
    induction hway with
    | zero => exact .zero _
    | next _ last ih => exact ih.next (heq ▸ last)
  funext heading k n m
  cases heading with
  | upstream => exact propext ⟨hops h, hops h.symm⟩
  | downstream => exact propext ⟨hops h, hops h.symm⟩

variable {heading : Heading}

/-- Nothing but the node itself is no link away. -/
lemma away_zero_iff : g.Away heading 0 n m ↔ m = n := by
  cases heading <;>
  · constructor
    · rintro ⟨⟩
      rfl
    · rintro rfl
      exact .zero m

/-- Steps lead one link farther away. -/
lemma away_succ_iff : g.Away heading (k + 1) n m ↔ ∃ a, g.Away heading k n a ∧ m ∈ g.flowStep heading a := by
  cases heading with
  | upstream =>
    constructor
    · intro h
      obtain ⟨a, hfirst, hrest⟩ := Hops.exists_head h
      exact ⟨a, hrest, mem_flowPredecessors.mpr hfirst⟩
    · rintro ⟨a, hway, hstep⟩
      exact Hops.head (mem_flowPredecessors.mp hstep) hway
  | downstream =>
    constructor
    · intro h
      cases h with
      | next way last => exact ⟨_, way, mem_flowSuccessors.mpr last⟩
    · rintro ⟨a, hway, hstep⟩
      exact Hops.next hway (mem_flowSuccessors.mp hstep)

/-! ## Distances -/

/-- The number of flow links on a shortest way between `n` and `m`. -/
noncomputable def flowDistance (g : Graph) (heading : Heading) (n m : NodeId) : Nat :=
  sInf {k | g.Away heading k n m}

/-- The distance is the length of a way if there is a way, and no way is shorter. -/
lemma isLeast_flowDistance (h : ∃ k, g.Away heading k n m) :
    IsLeast {k | g.Away heading k n m} (g.flowDistance heading n m) :=
  ⟨Nat.sInf_mem h, fun _ hk => Nat.sInf_le hk⟩

end Graph

end Patchbay
