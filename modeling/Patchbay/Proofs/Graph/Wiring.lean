import Patchbay.Graph.AutoLink
import Patchbay.Proofs.Catalog
import Patchbay.Proofs.Graph.WellFormed

/-!
# Graphs that take their identities from a supply

A graph stays well formed only if new pins are new to it, and those come from a supply.
`Graph.Healthy` is the invariant that ties the two together, and it is closed under everything that
happens to a graph and its supply: drawing identities, linking and unlinking, adding what was drawn,
removing.

`Graph.KeptByEdits` says this of any property. Automatic wiring is made of such steps, the splice with its
way back included, so it keeps what they keep however it goes (`Graph.autoLink_kept`).
-/

namespace Patchbay

namespace Graph

/-- The graph and what the supply gives before position `n` fit together: the graph is well formed
unless position `n` has been passed, and the identities from here up to `n` differ from each other
and from those of all pins. -/
structure Healthy (n : Nat) (g : Graph) (s : Supply) : Prop where
  /-- Up to position `n` the graph is well formed. -/
  wellFormed : s.next ≤ n → g.WellFormed
  /-- No identity comes twice. -/
  distinct : ∀ i j, s.next ≤ i → i < j → j < n → s.draw i ≠ s.draw j
  /-- No identity to come is in use. -/
  unused : ∀ i, s.next ≤ i → i < n → g.owner? ⟨s.draw i⟩ = none

theorem healthy_empty {n : Nat} {s : Supply} (name : String)
    (h : ∀ i j, s.next ≤ i → i < j → j < n → s.draw i ≠ s.draw j) :
    (Graph.empty name).Healthy n s :=
  ⟨fun _ => wellFormed_empty name, h, fun _ _ _ => rfl⟩

namespace Healthy

variable {n : Nat} {g : Graph} {s : Supply} (h : g.Healthy n s)
include h

/-- Drawing identities for something else than pins. -/
theorem skip (k : Nat) : g.Healthy n (s.skip k) where
  wellFormed hn := h.wellFormed (Nat.le_of_add_right_le hn)
  distinct i j hi := h.distinct i j (Nat.le_of_add_right_le hi)
  unused i hi := h.unused i (Nat.le_of_add_right_le hi)

/-- A change that keeps the graph well formed and gives no pin an owner. -/
theorem change {g' : Graph} (hg : g.WellFormed → g'.WellFormed)
    (howner : ∀ i, g.owner? i = none → g'.owner? i = none) : g'.Healthy n s where
  wellFormed hn := hg (h.wellFormed hn)
  distinct := h.distinct
  unused i hi hn := howner _ (h.unused i hi hn)

theorem unlink (l : LinkId) : (g.unlink l).Healthy n s :=
  h.change (fun hg => hg.unlink l) fun _ hi => hi

theorem unlinkPin (i : PinId) : (g.unlinkPin i).Healthy n s :=
  h.change (fun hg => hg.unlinkPin i) fun _ hi => hi

theorem removeNode (m : NodeId) : (g.removeNode m).Healthy n s :=
  h.change (fun hg => hg.removeNode m) fun _ hi => owner?_removeNode m hi

theorem updateNode (m : NodeId) {f : Node → Node}
    (hf : ∀ a, (f a).id = a.id ∧ (f a).pins = a.pins) : (g.updateNode m f).Healthy n s :=
  h.change (fun hg => hg.updateNode m (fun a => (hf a).1) fun a => (hf a).2) fun _ hi => hi

theorem link {id : LinkId} {i j : PinId} {g' : Graph} (hlink : g.link id i j = .ok g') :
    g'.Healthy n s :=
  h.change (fun hg => hg.link hlink) fun p hp => by rwa [owner?, owner?_link hlink]

/-- A node comes in whose pins are new to the graph and are not drawn later. -/
theorem addNode {m : Node} {g' : Graph} (hadd : g.addNode m = .ok g')
    (hnodup : s.next ≤ n → (m.pins.map Pin.id).Nodup)
    (hnew : s.next ≤ n → ∀ p ∈ m.pins, g.owner? p.id = none)
    (hlater : ∀ i, s.next ≤ i → i < n → ∀ p ∈ m.pins, p.id ≠ ⟨s.draw i⟩) : g'.Healthy n s where
  wellFormed hn := (h.wellFormed hn).addNode (hnodup hn) (hnew hn) hadd
  distinct := h.distinct
  unused i hi hn := by
    rw [owner?_addNode hadd, if_neg]
    · exact h.unused i hi hn
    · intro hmem
      obtain ⟨p, hp, hid⟩ := List.mem_map.mp hmem
      exact hlater i hi hn p hp hid

/-- A node comes in whose pins have just been drawn. -/
theorem addDrawn {m : Node} {s' : Supply} {g' : Graph} (hdrawn : m.DrawnBetween s s')
    (hadd : g.addNode m = .ok g') : g'.Healthy n s' := by
  have hdraw := fun p hp => hdrawn.drawn (p := p) hp
  obtain ⟨⟨k, rfl⟩, is, hnodup, hbounds, hids⟩ := hdrawn
  have hend : (s.skip k).next = s.next + k := rfl
  refine (h.skip k).addNode hadd (fun hn => ?_) (fun hn p hp => ?_) fun i hi hn p hp heq => ?_
  · rw [hids]
    refine hnodup.map_on fun i hi j hj heq => ?_
    have hdistinct : ∀ i ∈ is, ∀ j ∈ is, i < j → s.draw i ≠ s.draw j := fun i hi j hj hij =>
      h.distinct i j (hbounds i hi).1 hij ((hbounds j hj).2.trans_le hn)
    rcases Nat.lt_trichotomy i j with hij | hij | hij
    · exact absurd (PinId.mk.inj heq) (hdistinct i hi j hj hij)
    · exact hij
    · exact absurd (PinId.mk.inj heq).symm (hdistinct j hj i hi hij)
  · obtain ⟨i, hi, hik, hid⟩ := hdraw p hp
    exact hid ▸ h.unused i hi (hik.trans_le hn)
  · obtain ⟨j, hj, hjk, hid⟩ := hdraw p hp
    exact h.distinct j i hj (hjk.trans_le hi) hn (PinId.mk.inj (hid.symm.trans heq))

end Healthy

/-! ## What wiring and edits keep -/

/-- Wiring keeps what holds of a graph and its supply: that identities are drawn, and that links are taken
out and made, does not matter. -/
structure KeptByWiring (P : Graph → Supply → Prop) : Prop where
  skip : ∀ {g s} k, P g s → P g (s.skip k)
  unlink : ∀ {g s} l, P g s → P (g.unlink l) s
  link : ∀ {g g' s id i j}, g.link id i j = .ok g' → P g s → P g' s

theorem wellFormed_keptByWiring : KeptByWiring fun g _ => g.WellFormed where
  skip _ h := h
  unlink l h := h.unlink l
  link hlink h := h.link hlink

/-- All edits keep it, if new nodes are made by the catalog `c`. -/
structure KeptByEdits (c : Catalog) (P : Graph → Supply → Prop) : Prop extends KeptByWiring P where
  empty : ∀ {g s} name, P g s → P (Graph.empty name) s
  unlinkPin : ∀ {g s} i, P g s → P (g.unlinkPin i) s
  removeNode : ∀ {g s} m, P g s → P (g.removeNode m) s
  /-- Settings may change. -/
  assign : ∀ {g s f} m, (∀ a : Node, a.Assigned (f a)) → P g s → P (g.updateNode m f) s
  /-- New nodes may come in, whatever their settings are. -/
  create : ∀ {g g' s s' name id m m'}, c.create? name id s = some (m, s') → m.Assigned m' →
    g.addNode m' = .ok g' → P g s → P g' s'

/-- The pins of a new node may be drawn in vain. -/
theorem KeptByEdits.drawn {c : Catalog} {P : Graph → Supply → Prop} (hP : KeptByEdits c P) {g : Graph}
    {s s' : Supply} {name : String} {id : NodeId} {m : Node}
    (hcreate : c.create? name id s = some (m, s')) (h : P g s) : P g s' := by
  obtain ⟨k, -, rfl⟩ := (Catalog.create?_spec hcreate).2
  exact hP.skip k h

theorem healthy_keptByEdits (n : Nat) (c : Catalog) : KeptByEdits c (Healthy n) where
  skip k h := h.skip k
  unlink l h := h.unlink l
  link hlink h := h.link hlink
  empty name h := healthy_empty name h.distinct
  unlinkPin i h := h.unlinkPin i
  removeNode m h := h.removeNode m
  assign m hf h := h.updateNode m fun a => ⟨(hf a).id, (hf a).pins⟩
  create hcreate hassigned hadd h :=
    h.addDrawn (hassigned.drawnFrom (Catalog.create?_spec hcreate).2).between hadd

/-- Edits keep another property on top of one that they keep, if it is up to the nodes and the supply and new
nodes have it. -/
theorem KeptByEdits.and_of_nodes {c : Catalog} {P Q : Graph → Supply → Prop} (hP : KeptByEdits c P)
    (hskip : ∀ {g s} k, Q g s → Q g (s.skip k))
    (hnodes : ∀ {g g' s}, Q g s → (∀ m ∈ g'.nodes, ∃ a ∈ g.nodes, a.Assigned m) → Q g' s)
    (hcreate : ∀ {g g' s s' name id m m'}, c.create? name id s = some (m, s') → m.Assigned m' →
      g.addNode m' = .ok g' → P g s → Q g s → Q g' s') :
    KeptByEdits c fun g s => P g s ∧ Q g s where
  skip k h := ⟨hP.skip k h.1, hskip k h.2⟩
  unlink l h := ⟨hP.unlink l h.1, hnodes h.2 fun m hm => ⟨m, hm, m.assigned_refl⟩⟩
  link hlink h := by
    refine ⟨hP.link hlink h.1, hnodes h.2 fun m hm => ?_⟩
    obtain ⟨_, _, _, _, _, -, -, -, -, rfl, -⟩ := link_spec hlink
    exact ⟨m, hm, m.assigned_refl⟩
  empty name h := ⟨hP.empty name h.1, hnodes h.2 fun m hm => absurd hm List.not_mem_nil⟩
  unlinkPin i h := ⟨hP.unlinkPin i h.1, hnodes h.2 fun m hm => ⟨m, hm, m.assigned_refl⟩⟩
  removeNode k h := ⟨hP.removeNode k h.1, hnodes h.2 fun m hm =>
    ⟨m, (List.mem_filter.mp hm).1, m.assigned_refl⟩⟩
  assign k hf h := by
    refine ⟨hP.assign k hf h.1, hnodes h.2 fun m hm => ?_⟩
    obtain ⟨a, ha, rfl⟩ := List.mem_map.mp hm
    refine ⟨a, ha, ?_⟩
    split
    · exact hf a
    · exact a.assigned_refl
  create hcreated hassigned hadd h :=
    ⟨hP.create hcreated hassigned hadd h.1, hcreate hcreated hassigned hadd h.1 h.2⟩

/-- A link is made unless it is refused. -/
theorem KeptByWiring.linkIfAccepted {P : Graph → Supply → Prop} (hP : KeptByWiring P) {g : Graph}
    {s : Supply} (h : P g s) (id : LinkId) (i j : PinId) :
    P (match g.link id i j with
      | .ok g' => g'
      | .error _ => g) s := by
  split
  · rename_i hlink
    exact hP.link hlink h
  · exact h

/-! ## Automatic wiring -/

namespace Wired

/-- It holds of the graph being wired and the supply that it has got to. -/
def Upholds (P : Graph → Supply → Prop) (w : Wired) : Prop := P w.graph w.supply

variable {P : Graph → Supply → Prop} (hP : KeptByWiring P) {w : Wired} (h : w.Upholds P)
include hP h

theorem tryLink_kept (source target : PinId) : (w.tryLink source target).Upholds P := by
  simp only [tryLink]
  split
  · rename_i hlink
    exact hP.link hlink (hP.skip 1 h)
  · exact h

/-- A splice keeps it whichever of its links are refused: it adds links one by one, and on its way back
it takes out what it has added and links once more. -/
theorem splice_kept (l : Link) (input output : PinId) : (w.splice l input output).Upholds P := by
  set headId := w.supply.takeLink.1
  set tailId := w.supply.takeLink.2.takeLink.1
  have hbare := hP.unlink l.id (hP.skip 1 (hP.skip 1 h))
  have hmid := hP.linkIfAccepted hbare headId l.fromPin input
  simp only [splice]
  split
  · -- both halves are accepted
    rename_i hhead htail
    exact hP.link htail hmid
  · have hafter := hP.linkIfAccepted hmid tailId output l.toPin
    have hcleared := hP.skip 1 (hP.unlink tailId (hP.unlink headId hafter))
    split
    · rename_i hagain
      exact hP.link hagain hcleared
    · exact hcleared

theorem attachIn_kept (m : NodeId) (place : Point) (flowIn : Option PinId) :
    (w.attachIn m place flowIn).Upholds P := by
  cases flowIn with
  | none => exact h
  | some input =>
    simp only [attachIn]
    split
    · exact tryLink_kept hP h _ _
    · exact h

theorem attachOut_kept (m : NodeId) (place : Point) (flowOut : Option PinId) :
    (w.attachOut m place flowOut).Upholds P := by
  cases flowOut with
  | none => exact h
  | some output =>
    simp only [attachOut]
    split
    · exact tryLink_kept hP h _ _
    · exact h

theorem linkFlow_kept (m : NodeId) (place : Point) (flowIn flowOut : Option PinId) :
    (w.linkFlow m place flowIn flowOut).Upholds P := by
  have hends := attachOut_kept hP (attachIn_kept hP h m place flowIn) m place flowOut
  cases flowIn with
  | none => exact hends
  | some input =>
    cases flowOut with
    | none => exact hends
    | some output =>
      simp only [linkFlow]
      split
      · exact splice_kept hP h _ _ _
      · exact hends

theorem linkInput_kept (m : NodeId) (input : PinId) : (w.linkInput m input).Upholds P := by
  rw [linkInput]
  split
  · exact h
  · split
    · exact tryLink_kept hP h _ _
    · exact h

theorem linkOutput_kept (m : NodeId) (output : PinId) : (w.linkOutput m output).Upholds P := by
  rw [linkOutput]
  split
  · exact h
  · split
    · exact tryLink_kept hP h _ _
    · exact h

end Wired

/-- **Automatic wiring** draws identities and makes and takes out links, and nothing else. -/
theorem autoLink_kept {P : Graph → Supply → Prop} (hP : KeptByWiring P) {g : Graph} {s : Supply}
    (h : P g s) {m : NodeId} {w : Wired} (hw : g.autoLink m s = .ok w) : P w.graph w.supply := by
  rw [autoLink] at hw
  split at hw
  · cases hw
  · rename_i a _
    obtain rfl := Except.ok.inj hw
    have hstart : (Wired.mk g s .none).Upholds P := h
    have hflow := Wired.linkFlow_kept hP hstart m a.position (g.freePin? a.advertised.flowIn)
      (g.freePin? a.advertised.flowOut)
    have hin := List.foldlRecOn (g.freeData a.advertised.dataIn) (Wired.linkInput m) hflow
      fun w hw input _ => Wired.linkInput_kept hP hw m input
    exact List.foldlRecOn (g.freeData a.advertised.dataOut) (Wired.linkOutput m) hin
      fun w hw output _ => Wired.linkOutput_kept hP hw m output

end Graph

end Patchbay
