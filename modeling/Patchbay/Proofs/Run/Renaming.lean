import Patchbay.Proofs.Graph.Beside
import Patchbay.Proofs.Graph.Reach

/-!
# Graphs that differ in the identities of their pins

A document does not keep the identities of pins, so a graph that is read back has others.
`Graph.Renamed σ g g'` says that `g'` is the graph `g` with the pins renamed by a permutation `σ` of
identities: nodes and links correspond one to one, in order, and the nodes keep their identities. Where
nodes stand on the canvas and what links are called is left open.

All that a run asks a graph for is then the same up to the renaming: which node owns a pin, what the pin
is like, where its value comes from and where flow goes from it.
-/

namespace Patchbay

/-! ## Renaming -/

/-- The pin with its identity renamed. -/
def Pin.rename (σ : Equiv.Perm PinId) (p : Pin) : Pin := { p with id := σ p.id }

def FinishPins.rename (σ : Equiv.Perm PinId) (p : FinishPins) : FinishPins :=
  ⟨σ p.enter, σ p.frame⟩

def BranchPins.rename (σ : Equiv.Perm PinId) (p : BranchPins) : BranchPins :=
  ⟨σ p.enter, σ p.condition, σ p.onTrue, σ p.onFalse⟩

def TransitionPins.rename (σ : Equiv.Perm PinId) (p : TransitionPins) : TransitionPins :=
  ⟨σ p.enter, σ p.first, σ p.second, σ p.pos, σ p.exit, σ p.out⟩

/-- The body with the identities of its pins renamed. -/
def Body.rename (σ : Equiv.Perm PinId) : Body → Body
  | .start out => .start (σ out)
  | .finish pins => .finish (pins.rename σ)
  | .constant out value => .constant (σ out) value
  | .picture out settings => .picture (σ out) settings
  | .branch pins => .branch (pins.rename σ)
  | .transition pins settings => .transition (pins.rename σ) settings
  | .scripted type inputs outputs =>
    .scripted type (inputs.map (Pin.rename σ)) (outputs.map (Pin.rename σ))

/-- Node `b` is node `a` with its pins renamed, wherever it stands. -/
structure Node.Renamed (σ : Equiv.Perm PinId) (a b : Node) : Prop where
  id : b.id = a.id
  name : b.name = a.name
  enabled : b.enabled = a.enabled
  body : b.body = a.body.rename σ

/-- Link `l` joins the renamed pins that link `k` joins. -/
structure Link.Renamed (σ : Equiv.Perm PinId) (k l : Link) : Prop where
  fromNode : l.fromNode = k.fromNode
  fromPin : l.fromPin = σ k.fromPin
  toNode : l.toNode = k.toNode
  toPin : l.toPin = σ k.toPin
  flow : l.flow = k.flow

/-- Graph `g'` is graph `g` with its pins renamed. -/
structure Graph.Renamed (σ : Equiv.Perm PinId) (g g' : Graph) : Prop where
  nodes : List.Forall₂ (Node.Renamed σ) g.nodes g'.nodes
  links : List.Forall₂ (Link.Renamed σ) g.links g'.links
  owner? : ∀ i, g'.owner? (σ i) = g.owner? i

/-! ## Lists side by side -/

section Lists

variable {α β : Type} {R : α → β → Prop} {xs : List α} {ys : List β}

/-- In corresponding lists, corresponding items are found first. -/
theorem rel_find? (h : List.Forall₂ R xs ys) {p : α → Bool} {q : β → Bool}
    (hpq : ∀ x y, R x y → p x = q y) : Option.Rel R (xs.find? p) (ys.find? q) :=
  rel_mono (fun _ _ hmem => (List.forall₂_iff_zip.mp h).2 hmem) (find?_rel (h.imp hpq))

theorem rel_head? (h : List.Forall₂ R xs ys) : Option.Rel R xs.head? ys.head? := by
  cases h with
  | nil => exact .none
  | cons hxy _ => exact .some hxy

/-- Every item of the first list corresponds to one of the second. -/
theorem exists_mem_right (h : List.Forall₂ R xs ys) {x : α} (hx : x ∈ xs) : ∃ y ∈ ys, R x y := by
  obtain ⟨i, hi, rfl⟩ := List.getElem_of_mem hx
  have hi' : i < ys.length := h.length_eq ▸ hi
  exact ⟨ys[i], List.getElem_mem hi', List.forall₂_iff_get.mp h |>.2 i hi hi'⟩

/-- Every item of the second list corresponds to one of the first. -/
theorem exists_mem_left (h : List.Forall₂ R xs ys) {y : β} (hy : y ∈ ys) : ∃ x ∈ xs, R x y :=
  exists_mem_right h.flip hy

/-- Items that correspond have the same image. -/
theorem map_eq_of_forall₂ {γ : Type} {f : α → γ} {k : β → γ} (h : List.Forall₂ R xs ys)
    (hfk : ∀ x y, R x y → k y = f x) : ys.map k = xs.map f := by
  induction h with
  | nil => rfl
  | cons hxy _ ih => rw [List.map_cons, List.map_cons, hfk _ _ hxy, ih]

end Lists

/-! ## Nodes -/

theorem Body.rename_side (σ : Equiv.Perm PinId) (b : Body) (d : Direction) :
    (b.rename σ).side d = (b.side d).map (Pin.rename σ) := by
  cases b <;> cases d <;> rfl

theorem Body.rename_info (σ : Equiv.Perm PinId) (b : Body) : (b.rename σ).info = b.info := by
  cases b <;> rfl

theorem Body.rename_isBuiltin (σ : Equiv.Perm PinId) (b : Body) :
    (b.rename σ).isBuiltin = b.isBuiltin := by
  cases b <;> rfl

namespace Node.Renamed

variable {σ : Equiv.Perm PinId} {a b : Node} (h : Node.Renamed σ a b)
include h

theorem pins : b.pins = a.pins.map (Pin.rename σ) := by
  have hinputs := a.body.rename_side σ .input
  have houtputs := a.body.rename_side σ .output
  rw [← h.body] at hinputs houtputs
  rw [Node.pins, Node.pins, List.map_append]
  exact congrArg₂ _ hinputs houtputs

theorem role : b.role = a.role := by
  rw [Node.role, Node.info, h.body, Body.rename_info]
  rfl

theorem isExit : b.isExit = a.isExit := by
  rw [Node.isExit, Node.isExit, h.role]

/-- A node asks for the same pins. -/
theorem reads : b.reads = a.reads.map (Pin.rename σ) := by
  rw [Node.reads, Node.reads, h.body, h.enabled]
  cases a.body with
  | branch pins => cases a.enabled <;> rfl
  | _ => rfl

theorem pin? (i : PinId) : b.pin? (σ i) = (a.pin? i).map (Pin.rename σ) := by
  have hsame : ((fun p => p.id == σ i) ∘ Pin.rename σ) = fun p => p.id == i := by
    funext p
    exact Bool.eq_iff_iff.mpr (by simp [Pin.rename])
  rw [Node.pin?, h.pins, List.find?_map, hsame]
  rfl

end Node.Renamed

/-! ## Graphs -/

namespace Graph.Renamed

variable {σ : Equiv.Perm PinId} {g g' : Graph} (h : Graph.Renamed σ g g')
include h

theorem node? (n : NodeId) : Option.Rel (Node.Renamed σ) (g.node? n) (g'.node? n) :=
  rel_find? h.nodes fun a b hab => by rw [hab.id]

/-- A node is there in both graphs or in neither. -/
theorem node?_cases (n : NodeId) : (g.node? n = none ∧ g'.node? n = none) ∨
    ∃ a b, g.node? n = some a ∧ g'.node? n = some b ∧ Node.Renamed σ a b := by
  have hnode := h.node? n
  generalize g.node? n = a, g'.node? n = b at hnode ⊢
  cases hnode with
  | none => exact Or.inl ⟨rfl, rfl⟩
  | some hab => exact Or.inr ⟨_, _, rfl, rfl, hab⟩

theorem isBuiltin (hb : g.IsBuiltin) : g'.IsBuiltin := by
  intro b hmem
  obtain ⟨a, ha, hab⟩ := exists_mem_left h.nodes hmem
  rw [hab.body, Body.rename_isBuiltin]
  exact hb a ha

theorem length_nodes : g'.nodes.length = g.nodes.length := h.nodes.length_eq.symm

theorem hasNode (n : NodeId) : g'.hasNode n = g.hasNode n := by
  have hids : g'.nodeIds = g.nodeIds := map_eq_of_forall₂ h.nodes fun a b hab => hab.id
  rw [Bool.eq_iff_iff, hasNode_iff, hasNode_iff, hids]

theorem pin? (i : PinId) : g'.pin? (σ i) = (g.pin? i).map (Pin.rename σ) := by
  simp only [Graph.pin?, h.owner?, Option.bind_eq_bind]
  cases g.owner? i with
  | none => rfl
  | some n =>
    rcases h.node?_cases n with ⟨hleft, hright⟩ | ⟨a, b, hleft, hright, hab⟩
    · simp only [Option.bind_some, hleft, hright, Option.bind_none, Option.map_none]
    · simp only [Option.bind_some, hleft, hright, hab.pin?]

/-- The display name of a node. -/
theorem nodeName (n : NodeId) : (g'.node? n).map Node.name = (g.node? n).map Node.name := by
  rcases h.node?_cases n with ⟨hleft, hright⟩ | ⟨a, b, hleft, hright, hab⟩
  · rw [hleft, hright]
  · rw [hleft, hright, Option.map_some, Option.map_some, hab.name]

/-- **Values come from the same place.** -/
theorem sourceOf? (p : Pin) : g'.sourceOf? (p.rename σ) = (g.sourceOf? p).map σ := by
  rw [Graph.sourceOf?, Graph.sourceOf?, Pin.rename]
  cases p.direction with
  | output => rfl
  | input =>
    have hlink : Option.Rel (Link.Renamed σ) (g.linkTo? p.id) (g'.linkTo? (σ p.id)) :=
      rel_find? h.links fun k l hkl => by
        rw [hkl.toPin]
        exact Bool.eq_iff_iff.mpr (by simp)
    show (g'.linkTo? (σ p.id)).map Link.fromPin = ((g.linkTo? p.id).map Link.fromPin).map σ
    generalize g.linkTo? p.id = k, g'.linkTo? (σ p.id) = l at hlink ⊢
    cases hlink with
    | none => rfl
    | some hkl => exact congrArg some hkl.fromPin

/-- The first link that leaves a pin. -/
theorem firstLink (i : PinId) :
    ((g'.linksFrom (σ i)).head?.map fun l => (l.toNode, l.toPin)) =
      ((g.linksFrom i).head?.map fun l => (l.toNode, l.toPin)).map fun x => (x.1, σ x.2) := by
  have hlinks : List.Forall₂ (Link.Renamed σ) (g.linksFrom i) (g'.linksFrom (σ i)) :=
    List.rel_filter (fun k l hkl => by simp [hkl.fromPin]) h.links
  have hfirst := rel_head? hlinks
  generalize (g.linksFrom i).head? = k, (g'.linksFrom (σ i)).head? = l at hfirst ⊢
  cases hfirst with
  | none => rfl
  | some hkl =>
    simp only [Option.map_some, hkl.toNode, hkl.toPin]

theorem entryNode : g'.entryNode = g.entryNode := by
  have hentry : List.Forall₂ (Node.Renamed σ) (g.nodes.filter Node.isEntry)
      (g'.nodes.filter Node.isEntry) :=
    List.rel_filter (fun a b hab => by simp [Node.isEntry, hab.role]) h.nodes
  rw [Graph.entryNode, Graph.entryNode]
  generalize g.nodes.filter Node.isEntry = as, g'.nodes.filter Node.isEntry = bs at hentry ⊢
  cases hentry with
  | nil => rfl
  | cons hab hrest =>
    cases hrest with
    | nil => simp only [hab.id]
    | cons _ _ => rfl

/-- **Whether a graph can run** has nothing to do with the identities of pins. -/
theorem checkRunnable : g'.checkRunnable = g.checkRunnable := by
  have hexits : g'.exitNodes = g.exitNodes :=
    map_eq_of_forall₂ (List.rel_filter (fun a b hab => by simp [hab.isExit]) h.nodes)
      fun a b hab => hab.id
  have hstep : g'.flowSuccessors = g.flowSuccessors := funext fun n =>
    map_eq_of_forall₂ (List.rel_filter (fun k l hkl => by simp [hkl.flow, hkl.fromNode]) h.links)
      fun k l hkl => hkl.toNode
  rw [Graph.checkRunnable, Graph.checkRunnable, h.entryNode, hexits]
  simp only [searchFlow_congr hstep]

end Graph.Renamed

/-! ## Copies -/

/-- Bodies of one built-in kind with the same settings differ by a renaming of their pins. -/
theorem Body.eq_rename {σ : Equiv.Perm PinId} {b b' : Body} (hb : b.isBuiltin = true)
    (hblank : b.blank = b'.blank)
    (hpins : ∀ x ∈ (b.inputs ++ b.outputs).zip (b'.inputs ++ b'.outputs), σ x.1.id = x.2.id) :
    b' = b.rename σ := by
  cases b with
  | scripted => cases hb
  | start out =>
    cases b' <;> cases hblank
    exact congrArg Body.start (hpins _ (.head _)).symm
  | finish pins =>
    cases b' <;> cases hblank
    simp [inputs, outputs, Pin.input, FinishPins.enterPin, FinishPins.framePin] at hpins
    simp [rename, FinishPins.rename, hpins]
  | constant out value =>
    cases b' <;> cases hblank
    exact congrArg (Body.constant · value) (hpins _ (.head _)).symm
  | picture out settings =>
    cases b' <;> cases hblank
    exact congrArg (Body.picture · settings) (hpins _ (.head _)).symm
  | branch pins =>
    cases b' <;> cases hblank
    simp [inputs, outputs, Pin.input, Pin.output, BranchPins.enterPin, BranchPins.conditionPin,
      BranchPins.truePin, BranchPins.falsePin] at hpins
    simp [rename, BranchPins.rename, hpins]
  | transition pins settings =>
    cases b' <;> cases hblank
    simp [inputs, outputs, Pin.input, Pin.output, TransitionPins.enterPin, TransitionPins.firstPin,
      TransitionPins.secondPin, TransitionPins.posPin, TransitionPins.exitPin,
      TransitionPins.outPin] at hpins
    simp [rename, TransitionPins.rename, hpins]

/-- Alike nodes of one identity differ by a renaming of their pins. -/
theorem Node.renamed_of_blank {σ : Equiv.Perm PinId} {a b : Node} (ha : a.body.isBuiltin = true)
    (hid : b.id = a.id) (hblank : a.blank = b.blank)
    (hpins : ∀ x ∈ a.pins.zip b.pins, σ x.1.id = x.2.id) : Node.Renamed σ a b where
  id := hid
  name := (congrArg Node.name hblank).symm
  enabled := (congrArg Node.enabled hblank).symm
  body := Body.eq_rename ha (congrArg Node.body hblank) hpins

/-- Some renaming takes the first pin of each pair to the second one, if no pin is there twice. -/
theorem exists_renaming {xs : List (Pin × Pin)} (hleft : (xs.map fun x => x.1.id).Nodup)
    (hright : (xs.map fun x => x.2.id).Nodup) :
    ∃ σ : Equiv.Perm PinId, ∀ x ∈ xs, σ x.1.id = x.2.id := by
  have hfinite : Finite {x // x ∈ xs} := (List.finite_toSet xs).to_subtype
  obtain ⟨σ, hσ⟩ := Equiv.Perm.exists_extending_pair
    (fun x : {x // x ∈ xs} => x.1.1.id) (fun x => x.1.2.id)
    (fun x y h => Subtype.ext (List.inj_on_of_nodup_map hleft x.2 y.2 h))
    (fun x y h => Subtype.ext (List.inj_on_of_nodup_map hright x.2 y.2 h))
  exact ⟨σ, fun x hx => hσ ⟨x, hx⟩⟩

/-- **A copy is a renaming**: a graph of built-in nodes and a copy of it beside nothing, in which the
nodes have kept their identities, differ in the identities of pins. -/
theorem Graph.Beside.renamed {host g g' : Graph} {ns : List (Node × Node)} {ls : List (Link × Link)}
    (h : Beside host g g' ns ls) (hnodes : host.nodes = []) (hlinks : host.links = [])
    (hb : g.IsBuiltin) (hids : ∀ a ∈ ns, a.2.id = a.1.id) : ∃ σ, g.Renamed σ g' := by
  obtain ⟨σ, hσ⟩ := exists_renaming h.nodup_pinPairs.1 h.nodup_pinPairs.2
  have hnode : ∀ a ∈ ns, Node.Renamed σ a.1 a.2 := fun a ha =>
    Node.renamed_of_blank (hb _ (h.mem_left ha)) (hids a ha) (h.alike a ha)
      fun x hx => hσ x (mem_pinPairs ha hx)
  have hlink : ∀ k ∈ ls, Link.Renamed σ k.1 k.2 := by
    intro k hk
    obtain ⟨a, b, p, q, hk⟩ := h.linked k hk
    have hp := hσ p (mem_pinPairs hk.source hk.owns_source)
    have hq := hσ q (mem_pinPairs hk.target hk.owns_target)
    rw [hk.left, hk.right]
    exact ⟨hids a hk.source, hp.symm, hids b hk.target, hq.symm, rfl⟩
  have hall : List.Forall₂ (Node.Renamed σ) g.nodes g'.nodes := by
    rw [h.nodes, h.nodes', hnodes, List.nil_append, List.forall₂_map_left_iff,
      List.forall₂_map_right_iff, List.forall₂_same]
    exact hnode
  refine ⟨σ, hall, ?_, fun i => Option.ext fun n => ?_⟩
  · rw [h.links, h.links', hlinks, List.nil_append, List.forall₂_map_left_iff,
      List.forall₂_map_right_iff, List.forall₂_same]
    exact hlink
  · rw [h.wellFormed'.owner?_iff, h.wellFormed.owner?_iff]
    constructor
    · rintro ⟨m, hm, rfl, q, hq, hqi⟩
      obtain ⟨a, ha, ham⟩ := exists_mem_left hall hm
      rw [ham.pins] at hq
      obtain ⟨p, hp, rfl⟩ := List.mem_map.mp hq
      exact ⟨a, ha, ham.id.symm, p, hp, σ.injective hqi⟩
    · rintro ⟨a, ha, rfl, p, hp, rfl⟩
      obtain ⟨m, hm, ham⟩ := exists_mem_right hall ha
      exact ⟨m, hm, ham.id, p.rename σ, ham.pins ▸ List.mem_map_of_mem hp, rfl⟩

end Patchbay
