import Patchbay.Proofs.Session.Health

/-!
# Everything that a host can do to a session

`Operation` lists what a host can ask of a session, and what it can do behind the back of the session
to the graph itself. `Session.performAll` performs a list of operations on a session, each of which
may succeed or fail. The main result, `Session.performAll_wellFormed`, is that no list of operations
that begins with an empty graph leads to a graph that is not well formed.

Two things are asked of the host and its supply, and no more. The identities drawn on the way differ
from each other. And where the host goes past the session, it brings nodes whose pins are new, and
changes nodes without touching identities (`Operation.Careful`).
-/

namespace Patchbay

/-- What a host can ask of a session, and of its graph. -/
inductive Operation where
  | insertNode (typeName : String) (position : Point)
  | appendNode (typeName : String) (position : Point)
  | deleteNode (m : NodeId)
  | link (source target : PinId)
  | linkByName (source target : NodeId × String)
  | unlink (l : LinkId)
  | setInput (m : NodeId) (name : String) (value : Value)
  | editNode (expected : NodeClass) (m : NodeId) (changes : List NodeChange)
  | changeSetting (expected : NodeClass) (m : NodeId) (changes : List NodeChange)
  | load (doc : Json)
  | loadText (text : Option String)
  | merge (doc : Json)
  | run
  | observe (observer : Option Observer)
  /-- Any steps of runs over the graph. -/
  | perform (x : RunM Unit)
  /-- Takes identities for the host itself. -/
  | take (count : Nat)
  /-- Adds a node of the host to the graph; nobody is told of this and of what follows. -/
  | addToGraph (m : Node)
  | removeFromGraph (m : NodeId)
  | assignInGraph (m : NodeId) (changes : List NodeChange)
  | updateInGraph (m : NodeId) (f : Node → Node)
  | linkInGraph (source target : PinId)
  | unlinkInGraph (l : LinkId)
  | unlinkPin (i : PinId)
  | wire (m : NodeId)

namespace Session

/-- Performs an operation; what it answers is of no interest here. -/
def perform (s : Session) : Operation → Session
  | .insertNode typeName position => (insertNode typeName position s).2
  | .appendNode typeName position => (appendNode typeName position s).2
  | .deleteNode m => (deleteNode m s).2
  | .link source target => (link source target s).2
  | .linkByName source target => (linkByName source target s).2
  | .unlink l => (unlink l s).2
  | .setInput m name value => (setInput m name value s).2
  | .editNode expected m changes => (editNode expected m changes s).2
  | .changeSetting expected m changes => (changeSetting expected m changes s).2
  | .load doc => (load doc s).2
  | .loadText text => (loadText text s).2
  | .merge doc => (merge doc s).2
  | .run => (run s).2
  | .observe observer => { s with observer }
  | .perform x => (s.performRun x).2
  | .take count => { s with supply := s.supply.skip count }
  | .addToGraph m =>
    match s.graph.addNode m with
    | .ok graph => { s with graph }
    | .error _ => s
  | .removeFromGraph m => s.withoutNode m
  | .assignInGraph m changes =>
    { s with graph := s.graph.updateNode m fun a => a.applyAll changes }
  | .updateInGraph m f => { s with graph := s.graph.updateNode m f }
  | .linkInGraph source target =>
    match s.graph.link s.supply.takeLink.1 source target with
    | .ok graph => { s with graph, supply := s.supply.takeLink.2 }
    | .error _ => s
  | .unlinkInGraph l => { s with graph := s.graph.unlink l }
  | .unlinkPin i => { s with graph := s.graph.unlinkPin i }
  | .wire m => (s.wire m).2

/-- Performs operations in order. -/
def performAll (s : Session) (ops : List Operation) : Session := ops.foldl perform s

end Session

/-- What a host owes the graph when it goes past the session, if identities are drawn up to position
`n`: the pins of its nodes have identities of their own, which are not in use and are not drawn
later, and its changes leave identities alone. -/
def Operation.Careful (n : Nat) (s : Session) : Operation → Prop
  | .addToGraph m =>
    (m.pins.map Pin.id).Nodup ∧ ∀ p ∈ m.pins, s.graph.owner? p.id = none ∧
      ∀ i, s.supply.next ≤ i → i < n → p.id ≠ ⟨s.supply.draw i⟩
  | .updateInGraph _ f => ∀ m, (f m).id = m.id ∧ (f m).pins = m.pins
  | _ => True

namespace Session

/-- Every operation is careful when its turn comes. -/
def Careful (n : Nat) : Session → List Operation → Prop
  | _, [] => True
  | s, op :: rest => op.Careful n s ∧ (s.perform op).Careful n rest

/-- **Every operation keeps what edits of a graph keep**, as long as the nodes and the changes of the host
do. -/
theorem perform_upholds {c : Catalog} {P : Graph → Supply → Prop} (hP : Graph.KeptByEdits c P)
    {s : Session} (hs : s.Upholds c P) {op : Operation}
    (hadd : ∀ m graph, op = .addToGraph m → s.graph.addNode m = .ok graph → P graph s.supply)
    (hupdate : ∀ m f, op = .updateInGraph m f → P (s.graph.updateNode m f) s.supply) :
    (s.perform op).Upholds c P := by
  cases op with
  | insertNode typeName position | appendNode typeName position =>
    exact addNode_keeps hP _ typeName position s hs
  | deleteNode m => exact deleteNode_keeps hP m s hs
  | link source target => exact link_keeps hP source target s hs
  | linkByName source target => exact linkByName_keeps hP source target s hs
  | unlink l => exact unlink_keeps hP l s hs
  | setInput m name value => exact setInput_keeps hP m name value s hs
  | editNode expected m changes | changeSetting expected m changes =>
    exact change_keeps hP _ expected m changes s hs
  | load doc => exact load_keeps hP doc s hs
  | loadText text => exact loadText_keeps hP text s hs
  | merge doc => exact merge_keeps hP doc s hs
  | run | observe | perform => exact ⟨hs.catalog, hs.kept⟩
  | take count => exact ⟨hs.catalog, hP.skip count hs.kept⟩
  | addToGraph m =>
    simp only [perform]
    split
    · rename_i graph hgraph
      exact ⟨hs.catalog, hadd m graph rfl hgraph⟩
    · exact hs
  | removeFromGraph m => exact ⟨hs.catalog, hP.removeNode m hs.kept⟩
  | assignInGraph m changes =>
    exact ⟨hs.catalog, hP.assign m (fun a => a.assigned_applyAll changes) hs.kept⟩
  | updateInGraph m f => exact ⟨hs.catalog, hupdate m f rfl⟩
  | linkInGraph source target =>
    simp only [perform]
    split
    · rename_i hlink
      exact ⟨hs.catalog, hP.link hlink (hP.skip 1 hs.kept)⟩
    · exact hs
  | unlinkInGraph l => exact ⟨hs.catalog, hP.unlink l hs.kept⟩
  | unlinkPin i => exact ⟨hs.catalog, hP.unlinkPin i hs.kept⟩
  | wire m => exact wire_upholds hP hs m

/-- A careful host keeps the graph healthy when it puts in a node of its own. -/
theorem Healthy.addToGraph {n : Nat} {s : Session} (hs : s.Healthy n) {m : Node}
    (hop : (Operation.addToGraph m).Careful n s) {graph : Graph}
    (hgraph : s.graph.addNode m = .ok graph) : graph.Healthy n s.supply := by
  obtain ⟨hnodup, hpins⟩ := hop
  exact hs.addNode hgraph (fun _ => hnodup) (fun _ p hp => (hpins p hp).1)
    fun i hi hn p hp => (hpins p hp).2 i hi hn

/-- Every careful operation leaves a healthy session healthy. -/
theorem perform_healthy {n : Nat} {s : Session} {op : Operation} (hs : s.Healthy n)
    (hop : op.Careful n s) : (s.perform op).Healthy n := by
  have hupholds : s.Upholds s.catalog (Graph.Healthy n) := ⟨rfl, hs⟩
  refine (perform_upholds (Graph.healthy_keptByEdits n s.catalog) hupholds ?_ ?_).kept
  · rintro m graph rfl hgraph
    exact hs.addToGraph hop hgraph
  · rintro m f rfl
    exact hs.updateNode m hop

theorem performAll_healthy {n : Nat} {s : Session} {ops : List Operation} (hs : s.Healthy n)
    (hops : s.Careful n ops) : (s.performAll ops).Healthy n := by
  induction ops generalizing s with
  | nil => exact hs
  | cons op rest ih => exact ih (perform_healthy hs hops.1) hops.2

/-- **Every graph that a host can reach is well formed.** Whatever is done to a session that begins
with an empty graph, in whatever order, whether it succeeds or fails: if the identities drawn on the
way differ and the host is careful, the nodes and their pins have identities of their own, the index
knows exactly the pins of the nodes, every link joins an output to an input of another node, and no
input is fed twice. -/
theorem performAll_wellFormed (catalog : Catalog) (supply : Supply) (ops : List Operation)
    (hdraws : ∀ i j, supply.next ≤ i → i < j →
      j < ((new catalog supply).performAll ops).supply.next → supply.draw i ≠ supply.draw j)
    (hops : (new catalog supply).Careful ((new catalog supply).performAll ops).supply.next ops) :
    ((new catalog supply).performAll ops).graph.WellFormed := by
  have hstart : (new catalog supply).Healthy ((new catalog supply).performAll ops).supply.next :=
    Graph.healthy_empty "Untitled" hdraws
  exact (performAll_healthy hstart hops).wellFormed le_rfl

/-! ## A host that wires what it puts in -/

/-- A host lets an observer wire a start node and an end node, asks for a node of no known type, and
then puts in and changes a node of its own behind the back of the session. -/
def exampleOperations : List Operation :=
  [.observe (some hostObserver), .insertNode "Start" .zero, .insertNode "End" .zero,
    .insertNode "Unknown" .zero,
    .addToGraph
      { id := ⟨.ofNat 1⟩, name := "Mine", position := .zero, enabled := true
        body := .constant ⟨.ofNat 2⟩ 1 },
    .updateInGraph ⟨.ofNat 1⟩ fun m => m.apply (.enabled false)]

/-- The example links its first two nodes and leads to a well-formed graph of three. -/
theorem exampleOperations_wellFormed :
    let s := (new .builtin (.countingFrom 0)).performAll exampleOperations
    s.graph.links.length = 1 ∧ s.graph.nodes.length = 3 ∧ s.graph.WellFormed := by
  refine ⟨by decide +kernel, by decide +kernel, ?_⟩
  have hnext : ((new .builtin (.countingFrom 0)).performAll exampleOperations).supply.next = 6 := by
    decide +kernel
  refine performAll_wellFormed .builtin (.countingFrom 0) exampleOperations ?_ ?_
  · intro i j _ hij hj
    exact Supply.countingFrom_distinct hij (by omega)
  · rw [hnext]
    refine ⟨trivial, trivial, trivial, trivial, ⟨?_, ?_⟩, fun m => ⟨rfl, rfl⟩, trivial⟩
    · decide +kernel
    · intro p hp
      obtain rfl := List.mem_singleton.mp hp
      refine ⟨by decide +kernel, fun i hi hn => ?_⟩
      -- nothing is drawn after the node has come in
      exact absurd hn (Nat.not_lt.mpr (Nat.le_trans (by decide +kernel) hi))

end Session

end Patchbay
