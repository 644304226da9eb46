import Patchbay.Proofs.Graph.Sides

/-!
# What wiring asks for

Wiring asks a graph for links, and a link that is refused leaves no trace. `Graph.Recorded` is a graph being
wired together with a record of all requests, so that one can say that none has been refused.
`Graph.autoLinkRecorded` is wiring with this record, its steps written once for both sides of a node. But for the
record it does what `Graph.autoLink` does (`Graph.autoLinkRecorded_toWired`).

A request that is granted comes to a link at the end (`Recorded.grown`). What is made of such requests alone
(`Recorded.Makes`) can be read off the links: each of them was made to the links before it.
-/

namespace Patchbay

namespace Graph

/-- A request for a link: the graph that is asked, and the two pins. -/
structure Request where
  graph : Graph
  source : PinId
  target : PinId

/-- The link is made. -/
def Request.Granted (r : Request) : Prop := ∀ id, ∃ g, r.graph.link id r.source r.target = .ok g

/-- Asks a graph for a link, and takes the request down. -/
def ask (requests : List Request) (g : Graph) (id : LinkId) (source target : PinId) :
    Except LinkError Graph × List Request :=
  (g.link id source target, requests ++ [⟨g, source, target⟩])

/-- A graph being wired, and what has been asked for so far. -/
structure Recorded extends Wired where
  requests : List Request

/-! ## Wiring with a record -/

namespace Recorded

def tryLink (x : Recorded) (source target : PinId) : Recorded :=
  let (id, supply) := x.supply.takeLink
  match ask x.requests x.graph id source target with
  | (.ok graph, requests) =>
    { graph, supply, wiring := { x.wiring with created := x.wiring.created ++ [id] }, requests }
  | (.error _, requests) => { x with requests }

def splice (x : Recorded) (l : Link) (input output : PinId) : Recorded :=
  let (headId, supply) := x.supply.takeLink
  let (tailId, supply) := supply.takeLink
  let bare := x.graph.unlink l.id
  let (head, requests) := ask x.requests bare headId l.fromPin input
  let mid := match head with
    | .ok g => g
    | .error _ => bare
  let (tail, requests) := ask requests mid tailId output l.toPin
  match head, tail with
  | .ok _, .ok g =>
    { graph := g, supply, requests
      wiring := ⟨x.wiring.created ++ [headId, tailId], some l⟩ }
  | _, tail =>
    let after := match tail with
      | .ok g => g
      | .error _ => mid
    let cleared := (after.unlink headId).unlink tailId
    let (againId, supply) := supply.takeLink
    match ask requests cleared againId l.fromPin l.toPin with
    | (.ok g, requests) => { x with graph := g, supply, requests }
    | (.error _, requests) => { x with graph := cleared, supply, requests }

/-- Asks for a link between a pin of direction `d` and another pin. -/
def tryJoin (x : Recorded) (d : Direction) (p o : PinId) : Recorded :=
  match d with
  | .input => x.tryLink o p
  | .output => x.tryLink p o

/-- Joins the flow pin of a node on one side, if it has a free one, to the nearest node. -/
def attach (x : Recorded) (n : NodeId) (place : Point) (d : Direction) (flow : Option PinId) : Recorded :=
  match flow with
  | some p =>
    match x.graph.nearestFlowPin? n place d.opposite with
    | some o => x.tryJoin d p o
    | none => x
  | none => x

def linkFlow (x : Recorded) (n : NodeId) (place : Point) (flowIn flowOut : Option PinId) : Recorded :=
  match flowIn, flowOut with
  | some input, some output =>
    match x.graph.nearestFlowLink? n place with
    | some l => x.splice l input output
    | none => (x.attach n place .input flowIn).attach n place .output flowOut
  | _, _ => (x.attach n place .input flowIn).attach n place .output flowOut

/-- Joins a data pin of a node on one side to what its flow neighbours offer. -/
def linkData (n : NodeId) (d : Direction) (x : Recorded) (p : PinId) : Recorded :=
  match x.graph.pin? p with
  | none => x
  | some pin =>
    match x.graph.offeredPin? n d.heading d.opposite pin.type.accords with
    | some o => x.tryJoin d p o
    | none => x

end Recorded

/-- Where wiring starts from. A link that is picked for a splice is taken out first. -/
def opened (g : Graph) (picked : Option Link) (s : Supply) : Recorded where
  graph := match picked with
    | none => g
    | some l => g.unlink l.id
  supply := s
  wiring := ⟨[], picked⟩
  requests := []

def autoLinkRecorded (g : Graph) (n : NodeId) (s : Supply) : Except GraphError Recorded :=
  match g.node? n with
  | none => .error (.nodeNotFound n)
  | some m =>
    let x := (g.opened none s).linkFlow n m.position (g.freePin? (m.preferredFlow .input))
      (g.freePin? (m.preferredFlow .output))
    let x := (g.freeData (m.preferredData .input)).foldl (Recorded.linkData n .input) x
    .ok ((g.freeData (m.preferredData .output)).foldl (Recorded.linkData n .output) x)

/-! ## Leaving out the record -/

namespace Recorded

variable (x : Recorded)

theorem tryLink_toWired (source target : PinId) :
    (x.tryLink source target).toWired = x.toWired.tryLink source target := by
  simp only [tryLink, Wired.tryLink, ask]
  cases x.graph.link x.supply.takeLink.1 source target <;> rfl

theorem splice_toWired (l : Link) (input output : PinId) :
    (x.splice l input output).toWired = x.toWired.splice l input output := by
  simp only [splice, Wired.splice, ask]
  cases (x.graph.unlink l.id).link x.supply.takeLink.1 l.fromPin input with
  | ok mid =>
    dsimp only
    cases mid.link x.supply.takeLink.2.takeLink.1 output l.toPin with
    | ok done => rfl
    | error e =>
      dsimp only
      split <;> simp_all
  | error e =>
    dsimp only
    cases (x.graph.unlink l.id).link x.supply.takeLink.2.takeLink.1 output l.toPin with
    | ok after | error e =>
      dsimp only
      split <;> simp_all

theorem attachIn_toWired (n : NodeId) (place : Point) (flow : Option PinId) :
    (x.attach n place .input flow).toWired = x.toWired.attachIn n place flow := by
  cases flow with
  | none => rfl
  | some p =>
    simp only [attach, Wired.attachIn, Direction.opposite]
    cases x.graph.nearestFlowPin? n place .output with
    | none => rfl
    | some o => exact x.tryLink_toWired o p

theorem attachOut_toWired (n : NodeId) (place : Point) (flow : Option PinId) :
    (x.attach n place .output flow).toWired = x.toWired.attachOut n place flow := by
  cases flow with
  | none => rfl
  | some p =>
    simp only [attach, Wired.attachOut, Direction.opposite]
    cases x.graph.nearestFlowPin? n place .input with
    | none => rfl
    | some o => exact x.tryLink_toWired p o

theorem linkFlow_toWired (n : NodeId) (place : Point) (flowIn flowOut : Option PinId) :
    (x.linkFlow n place flowIn flowOut).toWired = x.toWired.linkFlow n place flowIn flowOut := by
  have hends : ((x.attach n place .input flowIn).attach n place .output flowOut).toWired =
      (x.toWired.attachIn n place flowIn).attachOut n place flowOut := by
    rw [attachOut_toWired, attachIn_toWired]
  cases flowIn with
  | none => exact hends
  | some i =>
    cases flowOut with
    | none => exact hends
    | some o =>
      simp only [linkFlow, Wired.linkFlow]
      cases x.graph.nearestFlowLink? n place with
      | none => exact hends
      | some l => exact x.splice_toWired l i o

theorem linkInput_toWired (n : NodeId) (p : PinId) :
    (linkData n .input x p).toWired = Wired.linkInput n x.toWired p := by
  simp only [linkData, Wired.linkInput, Direction.heading, Direction.opposite]
  cases x.graph.pin? p with
  | none => rfl
  | some pin =>
    have haccords : (fun t => t.accords pin.type) = pin.type.accords :=
      funext fun t => t.accords_comm pin.type
    simp only [haccords]
    cases x.graph.offeredPin? n .upstream .output pin.type.accords with
    | none => rfl
    | some o => exact x.tryLink_toWired o p

theorem linkOutput_toWired (n : NodeId) (p : PinId) :
    (linkData n .output x p).toWired = Wired.linkOutput n x.toWired p := by
  simp only [linkData, Wired.linkOutput, Direction.heading, Direction.opposite]
  cases x.graph.pin? p with
  | none => rfl
  | some pin =>
    dsimp only
    cases x.graph.offeredPin? n .downstream .input pin.type.accords with
    | none => rfl
    | some o => exact x.tryLink_toWired p o

/-- Steps that do the same but for the record do so when taken one after another. -/
theorem foldl_toWired {step : Recorded → PinId → Recorded} {step' : Wired → PinId → Wired}
    (hstep : ∀ x i, (step x i).toWired = step' x.toWired i) (ids : List PinId) :
    (ids.foldl step x).toWired = ids.foldl step' x.toWired := by
  induction ids generalizing x with
  | nil => rfl
  | cons i rest ih =>
    rw [List.foldl_cons, ih, hstep]
    rfl

end Recorded

/-- **But for the record it is wiring**, of any node of any graph. -/
theorem autoLinkRecorded_toWired (g : Graph) (n : NodeId) (s : Supply) :
    (g.autoLinkRecorded n s).map Recorded.toWired = g.autoLink n s := by
  rw [autoLinkRecorded, autoLink]
  cases g.node? n with
  | none => rfl
  | some m =>
    refine congrArg Except.ok ?_
    rw [Recorded.foldl_toWired _ fun x => Recorded.linkOutput_toWired x n,
      Recorded.foldl_toWired _ fun x => Recorded.linkInput_toWired x n, Recorded.linkFlow_toWired]
    rfl

/-! ## Requests that are granted -/

namespace Recorded

/-- What comes of a request that is granted: a link at the end. -/
def grown (x : Recorded) (k : Link) : Recorded where
  graph := { x.graph with links := x.graph.links ++ [k] }
  supply := x.supply.takeLink.2
  wiring := { x.wiring with created := x.wiring.created ++ [k.id] }
  requests := x.requests ++ [⟨x.graph, k.fromPin, k.toPin⟩]

lemma isLinked_grown {x : Recorded} {k : Link} {i : PinId} :
    (x.grown k).graph.isLinked i = (x.graph.isLinked i || k.involvesPin i) := by
  simp [grown, isLinked]

/-- Links have been added by requests that have been granted, and each has property `P` with regard to the graph
that it was added to. -/
inductive Makes (P : Graph → Link → Prop) (x : Recorded) : Recorded → Prop
  | refl : Makes P x x
  | grow {v : Recorded} {k : Link} (before : Makes P x v)
    (granted : Request.Granted ⟨v.graph, k.fromPin, k.toPin⟩) (link : P v.graph k) :
    Makes P x (v.grown k)

namespace Makes

variable {P Q : Graph → Link → Prop} {x y z : Recorded}

theorem trans (h : Makes P x y) (h' : Makes P y z) : Makes P x z := by
  induction h' with
  | refl => exact h
  | grow _ granted link ih => exact ih.grow granted link

theorem imp (h : Makes P x y) (hPQ : ∀ g k, P g k → Q g k) : Makes Q x y := by
  induction h with
  | refl => exact .refl
  | grow _ granted link ih => exact ih.grow granted (hPQ _ _ link)

/-- All requests have been granted. -/
theorem granted (h : Makes P x y) (hx : ∀ r ∈ x.requests, r.Granted) :
    ∀ r ∈ y.requests, r.Granted := by
  induction h with
  | refl => exact hx
  | grow _ granted _ ih =>
    intro r hr
    rcases List.mem_append.mp hr with hr | hr
    · exact ih r hr
    · obtain rfl := List.mem_singleton.mp hr
      exact granted

/-- **What has been made can be read off the links**: they have been added at the end in the order of the
record, and each was asked of the graph with those before it, with regard to which it has its property. -/
theorem parts (h : Makes P x y) : ∃ new,
    y.graph = { x.graph with links := x.graph.links ++ new } ∧
    y.wiring = { x.wiring with created := x.wiring.created ++ new.map Link.id } ∧
    ∀ before k after, new = before ++ k :: after →
      P { x.graph with links := x.graph.links ++ before } k ∧
        ⟨{ x.graph with links := x.graph.links ++ before }, k.fromPin, k.toPin⟩ ∈ y.requests := by
  induction h with
  | refl => exact ⟨[], by simp, by simp, by simp⟩
  | @grow v k _ _ link ih =>
    obtain ⟨new, hgraph, hwiring, hnew⟩ := ih
    refine ⟨new ++ [k], by simp [grown, hgraph], by simp [grown, hwiring], ?_⟩
    intro before j after heq
    rcases List.append_eq_append_iff.mp heq with ⟨rest, rfl, hrest⟩ | ⟨rest, rfl, hrest⟩
    · -- the last link itself
      cases rest with
      | nil =>
        obtain ⟨rfl, -⟩ := List.cons.inj hrest
        rw [List.append_nil, ← hgraph]
        exact ⟨link, by simp [grown]⟩
      | cons => simp at hrest
    · -- a link before it
      cases rest with
      | nil =>
        obtain ⟨rfl, -⟩ := List.cons.inj hrest
        rw [List.append_nil] at hgraph
        rw [← hgraph]
        exact ⟨link, by simp [grown]⟩
      | cons i more =>
        obtain ⟨rfl, -⟩ := List.cons.inj hrest
        exact (hnew before _ more rfl).imp_right (List.mem_append_left _)

end Makes

variable {x : Recorded} (hx : x.graph.WellFormed) {d : Direction} {m b : Node} {p o : Pin}
  (h : x.graph.Joinable d m b p o)
include hx h

/-- **A request that nothing speaks against is granted.** -/
theorem tryJoin_eq :
    x.tryJoin d p.id o.id = x.grown (.between d x.supply.takeLink.1 m b p o) := by
  have hlink := h.link_eq hx x.supply.takeLink.1
  cases d <;> simp only [Link.between] at hlink <;>
    simp only [tryJoin, tryLink, ask, hlink, grown, Link.between]

theorem granted_of_joinable (id : LinkId) :
    Request.Granted ⟨x.graph, (Link.between d id m b p o).fromPin, (Link.between d id m b p o).toPin⟩ := by
  intro id'
  have hlink := h.link_eq hx id'
  cases d <;> exact ⟨_, hlink⟩

theorem grown_wellFormed (id : LinkId) : (x.grown (.between d id m b p o)).graph.WellFormed :=
  hx.link (h.link_eq hx id)

end Recorded

end Graph

end Patchbay
