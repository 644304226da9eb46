import Patchbay.Graph

/-!
# Flow between nodes

Flow links join nodes into a directed graph. This module walks it breadth first
(`Graph.flowNeighbours`) and decides whether a graph can run (`Graph.checkRunnable`): there has to be
exactly one entry node, and flow from it has to reach an exit node.

The walk is a `Sweep` that keeps a queue. A turn takes the first node out of the queue and meets its
neighbours, in the order of the links. A node that is met for the first time is found and joins the
queue, a node that is met again is passed over.

The search for an exit node keeps a queue, too (`Graph.searchFlow`). A node may wait there more than
once, but what it feeds joins the queue the first time only.

Either way a node is taken out of the queue for good, and what joins the queue uses links up, so flow
may go in circles.
-/

namespace Patchbay

/-- Along or against the direction of flow. -/
inductive Heading where
  | upstream
  | downstream
  deriving DecidableEq

/-- The node that a link leads to in a direction. -/
def Link.ahead (l : Link) : Heading → NodeId
  | .upstream => l.fromNode
  | .downstream => l.toNode

/-- How far a walk has come. -/
structure Sweep where
  /-- The nodes found, in the order in which they were met first. -/
  order : List NodeId
  /-- The nodes found and the node that the walk began at. -/
  visited : List NodeId
  /-- The nodes whose neighbours have not been met. -/
  queue : List NodeId

namespace Sweep

/-- A walk begins at a node. -/
def outset (n : NodeId) : Sweep := ⟨[], [n], [n]⟩

/-- Meets a node: it is found unless it has been visited before. -/
def meet (w : Sweep) (n : NodeId) : Sweep :=
  if n ∈ w.visited then w else ⟨w.order ++ [n], n :: w.visited, w.queue ++ [n]⟩

end Sweep

namespace Graph

/-- The nodes that feed a node through flow links, in the order of the links. -/
def flowPredecessors (g : Graph) (n : NodeId) : List NodeId :=
  (g.links.filter fun l => l.flow && l.toNode == n).map Link.fromNode

/-- The nodes that a node feeds through flow links, in the order of the links. -/
def flowSuccessors (g : Graph) (n : NodeId) : List NodeId :=
  (g.links.filter fun l => l.flow && l.fromNode == n).map Link.toNode

def flowStep (g : Graph) : Heading → NodeId → List NodeId
  | .upstream => g.flowPredecessors
  | .downstream => g.flowSuccessors

/-- One turn of a walk: the first node of the queue leaves it, and its neighbours are met. -/
def turn (g : Graph) (heading : Heading) (w : Sweep) : Sweep :=
  match w.queue with
  | [] => w
  | n :: rest => (g.flowStep heading n).foldl Sweep.meet { w with queue := rest }

/-- How many links lead to nodes that have not been visited. -/
def linksAhead (g : Graph) (heading : Heading) (visited : List NodeId) : Nat :=
  (g.links.filter fun l => !visited.contains (l.ahead heading)).length

/-- Steps lead to ends of links. -/
theorem exists_link_of_flowStep (g : Graph) {heading : Heading} {n m : NodeId}
    (h : m ∈ g.flowStep heading n) : ∃ l ∈ g.links, l.ahead heading = m := by
  cases heading <;>
  · obtain ⟨l, hl, rfl⟩ := List.mem_map.mp h
    exact ⟨l, (List.mem_filter.mp hl).1, rfl⟩

/-- Visiting a node puts the links that lead to it behind. -/
theorem linksAhead_visit (g : Graph) {heading : Heading} {m : NodeId} {visited : List NodeId}
    (hlink : ∃ l ∈ g.links, l.ahead heading = m) (hnew : m ∉ visited) :
    g.linksAhead heading (m :: visited) < g.linksAhead heading visited := by
  obtain ⟨l, hl, rfl⟩ := hlink
  have hsplit : (g.links.filter fun k => !(l.ahead heading :: visited).contains (k.ahead heading)) =
      (g.links.filter fun k => !visited.contains (k.ahead heading)).filter
        fun k => k.ahead heading != l.ahead heading := by
    rw [List.filter_filter]
    exact List.filter_congr fun k _ => by rw [List.contains_cons, Bool.not_or]; rfl
  rw [linksAhead, linksAhead, hsplit, List.length_filter_lt_length_iff_exists]
  exact ⟨l, List.mem_filter.mpr ⟨hl, by simpa using hnew⟩, by simp⟩

/-- What joins the queue when nodes are met is made up for by the links that lead there. -/
theorem queue_foldl_meet (g : Graph) {heading : Heading} {ms : List NodeId}
    (hms : ∀ m ∈ ms, ∃ l ∈ g.links, l.ahead heading = m) (w : Sweep) :
    (ms.foldl Sweep.meet w).queue.length + g.linksAhead heading (ms.foldl Sweep.meet w).visited ≤
      w.queue.length + g.linksAhead heading w.visited := by
  induction ms generalizing w with
  | nil => exact Nat.le_refl _
  | cons m ms ih =>
    refine Nat.le_trans (ih (fun k hk => hms k (List.mem_cons_of_mem m hk)) (w.meet m)) ?_
    rw [Sweep.meet]
    split
    · exact Nat.le_refl _
    · rename_i hnew
      have hless := g.linksAhead_visit (hms m List.mem_cons_self) hnew
      simp only [List.length_append, List.length_singleton]
      omega

/-- A turn takes a node out of the queue for good. -/
theorem turn_less (g : Graph) (heading : Heading) {w : Sweep} (h : w.queue ≠ []) :
    (g.turn heading w).queue.length + g.linksAhead heading (g.turn heading w).visited <
      w.queue.length + g.linksAhead heading w.visited := by
  rw [turn]
  cases hqueue : w.queue with
  | nil => exact absurd hqueue h
  | cons n rest =>
    refine Nat.lt_of_le_of_lt (g.queue_foldl_meet (fun m hm => g.exists_link_of_flowStep hm) _) ?_
    simp only [List.length_cons]
    omega

/-- The nodes that a walk has found when its queue is empty. -/
def sweep (g : Graph) (heading : Heading) (w : Sweep) : List NodeId :=
  if w.queue = [] then w.order else g.sweep heading (g.turn heading w)
termination_by w.queue.length + g.linksAhead heading w.visited
decreasing_by exact g.turn_less heading ‹_›

/-- The other nodes that flow joins to a node, the nearest first. -/
def flowNeighbours (g : Graph) (n : NodeId) (heading : Heading) : List NodeId :=
  g.sweep heading (.outset n)

/-- The entry node, if there is exactly one. -/
def entryNode (g : Graph) : Except GraphError NodeId :=
  match g.nodes.filter Node.isEntry with
  | [] => .error .noEntryPoint
  | [n] => .ok n.id
  | _ => .error .multipleEntryPoints

def exitNodes (g : Graph) : List NodeId := (g.nodes.filter Node.isExit).map Node.id

/-- How many flow links leave nodes that have not been visited. -/
def openLinks (g : Graph) (visited : List NodeId) : Nat :=
  (g.links.filter fun l => l.flow && !visited.contains l.fromNode).length

/-- Visiting a node puts the flow links that leave it behind. -/
theorem openLinks_visit (g : Graph) {n : NodeId} {visited : List NodeId} (h : n ∉ visited) :
    g.openLinks (n :: visited) + (g.flowSuccessors n).length = g.openLinks visited := by
  simp only [openLinks, flowSuccessors, List.length_map, ← List.countP_eq_length_filter]
  induction g.links with
  | nil => rfl
  | cons l rest ih =>
    have hlink : (if l.flow && !(n :: visited).contains l.fromNode then 1 else 0) +
        (if l.flow && l.fromNode == n then 1 else 0) =
          if l.flow && !visited.contains l.fromNode then 1 else 0 := by
      by_cases hn : l.fromNode = n
      · simp [hn, h]
      · simp [hn]
    rw [List.countP_cons, List.countP_cons, List.countP_cons]
    omega

/-- Whether flow leads from the nodes of the queue to one of the goals. The first node of the queue is
looked at; if it has not been visited, the nodes that it feeds join the end of the queue. -/
def searchFlow (g : Graph) (goals visited queue : List NodeId) : Bool :=
  match queue with
  | [] => false
  | n :: rest =>
    if goals.contains n then true
    else if n ∈ visited then g.searchFlow goals visited rest
    else g.searchFlow goals (n :: visited) (rest ++ g.flowSuccessors n)
termination_by queue.length + g.openLinks visited
decreasing_by
  · simp
  · rename_i hnew
    have := g.openLinks_visit hnew
    simp only [List.length_append, List.length_cons]
    omega

/-- The entry node, if the graph can run. -/
def checkRunnable (g : Graph) : Except GraphError NodeId := do
  let entry ← g.entryNode
  if g.searchFlow g.exitNodes [] [entry] then return entry
  else throw .noReachableExit

end Graph

end Patchbay
