import Patchbay.Graph.Flow
import Patchbay.Run.Pull

/-!
# Runs

A run starts at a node and follows flow one node at a time. Every node that flow steps into stays on
the call stack until the run ends, so flow that returns to a node is found out as a cycle. A node
that was already executed for its data is not executed again when flow comes by; flow continues
through the exit that it gave then.

A run ends completed at an exit node, halted where a node gives no exit or an unlinked one, and
stopped if it was asked to stop.
-/

namespace Patchbay

open RunM

/-- How a run ended. -/
inductive RunStatus where
  /-- At an exit node. -/
  | completed
  /-- Where flow had nowhere to go. -/
  | halted
  /-- On request. -/
  | stopped
  deriving DecidableEq

def RunStatus.name : RunStatus → String
  | .completed => "Completed"
  | .halted => "Halted"
  | .stopped => "Stopped"

structure RunReport where
  status : RunStatus
  /-- The nodes that flow stepped into, in order. -/
  path : List NodeId
  failures : List NodeFailure
  costs : Table NodeId Nat
  deriving DecidableEq

/-- Whether a run completed without failures. -/
def RunReport.isClean (r : RunReport) : Bool := r.status == .completed && r.failures.isEmpty

namespace Graph

variable (g : Graph) (mode : RunMode)

/-- Where flow goes from a node through a pin: the node and the input pin of the first link that
leaves the pin, if any does. The pin must be an output flow pin of the node. -/
def follow (n : NodeId) (p : PinId) : Except RunError (Option (NodeId × PinId)) :=
  match g.pin? p with
  | some pin =>
    if g.owner? p = some n ∧ pin.isFlow ∧ pin.direction = .output then
      .ok ((g.linksFrom p).head?.map fun l => (l.toNode, l.toPin))
    else .error (.invalidExit n p)
  | none => .error (.invalidExit n p)

/-- Enters a node through flow and gives its exit: the one it gave when its data was asked for, or
the one that executing it gives now. -/
def stepInto (node : Node) (entry : Option PinId) : RunM (Option PinId) := do
  enter node.id
  let exit ←
    match (← get).pulledExits.get? node.id with
    | some exit => do
      if node.isExit then clearStack
      pure exit
    | none => g.executeNode mode node entry
  markExecuted node.id
  return exit

/-- The status of a run that came to an end of flow. -/
def endOfFlow : RunM RunStatus := do
  return if (← get).stopped then .stopped else .halted

/-- Follows flow from a node for at most so many steps; `path` holds the nodes stepped into
before. -/
def walk : Nat → NodeId → Option PinId → List NodeId → RunM (RunStatus × List NodeId)
  | 0, _, _, _ => throw .endless
  | steps + 1, n, entry, path => do
    if (← get).stopped then return (.stopped, path)
    match g.node? n with
    | none => throw (.nodeNotFound n)
    | some node =>
      let exit ← g.stepInto mode node entry
      let path := path ++ [n]
      if node.isExit then
        let stack := (← get).stack
        if stack.isEmpty then return (.completed, path)
        else throw (.unterminated stack)
      else
        match exit with
        | none => return (← endOfFlow, path)
        | some p =>
          match g.follow n p with
          | .error e => throw e
          | .ok none => return (← endOfFlow, path)
          | .ok (some (next, pin)) => walk steps next (some pin) path

/-- How many steps flow may take beyond the number of nodes. -/
def extraSteps : Nat := 1048576

/-- How many steps flow may take. -/
def stepLimit : Nat := g.nodes.length + extraSteps

/-- Runs from a node. The records of the run go into the report; after a failure they stay in the
state. The call stack is empty afterwards whatever happened. -/
def runFrom (start : NodeId) : RunM RunReport := do
  let s ← get
  if !s.stack.isEmpty then throw (.busy s.stack)
  if !g.hasNode start then throw (.nodeNotFound start)
  modify RunState.begin
  g.nodes.forM Node.reset
  let result ← outcome (g.walk mode g.stepLimit start none [])
  clearStack
  match result with
  | .error e => throw e
  | .ok (status, path) =>
    let s ← get
    set { s with failures := [], costs := [] }
    return { status, path, failures := s.failures, costs := s.costs }

/-- Runs from the entry node. -/
def run : RunM RunReport := do
  match g.checkRunnable with
  | .error e => throw (.notRunnable e)
  | .ok entry => g.runFrom mode entry

/-- Asks active runs to stop and tells every node. -/
def stop : RunM Unit := do
  raiseStop
  g.nodes.forM Node.onStop

end Graph

end Patchbay
