import Patchbay.Graph
import Patchbay.Slot

/-!
# The state of a run

A run goes over a graph that it does not change. What it changes is the `Memory`, the values that
pins keep and the compositors that transitions hold, and its own records in `RunState`: the call
stack, the values published so far, the nodes executed so far, the exits of nodes that were executed
for their data, and what it will report.

Steps of a run are actions of `RunM`. An action that fails keeps the state it has reached.
-/

namespace Patchbay

/-! ## Memory -/

/-- What pins and nodes keep from one run to the next. -/
structure Memory where
  /-- The values stored on pins since they were made. -/
  values : Table PinId Value
  /-- The compositors of transitions. -/
  slots : Table NodeId (Slot Device Compositor)
  deriving DecidableEq

namespace Memory

def empty : Memory := ⟨[], []⟩

/-- The value that a pin keeps: what was stored last, or what it started with. -/
def value (m : Memory) (p : Pin) : Value := (m.values.get? p.id).getD p.initial

def store (m : Memory) (p : PinId) (v : Value) : Memory := { m with values := m.values.set p v }

def slot (m : Memory) (n : NodeId) : Slot Device Compositor := (m.slots.get? n).getD .empty

def setSlot (m : Memory) (n : NodeId) (s : Slot Device Compositor) : Memory :=
  { m with slots := m.slots.set n s }

/-- Drops what a node holds besides the values of its pins. Pins of later nodes have identities of
their own, but a later node may take over the identity of this one. -/
def release (m : Memory) (n : NodeId) : Memory := { m with slots := m.slots.erase n }

end Memory

/-! ## Failures -/

/-- What ends a run without a report. -/
inductive RunError where
  /-- A node was entered while it was being executed. -/
  | cyclic (node : NodeId) (stack : List NodeId)
  /-- An exit node left the call stack filled. -/
  | unterminated (stack : List NodeId)
  /-- The state is in the middle of another run. -/
  | busy (stack : List NodeId)
  | nodeNotFound (node : NodeId)
  | pinNotFound (pin : PinId)
  /-- A node named an exit pin that is not one of its output flow pins. -/
  | invalidExit (node : NodeId) (pin : PinId)
  /-- The graph cannot run. -/
  | notRunnable (reason : GraphError)
  /-- The run went on beyond every limit. -/
  | endless
  deriving DecidableEq

def RunError.message : RunError → String
  | .cyclic n _ => "Cyclic execution at node " ++ n.toText
  | .unterminated stack => "Call stack not cleared at exit: " ++ NodeId.listText stack
  | .busy stack => "Context is already running: " ++ NodeId.listText stack
  | .nodeNotFound n => "Node not found: " ++ n.toText
  | .pinNotFound p => "Pin not found: " ++ p.wrapped
  | .invalidExit n p => "Node " ++ n.toText ++ " returned invalid exit pin " ++ p.wrapped
  | .notRunnable e => "Graph is not runnable: " ++ e.message
  | .endless => "Execution does not end"

/-- A failure of one node, which does not end the run. -/
structure NodeFailure where
  node : NodeId
  name : String
  message : String
  deriving DecidableEq

/-- What scripted nodes note down while they work. -/
inductive Note where
  | execute (node : NodeId) (entry : Option PinId) (threading : Bool)
  /-- A script read a pin. -/
  | pull (pin : PinId) (value : Value)
  /-- A script looked at the call stack. -/
  | stack (nodes : List NodeId)
  | reset (node : NodeId)
  /-- The node was told that the run is being stopped. -/
  | stop (node : NodeId)
  deriving DecidableEq

/-! ## State and actions -/

structure RunMode where
  /-- The hint that other runs go on at the same time. -/
  threading : Bool
  /-- Whether scripts may ask the run to stop. -/
  stoppable : Bool
  deriving DecidableEq

structure RunState where
  /-- What outlives the run. -/
  memory : Memory
  /-- Nodes being executed, the outermost first. -/
  stack : List NodeId
  /-- Values published in this run. -/
  cache : Table PinId Value
  executed : List NodeId
  /-- The exits of nodes that were executed because their data was asked for. -/
  pulledExits : Table NodeId (Option PinId)
  failures : List NodeFailure
  /-- Milliseconds spent by each node, in order of first record. -/
  costs : Table NodeId Nat
  /-- Whether the run has been asked to stop. -/
  stopped : Bool
  notes : List Note
  /-- The log of this run: the nodes whose effect was performed, in the order in which that began. -/
  log : List NodeId
  deriving DecidableEq

/-- The state before anything has run. -/
def RunState.initial (memory : Memory) : RunState :=
  { memory, stack := [], cache := [], executed := [], pulledExits := [], failures := []
    costs := [], stopped := false, notes := [], log := [] }

/-- The state with the records of the last run dropped. -/
def RunState.begin (s : RunState) : RunState :=
  { s with cache := [], executed := [], pulledExits := [], failures := [], costs := [], log := [] }

/-- A step of a run: it fails or gives a value, and leaves a state either way. -/
abbrev RunM := ExceptT RunError (StateM RunState)

namespace RunM

/-- Performs an action and gives its outcome instead of failing. -/
def outcome {α : Type} (x : RunM α) : RunM (Except RunError α) := fun s =>
  let (r, s) := x s
  (.ok r, s)

/-- Pushes a node onto the call stack, unless it is on it. -/
def enter (n : NodeId) : RunM Unit := do
  let s ← get
  if s.stack.contains n then throw (.cyclic n s.stack)
  else set { s with stack := s.stack ++ [n] }

/-- Pops a node if it is the innermost one. -/
def leave (n : NodeId) : RunM Unit :=
  modify fun s => if s.stack.getLast? = some n then { s with stack := s.stack.dropLast } else s

/-- Empties the call stack. -/
def clearStack : RunM Unit := modify fun s => { s with stack := [] }

/-- Records that a node has been executed. -/
def markExecuted (n : NodeId) : RunM Unit :=
  modify fun s => if s.executed.contains n then s else { s with executed := s.executed ++ [n] }

/-- Stores a value on a pin without publishing it. -/
def store (p : PinId) (v : Value) : RunM Unit :=
  modify fun s => { s with memory := s.memory.store p v }

/-- Stores a value on a pin and publishes it for this run. -/
def publish (p : PinId) (v : Value) : RunM Unit :=
  modify fun s => { s with memory := s.memory.store p v, cache := s.cache.set p v }

/-- Records a failure of a node under its display name. -/
def reportFailure (g : Graph) (n : NodeId) (message : String) : RunM Unit :=
  modify fun s =>
    let name := ((g.node? n).map Node.name).getD ""
    { s with failures := s.failures ++ [⟨n, name, message⟩] }

/-- Adds to the time spent by a node. -/
def recordCost (n : NodeId) (milliseconds : Nat) : RunM Unit :=
  modify fun s =>
    { s with costs := s.costs.set n ((s.costs.get? n).getD 0 + milliseconds) }

def note (x : Note) : RunM Unit := modify fun s => { s with notes := s.notes ++ [x] }

/-- Logs that the effect of a node is about to be performed. -/
def logExecution (n : NodeId) : RunM Unit := modify fun s => { s with log := s.log ++ [n] }

def raiseStop : RunM Unit := modify fun s => { s with stopped := true }

def lowerStop : RunM Unit := modify fun s => { s with stopped := false }

/-- The compositor of a node for a device: the one it holds, or a new one in its place. -/
def acquireCompositor (n : NodeId) (device : Device) : RunM (Except CompositeError Compositor) := do
  let s ← get
  let got := (s.memory.slot n).getOrCreate device fun d => Except.ok ⟨d⟩
  set { s with memory := s.memory.setSlot n got.slot }
  return got.answer

end RunM

end Patchbay
