import Patchbay.Run.Execute

/-!
# Asking for data

`Graph.pull` gives the value of a pin. An unlinked input has the value published for it in this run,
or else the one it keeps. A linked input has the value of the output pin it is linked to. An output
pin has the value published for it; if there is none yet, its node is executed, at most once in a
run, and if there is still none the default of its type stands in.

Executing a node may ask for more data, so pulls nest. The first argument of `Graph.pull` bounds the
nesting. Nodes that leave the call stack alone never nest deeper than there are nodes, because a
node that is on the stack is not entered again; scripts that take nodes off the stack get some room
on top (`Graph.pullDepth`), and what nests deeper is reported as endless.
-/

namespace Patchbay

open RunM

namespace Graph

variable (g : Graph) (mode : RunMode)

/-- The output pin whose value a pin has, if it is not an unlinked input. -/
def sourceOf? (p : Pin) : Option PinId :=
  match p.direction with
  | .input => (g.linkTo? p.id).map Link.fromPin
  | .output => some p.id

/-- Executes a node because its data is asked for, and keeps its exit for flow that comes by later
in the run. -/
def executeUpstream (execute : Node → RunM (Option PinId)) (n : NodeId) : RunM Unit := do
  match g.node? n with
  | none => throw (.nodeNotFound n)
  | some node =>
    enter n
    let result ← outcome (execute node)
    leave n
    markExecuted n
    match result with
    | .error e => throw e
    | .ok exit => modify fun s => { s with pulledExits := s.pulledExits.set n exit }

/-- The value of a pin, with `execute` to execute the node that owns its source. -/
def pullWith (execute : Node → RunM (Option PinId)) (p : Pin) : RunM Value := do
  match g.sourceOf? p with
  | none => return ((← get).cache.get? p.id).getD ((← get).memory.value p)
  | some source =>
    match (← get).cache.get? source with
    | some v => return v
    | none =>
      match g.pin? source, g.owner? source with
      | some pin, some owner =>
        if (← get).executed.contains owner then return pin.type.defaultValue
        else
          g.executeUpstream execute owner
          return ((← get).cache.get? source).getD pin.type.defaultValue
      | _, _ => throw (.pinNotFound source)

/-- The value of a pin, executing nodes nested at most so deep. -/
def pull : Nat → Pin → RunM Value
  | 0 => g.pullWith fun _ => throw .endless
  | depth + 1 => g.pullWith fun n => n.execute g mode (pull depth) none

/-- How deep nodes may take each other off the call stack. -/
def extraDepth : Nat := 4096

/-- How deep pulls may nest. -/
def pullDepth : Nat := g.nodes.length + extraDepth

/-- Executes a node with pulls over the graph. -/
def executeNode (n : Node) (entry : Option PinId) : RunM (Option PinId) :=
  n.execute g mode (g.pull mode g.pullDepth) entry

end Graph

end Patchbay
