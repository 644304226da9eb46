import Patchbay.Run.State

/-!
# What nodes do

`Node.execute` is the effect of a node of each kind. How the value of an input comes about is not
known here: it is the argument `pull`, so that statements about one node hold whatever its
surroundings do.

A node answers with the flow pin to continue through, or with none. Failures of a node are recorded
and do not end the run; only what `pull` raises does.
-/

namespace Patchbay

open RunM

namespace Node

variable (g : Graph) (mode : RunMode) (pull : Pin → RunM Value)

/-- An end node keeps the frame it is given on its own pin and empties the call stack. -/
def executeFinish (pins : FinishPins) : RunM (Option PinId) := do
  let frame ← pull pins.framePin
  store pins.frame frame
  clearStack
  return none

/-- A picture source publishes its picture, or fails if the size is unusable. -/
def executePicture (n : NodeId) (out : PinId) (settings : Picture) : RunM (Option PinId) := do
  if settings.isUsable then
    publish out (.frame settings.render)
  else
    reportFailure g n
      ("invalid frame size " ++ sizeText settings.width settings.height settings.channels)
  return none

/-- A branch asks for its condition, unless it is switched off: then it holds. -/
def executeBranch (enabled : Bool) (pins : BranchPins) : RunM (Option PinId) := do
  if !enabled then return some pins.onTrue
  let condition ← pull pins.conditionPin
  return some (if condition.asBool false then pins.onTrue else pins.onFalse)

/-- A transition that has both pictures and its progress. If a picture is missing it only continues;
switched off it passes the first one on; otherwise it publishes the composite, unless the run has
been asked to stop meanwhile. -/
def blend (n : Node) (pins : TransitionPins) (settings : Transition) (first second : Frame)
    (pos : Float32) : RunM (Option PinId) := do
  if first.isEmpty || second.isEmpty then return some pins.exit
  if !n.enabled then
    publish pins.out (.frame first)
    return some pins.exit
  match ← acquireCompositor n.id first.device with
  | .error e =>
    reportFailure g n.id e.message
    return none
  | .ok compositor =>
    match (settings.composite first second pos).draw compositor.device with
    | .error e =>
      reportFailure g n.id e.message
      return none
    | .ok frame =>
      recordCost n.id 0
      if !(← get).stopped then publish pins.out (.frame (frame.withTimingOf first))
      return some pins.exit

/-- A transition asks for both pictures and its progress and blends them. -/
def executeTransition (n : Node) (pins : TransitionPins) (settings : Transition) :
    RunM (Option PinId) := do
  let first := (← pull pins.firstPin).toFrame
  let second := (← pull pins.secondPin).toFrame
  let pos := Single.clampUnit ((← pull pins.posPin).asFloat 0)
  n.blend g pins settings first second pos

/-- The first output pin of the first other node that has one. -/
def foreignExit? (n : Node) : Option PinId :=
  (g.nodes.filter fun m => m.id != n.id).findSome? fun m => m.outputs.head?.map Pin.id

/-- Does something with a pin of the node, or nothing if it has no such pin. -/
def withPin (n : Node) (r : PinRef) (f : Pin → RunM Unit) : RunM Unit :=
  match n.body.resolve? r with
  | some p => f p
  | none => pure ()

/-- Reads a pin of the node; nothing is read if it has no such pin. -/
def pullRef (n : Node) (r : PinRef) : RunM Value :=
  match n.body.resolve? r with
  | some p => pull p
  | none => pure .empty

/-- Performs one instruction that does not end the script. -/
def perform (n : Node) : Instruction → RunM Unit
  | .pull r => n.withPin r fun p => do
    let v ← pull p
    note (.pull p.id v)
  | .store r => n.withPin r fun p => do
    let v ← pull p
    store p.id v
  | .set r v => n.withPin r fun p => publish p.id v
  | .copy a b => do
    let v ← pullRef pull n a
    n.withPin b fun p => publish p.id v
  | .add a b c => do
    let x := (← pullRef pull n a).asFloat 0
    let y := (← pullRef pull n b).asFloat 0
    n.withPin c fun p => publish p.id (.float (x + y))
  | .multiply a b c => do
    let x := (← pullRef pull n a).asFloat 0
    let y := (← pullRef pull n b).asFloat 0
    n.withPin c fun p => publish p.id (.float (x * y))
  | .fail message => reportFailure g n.id message
  | .cost milliseconds => recordCost n.id milliseconds
  | .showStack => do note (.stack (← get).stack)
  | .clearStack => clearStack
  | .leave => leave n.id
  | .stop => if mode.stoppable then raiseStop else pure ()
  | .exit _ | .exitIf _ _ | .exitForeign | .halt => pure ()

/-- Performs a script up to its end or to an instruction that ends it. -/
def runScript (n : Node) : List Instruction → RunM (Option PinId)
  | [] => return none
  | .exit r :: _ => return (n.body.resolve? r).map Pin.id
  | .exitIf c r :: rest => do
    let v ← pullRef pull n c
    if v.asBool false then return (n.body.resolve? r).map Pin.id
    else runScript n rest
  | .exitForeign :: _ => return n.foreignExit? g
  | .halt :: _ => return none
  | i :: rest => do
    perform g mode pull n i
    runScript n rest

/-- The effect of a node that flow enters through `entry`, or that is executed for its data if there
is none. -/
def execute (n : Node) (entry : Option PinId) : RunM (Option PinId) := do
  logExecution n.id
  match n.body with
  | .start out => return some out
  | .finish pins => executeFinish pull pins
  | .constant out value => do
    publish out (.float value)
    return none
  | .picture out settings => executePicture g n.id out settings
  | .branch pins => executeBranch pull n.enabled pins
  | .transition pins settings => executeTransition g pull n pins settings
  | .scripted t _ _ => do
    note (.execute n.id entry mode.threading)
    runScript g mode pull n t.script

/-- What a node does when a run starts. -/
def reset (n : Node) : RunM Unit :=
  match n.body with
  | .scripted t _ _ => if t.noteReset then note (.reset n.id) else pure ()
  | _ => pure ()

/-- What a node does when the run is stopped from outside: a transition empties its picture, a
scripted node clears its outputs. -/
def onStop (n : Node) : RunM Unit :=
  match n.body with
  | .transition pins _ => store pins.out (.frame .empty)
  | .scripted _ _ outputs => do
    note (.stop n.id)
    outputs.forM fun p => store p.id p.type.defaultValue
  | _ => pure ()

end Node

end Patchbay
