import Patchbay.Proofs.Run.Coherent

/-!
# What nodes of the built-in kinds do

A node of a built-in kind first asks for the values of some of its input pins, in a fixed order, and
then does the rest without asking for anything: `Node.execute_eq` splits its execution into
`Node.reads` and `Node.conclude`. The conclusion never fails, and `Node.conclude_spec` bounds what
it can do: it publishes on its own output pins, reports one failure of its own at most, and answers
with one of its own output flow pins or with none. Only an end node touches the call stack. Which value
is stored on which pin is told by `Node.conclude_yields`; the pins are those that the node writes and no others
(`Node.conclude_written`).

Statements about whole runs therefore need to follow the asking alone.
-/

namespace Patchbay

open Patchbay.Action RunM

/-! ## Built-in kinds -/

/-- Whether this is one of the built-in kinds. -/
def Body.isBuiltin : Body → Bool
  | .scripted _ _ _ => false
  | _ => true

/-- All nodes of the graph are of the built-in kinds. -/
def Graph.IsBuiltin (g : Graph) : Prop := ∀ n ∈ g.nodes, n.body.isBuiltin = true

/-- What storing one value at most, on one of the pins `ps`, makes of the values in state `s`. A value stored
on an output is published as well. -/
inductive RunState.Written (ps : List Pin) (s t : RunState) : Prop
  | nothing (values : t.memory.values = s.memory.values) (cache : t.cache = s.cache)
  | stored {p : Pin} {v : Value} (mem : p ∈ ps) (values : t.memory.values = s.memory.values.set p.id v)
      (cache : t.cache = if p.direction = .output then s.cache.set p.id v else s.cache)

/-- The same, where it is told as well which value is stored on which pin. -/
inductive RunState.Deposits (told : Pin → Value → Prop) (s t : RunState) : Prop
  | nothing (values : t.memory.values = s.memory.values) (cache : t.cache = s.cache)
  | stored {p : Pin} {v : Value} (told : told p v) (values : t.memory.values = s.memory.values.set p.id v)
      (cache : t.cache = if p.direction = .output then s.cache.set p.id v else s.cache)

namespace Node

/-- The pins that a node asks for when it is executed, in order. A branch that is switched off asks
for nothing. -/
def reads (n : Node) : List Pin :=
  match n.body with
  | .finish pins => [pins.framePin]
  | .branch pins => if n.enabled then [pins.conditionPin] else []
  | .transition pins _ => [pins.firstPin, pins.secondPin, pins.posPin]
  | .start _ | .constant _ _ | .picture _ _ | .scripted _ _ _ => []

/-- What a node does once it has the values it has asked for. -/
def conclude (g : Graph) (n : Node) (values : List Value) : RunM (Option PinId) :=
  match n.body, values with
  | .start out, _ => return some out
  | .finish pins, [frame] => do
    store pins.frame frame
    clearStack
    return none
  | .constant out value, _ => do
    publish out (.float value)
    return none
  | .picture out settings, _ => executePicture g n.id out settings
  | .branch pins, [] => return some pins.onTrue
  | .branch pins, condition :: _ =>
    return some (if condition.asBool false then pins.onTrue else pins.onFalse)
  | .transition pins settings, [first, second, pos] =>
    n.blend g pins settings first.toFrame second.toFrame (Single.clampUnit (pos.asFloat 0))
  | _, _ => return none

/-- **Asking, then concluding.** -/
theorem execute_eq (g : Graph) (mode : RunMode) (pull : Pin → RunM Value) {n : Node}
    (hn : n.body.isBuiltin = true) (entry : Option PinId) :
    n.execute g mode pull entry = (do
      logExecution n.id
      let values ← n.reads.mapM pull
      n.conclude g values) := by
  simp only [execute, reads, conclude]
  cases hbody : n.body with
  | start out => simp
  | finish pins => simp [executeFinish]
  | constant out value => simp
  | picture out settings => simp
  | branch pins => cases henabled : n.enabled <;> simp [executeBranch]
  | transition pins settings => simp [executeTransition]
  | scripted t ins outs => simp [hbody, Body.isBuiltin] at hn

/-- An exit that a node may answer with: one of its own output flow pins, or none. -/
def MayExit (n : Node) (exit : Option PinId) : Prop :=
  ∀ i, exit = some i → ∃ p ∈ n.outputs, p.id = i ∧ p.isFlow = true

/-- What concluding a node may change from state `s` to state `t`. -/
structure Concludes (n : Node) (s t : RunState) : Prop where
  /-- Only an end node touches the call stack: it empties it. -/
  stack : t.stack = if n.isExit then [] else s.stack
  executed : t.executed = s.executed
  pulledExits : t.pulledExits = s.pulledExits
  stopped : t.stopped = s.stopped
  log : t.log = s.log
  /-- At most one failure is reported, of the node itself. -/
  failures : t.failures = s.failures ∨ ∃ f, f.node = n.id ∧ t.failures = s.failures ++ [f]
  /-- Only output pins of the node itself are published. -/
  published : ∀ i v, t.cache.get? i = some v → s.cache.get? i = some v ∨ ∃ p ∈ n.outputs, p.id = i
  coherent : s.memory.Coherent → t.memory.Coherent

/-- What blending comes to, case by case. -/
theorem blend_apply (g : Graph) (n : Node) (pins : TransitionPins) (settings : Transition)
    (first second : Frame) (pos : Float32) (s : RunState) :
    n.blend g pins settings first second pos s =
      if first.isEmpty || second.isEmpty then (.ok (some pins.exit), s)
      else if n.enabled then
        match (settings.composite first second pos).draw
            (s.memory.compositor n.id first.device).device with
        | .error e => (.ok none, (s.holding n.id first.device).failed g n.id e.message)
        | .ok frame =>
          (.ok (some pins.exit),
            if s.stopped then (s.holding n.id first.device).charged n.id 0
            else ((s.holding n.id first.device).charged n.id 0).published pins.out
              (.frame (frame.withTimingOf first)))
      else (.ok (some pins.exit), s.published pins.out (.frame first)) := by
  rw [blend]
  by_cases hempty : (first.isEmpty || second.isEmpty) = true
  · simp only [hempty, if_true]
    rfl
  simp only [hempty, Bool.false_eq_true, if_false]
  cases henabled : n.enabled with
  | false => rfl
  | true =>
    simp only [Bool.not_true, Bool.false_eq_true, if_false, if_true]
    rw [bind_ok (acquireCompositor_apply n.id s first.device)]
    dsimp only
    cases (settings.composite first second pos).draw
        (s.memory.compositor n.id first.device).device with
    | error e => rfl
    | ok frame =>
      dsimp only
      rw [bind_ok (recordCost_apply n.id _ 0), get_bind_apply]
      have hstopped : ((s.holding n.id first.device).charged n.id 0).stopped = s.stopped := rfl
      rw [hstopped]
      cases s.stopped <;> rfl

/-- What a picture source comes to. -/
theorem executePicture_apply (g : Graph) (n : NodeId) (out : PinId) (settings : Picture)
    (s : RunState) : executePicture g n out settings s =
      (.ok none,
        if settings.isUsable then s.published out (.frame settings.render)
        else s.failed g n
          ("invalid frame size " ++ sizeText settings.width settings.height settings.channels)) := by
  rw [executePicture]
  cases settings.isUsable <;> rfl

/-! ## Bounds on what concluding changes -/

section Concludes

variable {n : Node} (hexit : n.isExit = false) (s : RunState) {memory : Memory}
  (hmemory : s.memory.Coherent → memory.Coherent) (costs : Table NodeId Nat)
include hexit hmemory

/-- Changes of memory and costs alone are allowed. -/
lemma concludes_quiet : n.Concludes s { s with memory, costs } where
  stack := by simp [hexit]
  executed := rfl
  pulledExits := rfl
  stopped := rfl
  log := rfl
  failures := Or.inl rfl
  published _ _ h := Or.inl h
  coherent := hmemory

/-- Publishing on an output pin of the node is allowed as well. -/
lemma concludes_published {p : Pin} (hp : p ∈ n.outputs) (v : Value) :
    n.Concludes s { s with
      memory := memory.store p.id v, costs, cache := s.cache.set p.id v } where
  stack := by simp [hexit]
  executed := rfl
  pulledExits := rfl
  stopped := rfl
  log := rfl
  failures := Or.inl rfl
  published i w h := by
    rw [Table.get?_set] at h
    split_ifs at h with heq
    · exact Or.inr ⟨p, hp, heq⟩
    · exact Or.inl h
  coherent h := (hmemory h).store p.id v

/-- Reporting one failure of the node is allowed as well. -/
lemma concludes_failed {f : NodeFailure} (hf : f.node = n.id) :
    n.Concludes s { s with memory, costs, failures := s.failures ++ [f] } where
  stack := by simp [hexit]
  executed := rfl
  pulledExits := rfl
  stopped := rfl
  log := rfl
  failures := Or.inr ⟨f, hf, rfl⟩
  published _ _ h := Or.inl h
  coherent := hmemory

end Concludes

/-- The end nodes are the exit nodes among those of the built-in kinds. -/
theorem isExit_iff {n : Node} (hn : n.body.isBuiltin = true) :
    n.isExit = true ↔ ∃ pins, n.body = .finish pins := by
  rw [isExit, role, info]
  cases hbody : n.body <;> simp_all [Body.info, Builtin.info, Body.isBuiltin]

/-- Giving no exit is always allowed. -/
lemma mayExit_none (n : Node) : n.MayExit none := by
  intro i h
  cases h

lemma mayExit_some {n : Node} {p : Pin} (hp : p ∈ n.outputs) (hflow : p.isFlow = true) :
    n.MayExit (some p.id) := by
  intro i h
  exact ⟨p, hp, Option.some.inj h, hflow⟩

/-- **What blending comes to**, within the same bounds. -/
lemma blend_spec (g : Graph) {n : Node} {pins : TransitionPins} (settings : Transition)
    (first second : Frame) (pos : Float32) (hexit : n.isExit = false)
    (hflow : pins.exitPin ∈ n.outputs) (hout : pins.outPin ∈ n.outputs) (s : RunState) :
    ∃ exit t, n.blend g pins settings first second pos s = (.ok exit, t) ∧
      n.MayExit exit ∧ n.Concludes s t := by
  have hmay : n.MayExit (some pins.exit) := mayExit_some hflow rfl
  have hhold := fun h : s.memory.Coherent => h.hold n.id first.device
  rw [blend_apply]
  by_cases hempty : (first.isEmpty || second.isEmpty) = true
  · rw [if_pos hempty]
    exact ⟨_, s, rfl, hmay, concludes_quiet hexit s (fun h => h) s.costs⟩
  rw [if_neg hempty]
  by_cases henabled : n.enabled = true
  · rw [if_pos henabled]
    cases (settings.composite first second pos).draw
        (s.memory.compositor n.id first.device).device with
    | error e => exact ⟨none, _, rfl, mayExit_none n, concludes_failed hexit s hhold s.costs rfl⟩
    | ok frame =>
      refine ⟨_, _, rfl, hmay, ?_⟩
      split_ifs
      · exact concludes_quiet hexit s hhold _
      · exact concludes_published hexit s hhold _ hout _
  · rw [if_neg henabled]
    exact ⟨_, _, rfl, hmay, concludes_published hexit s (fun h => h) s.costs hout _⟩

/-- **What concluding comes to.** It never fails, answers with an exit of the node's own, and
changes no more than `Concludes` allows. -/
theorem conclude_spec (g : Graph) {n : Node} (hn : n.body.isBuiltin = true) {values : List Value}
    (hvalues : values.length = n.reads.length) (s : RunState) :
    ∃ exit t, n.conclude g values s = (.ok exit, t) ∧ n.MayExit exit ∧ n.Concludes s t := by
  have hinner : (∀ pins, n.body ≠ .finish pins) → n.isExit = false := by
    intro h
    rw [← Bool.not_eq_true, isExit_iff hn]
    rintro ⟨pins, hpins⟩
    exact h pins hpins
  simp only [conclude]
  rw [reads] at hvalues
  cases hbody : n.body with
  | start out =>
    have hexit := hinner (by simp [hbody])
    have hout : startPin out ∈ n.outputs := by simp [outputs, hbody, Body.outputs]
    exact ⟨_, s, rfl, mayExit_some hout rfl, concludes_quiet hexit s (fun h => h) s.costs⟩
  | finish pins =>
    simp only [hbody] at hvalues
    obtain ⟨frame, rfl⟩ := List.length_eq_one_iff.mp hvalues
    have hexit : n.isExit = true := (isExit_iff hn).mpr ⟨pins, hbody⟩
    refine ⟨none, (s.stored pins.frame frame).clear, rfl, mayExit_none n, ?_⟩
    exact ⟨by simp [hexit, RunState.clear], rfl, rfl, rfl, rfl, Or.inl rfl, fun _ _ h => Or.inl h,
      fun h => h⟩
  | constant out value =>
    have hexit := hinner (by simp [hbody])
    have hout : constantPin out ∈ n.outputs := by simp [outputs, hbody, Body.outputs]
    exact ⟨_, s.published out (.float value), rfl, mayExit_none n,
      concludes_published hexit s (fun h => h) s.costs hout _⟩
  | picture out settings =>
    have hexit := hinner (by simp [hbody])
    have hout : picturePin out ∈ n.outputs := by simp [outputs, hbody, Body.outputs]
    refine ⟨none, _, executePicture_apply g n.id out settings s, mayExit_none n, ?_⟩
    split_ifs
    · exact concludes_published hexit s (fun h => h) s.costs hout _
    · exact concludes_failed hexit s (fun h => h) s.costs rfl
  | branch pins =>
    have hexit := hinner (by simp [hbody])
    have htrue : pins.truePin ∈ n.outputs := by simp [outputs, hbody, Body.outputs]
    have hfalse : pins.falsePin ∈ n.outputs := by simp [outputs, hbody, Body.outputs]
    have hquiet := concludes_quiet hexit s (fun h => h) s.costs
    cases values with
    | nil => exact ⟨_, s, rfl, mayExit_some htrue rfl, hquiet⟩
    | cons condition rest =>
      refine ⟨_, s, rfl, ?_, hquiet⟩
      cases condition.asBool false
      · exact mayExit_some hfalse rfl
      · exact mayExit_some htrue rfl
  | transition pins settings =>
    have hexit := hinner (by simp [hbody])
    have hflow : pins.exitPin ∈ n.outputs := by simp [outputs, hbody, Body.outputs]
    have hout : pins.outPin ∈ n.outputs := by simp [outputs, hbody, Body.outputs]
    simp only [hbody] at hvalues
    obtain ⟨first, second, pos, rfl⟩ := List.length_eq_three.mp hvalues
    exact blend_spec g settings _ _ _ hexit hflow hout s
  | scripted t ins outs => simp [hbody, Body.isBuiltin] at hn

/-- The bounds on concluding, for a conclusion at hand. -/
theorem concludes_of_eq {g : Graph} {n : Node} (hn : n.body.isBuiltin = true)
    {values : List Value} (hvalues : values.length = n.reads.length) {s t : RunState}
    {exit : Option PinId} (h : n.conclude g values s = (.ok exit, t)) :
    n.MayExit exit ∧ n.Concludes s t := by
  obtain ⟨exit', t', heq, hmay, hconcludes⟩ := conclude_spec g hn hvalues s
  obtain ⟨hexit, rfl⟩ := Prod.mk.inj (heq.symm.trans h)
  exact ⟨Except.ok.inj hexit ▸ hmay, hconcludes⟩

/-- A node that has not failed before has failed once at most when it is concluded. -/
theorem Concludes.failures_nodup {n : Node} {s t : RunState} (h : n.Concludes s t)
    (hnd : (s.failures.map NodeFailure.node).Nodup) (hnew : ∀ f ∈ s.failures, f.node ≠ n.id) :
    (t.failures.map NodeFailure.node).Nodup := by
  rcases h.failures with heq | ⟨f, hf, heq⟩
  · rw [heq]
    exact hnd
  · rw [heq, List.map_append, List.nodup_append]
    refine ⟨hnd, List.nodup_singleton _, fun a ha b hb => ?_⟩
    obtain ⟨f', hf', rfl⟩ := List.mem_map.mp ha
    rw [List.map_singleton, List.mem_singleton, hf] at hb
    rw [hb]
    exact hnew f' hf'

/-! ## What concluding stores -/

/-- The pins on which a node of a built-in kind stores what it makes: the outputs of constants, of picture
sources and of transitions, and the frame pins of end nodes. -/
def writes (n : Node) : List Pin :=
  match n.body with
  | .constant out _ => [constantPin out]
  | .picture out _ => [picturePin out]
  | .transition pins _ => [pins.outPin]
  | .finish pins => [pins.framePin]
  | .start _ | .branch _ | .scripted _ _ _ => []

/-- A node writes on pins of its own. -/
theorem writes_subset (n : Node) : n.writes ⊆ n.pins := by
  intro p hp
  rw [writes] at hp
  rw [pins, inputs, outputs]
  cases hbody : n.body <;> simp_all [Body.inputs, Body.outputs]

/-- What a node may make of the values that it has been given, and the pin on which it is stored. -/
inductive Yields (n : Node) (values : List Value) : Pin → Value → Prop
  | constant {out : PinId} {value : Float32} (body : n.body = .constant out value) :
      Yields n values (constantPin out) (.float value)
  | picture {out : PinId} {settings : Picture} (body : n.body = .picture out settings)
      (usable : settings.isUsable = true) : Yields n values (picturePin out) (.frame settings.render)
  /-- A transition that is switched off passes its first picture on. -/
  | passed {pins : TransitionPins} {settings : Transition} {first : Value}
      (body : n.body = .transition pins settings) (mem : first ∈ values)
      (some : first.toFrame.isEmpty = false) : Yields n values pins.outPin (.frame first.toFrame)
  | blended {pins : TransitionPins} {settings : Transition} {first : Value} {second frame : Frame}
      {pos : Float32} {device : Device} (body : n.body = .transition pins settings) (mem : first ∈ values)
      (draws : (settings.composite first.toFrame second pos).draw device = .ok frame) :
      Yields n values pins.outPin (.frame (frame.withTimingOf first.toFrame))
  /-- An end node keeps what it is given. -/
  | kept {pins : FinishPins} {frame : Value} (body : n.body = .finish pins) (mem : frame ∈ values) :
      Yields n values pins.framePin frame

/-- What a node makes is stored on the pins that it writes. -/
theorem Yields.mem_writes {n : Node} {values : List Value} {p : Pin} {v : Value} (h : n.Yields values p v) :
    p ∈ n.writes := by
  cases h with
  | constant body | picture body | passed body | blended body | kept body => simp [writes, body]

theorem blend_yields (g : Graph) {n : Node} {pins : TransitionPins} {settings : Transition}
    (hbody : n.body = .transition pins settings) {values : List Value} {first : Value}
    (hfirst : first ∈ values) (second : Frame) (pos : Float32) (s : RunState) :
    s.Deposits (n.Yields values) (n.blend g pins settings first.toFrame second pos s).2 := by
  rw [blend_apply]
  by_cases hmissing : (first.toFrame.isEmpty || second.isEmpty) = true
  · rw [if_pos hmissing]
    exact .nothing rfl rfl
  rw [if_neg hmissing]
  by_cases hon : n.enabled = true
  · rw [if_pos hon]
    cases hdraw : (settings.composite first.toFrame second pos).draw
        (s.memory.compositor n.id first.toFrame.device).device with
    | error e => exact .nothing rfl rfl
    | ok frame =>
      dsimp only
      split_ifs
      · exact .nothing rfl rfl
      · exact .stored (.blended hbody hfirst hdraw) rfl rfl
  · rw [if_neg hon]
    have hsome : first.toFrame.isEmpty = false := by
      rw [Bool.or_eq_true, not_or] at hmissing
      exact Bool.not_eq_true _ ▸ hmissing.1
    exact .stored (.passed hbody hfirst hsome) rfl rfl

/-- **What concluding a node stores**, pin and value. -/
theorem conclude_yields (g : Graph) {n : Node} (hn : n.body.isBuiltin = true) (values : List Value)
    (s : RunState) : s.Deposits (n.Yields values) (n.conclude g values s).2 := by
  simp only [conclude]
  cases hbody : n.body with
  | start out => exact .nothing rfl rfl
  | finish pins =>
    rcases values with _ | ⟨frame, _ | ⟨_, _⟩⟩
    · exact .nothing rfl rfl
    · exact .stored (.kept hbody List.mem_cons_self) rfl rfl
    · exact .nothing rfl rfl
  | constant out value => exact .stored (.constant hbody) rfl rfl
  | picture out settings =>
    show s.Deposits (n.Yields values) (executePicture g n.id out settings s).2
    rw [executePicture_apply]
    dsimp only
    split_ifs with husable
    · exact .stored (.picture hbody husable) rfl rfl
    · exact .nothing rfl rfl
  | branch pins => cases values <;> exact .nothing rfl rfl
  | transition pins settings =>
    rcases values with _ | ⟨first, _ | ⟨second, _ | ⟨pos, _ | ⟨_, _⟩⟩⟩⟩
    case cons.cons.cons.nil => exact blend_yields g hbody List.mem_cons_self _ _ s
    all_goals exact .nothing rfl rfl
  | scripted type ins outs => simp [hbody, Body.isBuiltin] at hn

/-- Concluding a node stores one value at most, on one of the pins that it writes. -/
theorem conclude_written (g : Graph) {n : Node} (hn : n.body.isBuiltin = true) (values : List Value)
    (s : RunState) : RunState.Written n.writes s (n.conclude g values s).2 := by
  cases n.conclude_yields g hn values s with
  | nothing values cache => exact .nothing values cache
  | stored told values cache => exact .stored told.mem_writes values cache

/-! ## Pins -/

/-- A node asks for input pins of its own. -/
theorem reads_subset (n : Node) : n.reads ⊆ n.inputs := by
  intro p hp
  rw [reads] at hp
  rw [inputs]
  cases hbody : n.body <;> simp only [hbody, Body.inputs] at hp ⊢
  case finish pins => simp_all
  case transition pins settings => simp_all
  case branch pins =>
    split_ifs at hp
    · simp_all
    · simp at hp
  all_goals simp at hp

section Direction

variable {n : Node} (hn : n.body.isBuiltin = true) {p : Pin}
include hn

theorem direction_of_mem_outputs (hp : p ∈ n.outputs) : p.direction = .output := by
  simp only [outputs, Body.outputs] at hp
  split at hp
  case h_7 t ins outs hbody => simp [hbody, Body.isBuiltin] at hn
  all_goals simp only [List.mem_cons, List.not_mem_nil, or_false] at hp
  all_goals rcases hp with rfl | rfl <;> rfl

theorem direction_of_mem_inputs (hp : p ∈ n.inputs) : p.direction = .input := by
  simp only [inputs, Body.inputs] at hp
  split at hp
  case h_7 t ins outs hbody => simp [hbody, Body.isBuiltin] at hn
  all_goals simp only [List.mem_cons, List.not_mem_nil, or_false] at hp
  all_goals rcases hp with rfl | rfl | rfl | rfl <;> rfl

/-- The pins of a node that face outwards are its outputs. -/
theorem mem_outputs_of_direction (hp : p ∈ n.pins) (hout : p.direction = .output) :
    p ∈ n.outputs := by
  rcases List.mem_append.mp hp with hin | hp
  · rw [direction_of_mem_inputs hn hin] at hout
    cases hout
  · exact hp

end Direction

end Node

end Patchbay
