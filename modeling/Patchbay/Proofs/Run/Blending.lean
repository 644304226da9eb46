import Patchbay.Proofs.Run.EndPoints

/-!
# What a transition publishes

A transition holds on to a compositor from one execution to the next, and tags what it publishes with the
device of that compositor. **`Node.execute_blends`** follows this through any sequence of executions, with
pictures from any devices: two pictures that fit together are blended on the device of the first one, with
its size and its time, and two that do not are refused.

Between two executions of a transition its slot is left alone or emptied, for nothing else has access to it
(`AfterExecutions`). The invariant is that a transition holds no compositor but one that was made for the
device it holds it for.
-/

namespace Patchbay

open Patchbay.Action RunM

/-! ## Pictures that fit together -/

namespace Transition

variable (t : Transition) (first second : Frame) (pos : Float32)

/-- What is published for two pictures at a progress: the composite of both at their offsets, with all else
taken from the first one, except for the element type if one is set. -/
structure Blends (out : Frame) : Prop where
  size : (out.width, out.height, out.channels) = (first.width, first.height, first.channels)
  device : out.device = first.device
  timing : (out.timeStamp, out.rate, out.flags) = (first.timeStamp, first.rate, first.flags)
  elementType : out.elementType =
    if t.elementType = .undefined then first.elementType else t.elementType
  consistent : out.isConsistent = true
  sample : ∀ x y c, x < first.width → y < first.height → c < first.channels →
    ∃ v, out.sample? x y c = some v ∧ Layer.Seen
      [⟨first, (t.move.offsets pos first.width first.height).1.1,
          (t.move.offsets pos first.width first.height).1.2⟩,
        ⟨second, (t.move.offsets pos first.width first.height).2.1,
          (t.move.offsets pos first.width first.height).2.2⟩] x y c v

variable {t first second pos}

/-- What shows the composite and has the time of the first picture is what is published. -/
theorem blends_of_shows (hfits : Transition.Blendable first second) {frame : Frame}
    (h : (t.composite first second pos).Shows first.device frame) :
    t.Blends first second pos (frame.withTimingOf first) where
  size := Prod.ext h.width (Prod.ext h.height h.channels)
  device := h.device
  timing := rfl
  elementType := h.elementType
  consistent := h.consistent
  sample x y c hx hy hc := by
    refine ⟨_, h.sample x y c hx hy hc, Layer.seen_findSome? _ (fun l hl => ?_) x y hc⟩
    simp only [List.mem_cons, List.not_mem_nil, or_false] at hl
    rcases hl with rfl | rfl
    · exact ⟨hfits.first, rfl⟩
    · exact ⟨hfits.second, hfits.channels⟩

end Transition

/-! ## Sequences of executions -/

/-- A state that executions of the transition `n` have led to. At first it holds no compositor. What happens
between two executions, while data is asked for included, leaves alone what it holds, or drops it. -/
inductive AfterExecutions (n : NodeId) : RunState → Prop
  | fresh {s : RunState} (slot : s.memory.slot n = .empty) : AfterExecutions n s
  | meanwhile {s t : RunState} (before : AfterExecutions n s)
    (slot : t.memory.slot n = s.memory.slot n) : AfterExecutions n t
  | executed {s u : RunState} {m : Node} {pins : TransitionPins} {settings : Transition}
    {pull : Pin → RunM Value} {r : Except RunError (List Value)} (g : Graph) (mode : RunMode)
    (entry : Option PinId) (id : m.id = n) (body : m.body = .transition pins settings)
    (gathers : m.Gathers pull s r u) (before : AfterExecutions n u) :
    AfterExecutions n (m.execute g mode pull entry s).2

/-- A transition that has taken up a compositor for a device holds it. -/
theorem RunState.slot_holding (s : RunState) (n : NodeId) (d : Device) :
    (s.holding n d).memory.slot n = ⟨some (d, s.memory.compositor n d)⟩ := by
  simp [holding, Memory.slot, Memory.setSlot, Table.get?_set]

/-- Blending binds the slot of the transition to the device of the first picture. Otherwise it is left
alone. -/
theorem Node.blend_slot (g : Graph) (n : Node) (pins : TransitionPins) (settings : Transition)
    (first second : Frame) (pos : Float32) (s : RunState) :
    (n.blend g pins settings first second pos s).2.memory.slot n.id =
      if first.isEmpty || second.isEmpty then s.memory.slot n.id
      else if n.enabled then ⟨some (first.device, s.memory.compositor n.id first.device)⟩
      else s.memory.slot n.id := by
  rw [blend_apply]
  by_cases hempty : (first.isEmpty || second.isEmpty) = true
  · rw [if_pos hempty, if_pos hempty]
  rw [if_neg hempty, if_neg hempty]
  by_cases hon : n.enabled = true
  · rw [if_pos hon, if_pos hon, ← RunState.slot_holding]
    cases (settings.composite first second pos).draw
        (s.memory.compositor n.id first.device).device with
    | error e => rfl
    | ok frame =>
      dsimp only
      split_ifs <;> rfl
  · rw [if_neg hon, if_neg hon]
    rfl

namespace AfterExecutions

/-- What a transition holds was made for the device that it is held for. -/
theorem device_eq {n : NodeId} {s : RunState} (h : AfterExecutions n s) :
    ∀ d c, (s.memory.slot n).entry = some (d, c) → c.device = d := by
  induction h with
  | fresh slot =>
    intro d c hentry
    rw [slot] at hentry
    cases hentry
  | meanwhile before slot ih => rwa [slot]
  | @executed s u m pins settings pull r g mode entry id body gathers before ih =>
    subst id
    have hbuiltin := Node.isBuiltin_transition body
    cases r with
    | error e =>
      rw [gathers.execute_error g mode hbuiltin]
      exact ih
    | ok values =>
      rw [gathers.execute_ok g mode hbuiltin]
      rcases values with _ | ⟨a, _ | ⟨b, _ | ⟨c, _ | ⟨_, _⟩⟩⟩⟩
      case cons.cons.cons.nil =>
        rw [Node.conclude_transition g body, Node.blend_slot]
        split_ifs
        · exact ih
        · rintro d' c' ⟨⟩
          exact Memory.compositor_device_of_slot ih _
        · exact ih
      all_goals
        simp only [Node.conclude, body]
        exact ih

end AfterExecutions

/-- Executions of a transition may have bound it to any device. -/
theorem exists_afterExecutions (n : NodeId) (d : Device) :
    ∃ s, AfterExecutions n s ∧ s.memory.slot n = ⟨some (d, ⟨d⟩)⟩ := by
  let m : Node := { Graph.exampleNode 0 (.transition (Graph.examplePins 20) .standard) with id := n }
  let v : Value := .frame { Frame.empty with device := d, samples := #[0] }
  have hgathers : m.Gathers (fun _ => pure v) (.initial .empty) (.ok [v, v, v])
      ((RunState.initial .empty).logged n) := rfl
  refine ⟨_, .executed (.empty "") ⟨false, false⟩ none rfl rfl hgathers (.fresh rfl), ?_⟩
  rw [hgathers.execute_ok _ _ rfl, Node.conclude_transition _ rfl]
  exact m.blend_slot _ _ _ _ _ _ _

/-- In a coherent memory, executions of every transition may have led to what it holds. -/
theorem coherent_iff_afterExecutions {s : RunState} :
    s.Coherent ↔ ∀ n, AfterExecutions n s := by
  refine ⟨fun h n => ?_, fun h n => (h n).device_eq⟩
  rcases hslot : s.memory.slot n with ⟨_ | ⟨d, c⟩⟩
  · exact .fresh hslot
  · obtain ⟨t, ht, hbound⟩ := exists_afterExecutions n d
    obtain rfl : c.device = d := h n d c (congrArg Slot.entry hslot)
    exact ht.meanwhile (hslot.trans hbound.symm)

/-- Runs are such sequences of executions, however they end. -/
theorem Graph.runFrom_afterExecutions (g : Graph) (mode : RunMode) (start : NodeId) :
    Action.Keeps (fun s => ∀ n, AfterExecutions n s) (g.runFrom mode start) := by
  simp only [← coherent_iff_afterExecutions]
  exact g.runFrom_coherent mode start

/-- So is what happens while data is asked for. -/
theorem Graph.pull_afterExecutions (g : Graph) (mode : RunMode) (depth : Nat) (p : Pin) :
    Action.Keeps (fun s => ∀ n, AfterExecutions n s) (g.pull mode depth p) := by
  simp only [← coherent_iff_afterExecutions]
  exact g.pull_coherent mode depth p

/-! ## What an execution comes to -/

namespace Node

/-- A transition that was in state `u` when it had its data leaves state `t`, having published picture
`out`. -/
structure Delivers (n : Node) (pins : TransitionPins) (device : Device) (out : Frame) (u t : RunState) :
    Prop where
  value : t.memory.value pins.outPin = .frame out
  cache : t.cache = u.cache.set pins.out (.frame out)
  /-- It has charged once for its work. -/
  costs : t.costs = (u.charged n.id 0).costs
  failures : t.failures = u.failures
  /-- It holds a compositor for the device. -/
  slot : t.memory.slot n.id = ⟨some (device, ⟨device⟩)⟩

/-- A transition that was in state `u` when it had its data leaves state `t`, having reported one failure and
nothing else. -/
structure GivesUp (n : Node) (u t : RunState) : Prop where
  values : t.memory.values = u.memory.values
  cache : t.cache = u.cache
  costs : t.costs = u.costs
  failures : ∃ f, f.node = n.id ∧ t.failures = u.failures ++ [f]

/-- **Transitions blend what fits together and refuse the rest.** A transition that is switched on, and that
any sequence of executions has led to, has two pictures that are there. If they fit together, it publishes
their composite on the device of the first one, charges once and continues through its exit; otherwise it
publishes nothing, charges nothing, reports one failure and gives no exit. -/
theorem execute_blends {n : Node} {pins : TransitionPins} {settings : Transition}
    {pull : Pin → RunM Value} {s u : RunState} (g : Graph) (mode : RunMode)
    (hbody : n.body = .transition pins settings) (entry : Option PinId) (hon : n.enabled = true)
    {a b c : Value} (h : n.Gathers pull s (.ok [a, b, c]) u) (hafter : AfterExecutions n.id u)
    (hrunning : u.stopped = false) (ha : a.toFrame.isEmpty = false) (hb : b.toFrame.isEmpty = false) :
    (Transition.Blendable a.toFrame b.toFrame → ∃ out t,
      n.execute g mode pull entry s = (.ok (some pins.exit), t) ∧
      settings.Blends a.toFrame b.toFrame (Single.clampUnit (c.asFloat 0)) out ∧
      n.Delivers pins a.toFrame.device out u t) ∧
    (¬ Transition.Blendable a.toFrame b.toFrame → ∃ t,
      n.execute g mode pull entry s = (.ok none, t) ∧ n.GivesUp u t) := by
  have hdevice := Memory.compositor_device_of_slot hafter.device_eq
  have hdrawable : (settings.composite a.toFrame b.toFrame (Single.clampUnit (c.asFloat 0))).Drawable ↔
      Transition.Blendable a.toFrame b.toFrame := settings.drawable_composite _ ha
  constructor
  · intro hfits
    obtain ⟨frame, hdraw, hshows⟩ := settings.draw_composite hfits ha (Single.clampUnit (c.asFloat 0))
      a.toFrame.device
    refine ⟨frame.withTimingOf a.toFrame, _,
      execute_blended g mode hbody entry hon h hrunning ha hb ((hdevice _).symm ▸ hdraw),
      Transition.blends_of_shows hfits hshows, ?_, rfl, rfl, rfl, ?_⟩
    · exact Memory.value_store _ pins.outPin _
    · have hbound := u.slot_holding n.id a.toFrame.device
      rwa [show u.memory.compositor n.id a.toFrame.device = ⟨a.toFrame.device⟩ from
        congrArg Compositor.mk (hdevice _)] at hbound
  · intro hunfit
    obtain ⟨e, hdraw, -⟩ := Composite.draw_of_not_drawable
      (u.memory.compositor n.id a.toFrame.device).device (mt hdrawable.mp hunfit)
    refine ⟨(u.holding n.id a.toFrame.device).failed g n.id e.message, ?_, rfl, rfl, rfl, _, rfl, rfl⟩
    rw [h.execute_ok g mode (isBuiltin_transition hbody), conclude_transition g hbody, blend_apply]
    simp [hon, ha, hb, hdraw]

end Node

namespace Graph

/-- The inputs of the transition of the example, and what nodes hold from before. -/
def alone.later (slots : Table NodeId (Slot Device Compositor)) (first second : Frame) (pos : Float32) :
    RunState :=
  .initial { (alone.state first second pos).memory with slots }

theorem alone_gathers_later (enabled : Bool) (move : Move)
    (slots : Table NodeId (Slot Device Compositor)) (first second : Frame) (pos : Float32) :
    (alone.node enabled move).Gathers ((alone enabled move).pull ⟨false, true⟩
      (alone enabled move).pullDepth) (alone.later slots first second pos)
      (.ok [.frame first, .frame second, .float pos])
      ((alone.later slots first second pos).logged (alone.node enabled move).id) := rfl

/-- The transition of the example has blended pictures of an accelerator before. -/
def alone.bound : Table NodeId (Slot Device Compositor) :=
  [((alone.node true .left).id, ⟨some (.gpu 0, ⟨.gpu 0⟩)⟩)]

theorem alone_bound_afterExecutions (first second : Frame) (pos : Float32) :
    AfterExecutions (alone.node true .left).id
      ((alone.later alone.bound first second pos).logged (alone.node true .left).id) := by
  obtain ⟨s, hs, hslot⟩ := exists_afterExecutions (alone.node true .left).id (.gpu 0)
  exact hs.meanwhile hslot.symm

/-- A transition that has blended pictures of an accelerator is given two from the host, and blends them
there. The second one has come from elsewhere, which does not matter, but it must have no more channels. -/
theorem alone_blends :
    let n := alone.node true .left
    let first := Frame.filled 1 1 1 5
    let s := fun second => alone.later alone.bound first second 1
    (∃ out t, (alone true .left).executeNode ⟨false, true⟩ n none
        (s { first with device := .gpu 1 }) = (.ok (some (examplePins 20).exit), t) ∧
      n.Delivers (examplePins 20) .cpu out ((s { first with device := .gpu 1 }).logged n.id) t) ∧
    ∃ t, (alone true .left).executeNode ⟨false, true⟩ n none (s (Frame.filled 1 1 3 5)) =
        (.ok none, t) ∧
      n.GivesUp ((s (Frame.filled 1 1 3 5)).logged n.id) t := by
  intro n first s
  have hspec := fun second => Node.execute_blends (alone true .left) ⟨false, true⟩
    (show n.body = .transition (examplePins 20) ⟨.left, .undefined⟩ from rfl) none rfl
    (alone_gathers_later true .left alone.bound first second 1) (alone_bound_afterExecutions first second 1) rfl
  obtain ⟨out, t, hrun, -, hdelivers⟩ := (hspec { first with device := .gpu 1 } (by decide +kernel)
    (by decide +kernel)).1 ⟨by decide +kernel, by decide +kernel, rfl⟩
  obtain ⟨t', hrun', hgives⟩ := (hspec (Frame.filled 1 1 3 5) (by decide +kernel)
    (by decide +kernel)).2 fun h => absurd h.channels (by decide +kernel)
  exact ⟨⟨out, t, hrun, hdelivers⟩, t', hrun', hgives⟩

end Graph

end Patchbay
