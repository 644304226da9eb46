import Patchbay.Proofs.Run.Builtin

/-!
# What a run should compute

The reference knows nothing of runs: it has no state, no published values and no record of what was
executed. `Reference.value` evaluates a pin from scratch, each time it is asked for, from the values
that unlinked inputs keep in a memory; `Reference.flow` follows flow and evaluates what decides it in
the same way. Both recurse over the graph and give up at a depth, so that they are defined on graphs
with cycles, too. `Reference.HasValue` and `Reference.HasFlow` are their results at any sufficient
depth.

What one node contributes is in `Node.publishes` and `Node.exitOn`, functions of the values it reads.
`Node.conclude_computes` says that concluding a node performs just this, if every compositor in
memory is the one made for its device (`Memory.Coherent`) and the run has not been asked to stop.
-/

namespace Patchbay

open Patchbay.Action RunM

/-! ## Single nodes -/

namespace Node

/-- What a transition makes of its pictures: nothing if one is empty, the first of them if it is
switched off, and else their composite, which may fail. -/
def composed (n : Node) (settings : Transition) (first second : Frame) (pos : Float32) :
    Except CompositeError (Option Frame) :=
  if first.isEmpty || second.isEmpty then .ok none
  else if n.enabled then
    ((settings.composite first second pos).draw first.device).map fun frame =>
      some (frame.withTimingOf first)
  else .ok (some first)

/-- The values that a node publishes, from the values it reads. -/
def publishes (n : Node) (values : List Value) : Table PinId Value :=
  match n.body, values with
  | .constant out value, _ => [(out, .float value)]
  | .picture out settings, _ =>
    if settings.isUsable then [(out, .frame settings.render)] else []
  | .transition pins settings, [first, second, pos] =>
    match n.composed settings first.toFrame second.toFrame (Single.clampUnit (pos.asFloat 0)) with
    | .ok (some frame) => [(pins.out, .frame frame)]
    | _ => []
  | _, _ => []

/-- The values that a node stores: those it publishes, and what an end node is given. -/
def stores (n : Node) (values : List Value) : Table PinId Value :=
  match n.body, values with
  | .finish pins, [frame] => [(pins.frame, frame)]
  | _, _ => n.publishes values

/-- The exit that a node answers with, from the values it reads. -/
def exitOn (n : Node) (values : List Value) : Option PinId :=
  match n.body, values with
  | .start out, _ => some out
  | .branch pins, [] => some pins.onTrue
  | .branch pins, condition :: _ =>
    some (if condition.asBool false then pins.onTrue else pins.onFalse)
  | .transition pins settings, [first, second, pos] =>
    match n.composed settings first.toFrame second.toFrame (Single.clampUnit (pos.asFloat 0)) with
    | .ok _ => some pins.exit
    | .error _ => none
  | _, _ => none

end Node

/-! ## The reference -/

namespace Reference

variable (g : Graph) (m : Memory)

/-- The value of a pin. An unlinked input has the value it keeps. Any other pin has what the node
that supplies it publishes, or else the default of the type of the pin that supplies it. -/
def value : Nat → Pin → Option Value
  | 0, _ => none
  | depth + 1, p =>
    match g.sourceOf? p with
    | none => some (m.value p)
    | some source => do
      let q ← g.pin? source
      let n ← (g.owner? source).bind g.node?
      let values ← n.reads.mapM (value depth)
      return ((n.publishes values).get? source).getD q.type.defaultValue

/-- How a run ends that steps into a node after those in `path`, and its whole path. -/
def flow : Nat → NodeId → List NodeId → Option (RunStatus × List NodeId)
  | 0, _, _ => none
  | depth + 1, n, path => do
    let node ← g.node? n
    let values ← node.reads.mapM (value g m depth)
    if node.isExit then return (.completed, path ++ [n])
    match (node.exitOn values).bind fun p => (g.linksFrom p).head? with
    | none => return (.halted, path ++ [n])
    | some l => flow depth l.toNode (path ++ [n])

/-- A pin evaluates to a value. -/
def HasValue (p : Pin) (v : Value) : Prop :=
  ∃ depth, ∀ d, depth ≤ d → value g m d p = some v

/-- A run that steps into a node after those in `path` ends like this. -/
def HasFlow (n : NodeId) (path : List NodeId) (status : RunStatus) (path' : List NodeId) : Prop :=
  ∃ depth, ∀ d, depth ≤ d → flow g m d n path = some (status, path')

variable {g m}

/-- A pin has one value at most. -/
theorem HasValue.unique {p : Pin} {v w : Value} (hv : HasValue g m p v) (hw : HasValue g m p w) :
    v = w := by
  obtain ⟨d, hd⟩ := hv
  obtain ⟨e, he⟩ := hw
  have h := hd (max d e) (le_max_left d e)
  rw [he (max d e) (le_max_right d e)] at h
  exact (Option.some.inj h).symm

/-- Pins that each have a value can be evaluated one after the other. -/
theorem exists_mapM_value {ps : List Pin} {vs : List Value}
    (h : List.Forall₂ (HasValue g m) ps vs) :
    ∃ depth, ∀ d, depth ≤ d → ps.mapM (value g m d) = some vs := by
  induction h with
  | nil => exact ⟨0, fun d _ => rfl⟩
  | cons hp _ ih =>
    obtain ⟨d, hd⟩ := hp
    obtain ⟨e, he⟩ := ih
    refine ⟨max d e, fun k hk => ?_⟩
    simp [List.mapM_cons, hd k (le_trans (le_max_left d e) hk),
      he k (le_trans (le_max_right d e) hk)]

/-- An unlinked input has the value it keeps. -/
theorem hasValue_unlinked {p : Pin} (h : g.sourceOf? p = none) : HasValue g m p (m.value p) := by
  refine ⟨1, fun d hd => ?_⟩
  obtain ⟨d, rfl⟩ := Nat.exists_eq_succ_of_ne_zero (Nat.one_le_iff_ne_zero.mp hd)
  simp [value, h]

section Flow

variable {node : Node} {path : List NodeId} {vs : List Value} (hnode : g.node? node.id = some node)
  (hreads : List.Forall₂ (HasValue g m) node.reads vs)
include hnode hreads

/-- Flow ends at an end node. -/
theorem hasFlow_completed (hexit : node.isExit = true) :
    HasFlow g m node.id path .completed (path ++ [node.id]) := by
  obtain ⟨depth, hdepth⟩ := exists_mapM_value hreads
  refine ⟨depth + 1, fun d hd => ?_⟩
  obtain ⟨d, rfl⟩ := Nat.exists_eq_add_of_le' (le_trans (Nat.le_add_left 1 depth) hd)
  simp [flow, hnode, hdepth d (Nat.le_of_succ_le_succ hd), hexit]

/-- Flow ends where no exit leads on. -/
theorem hasFlow_halted (hexit : node.isExit = false)
    (hnowhere : (node.exitOn vs).bind (fun p => (g.linksFrom p).head?) = none) :
    HasFlow g m node.id path .halted (path ++ [node.id]) := by
  obtain ⟨depth, hdepth⟩ := exists_mapM_value hreads
  refine ⟨depth + 1, fun d hd => ?_⟩
  obtain ⟨d, rfl⟩ := Nat.exists_eq_add_of_le' (le_trans (Nat.le_add_left 1 depth) hd)
  simp [flow, hnode, hdepth d (Nat.le_of_succ_le_succ hd), hexit, hnowhere]

/-- Flow goes on through the first link of the exit. -/
theorem hasFlow_onward (hexit : node.isExit = false) {l : Link}
    (hfirst : (node.exitOn vs).bind (fun p => (g.linksFrom p).head?) = some l) {status : RunStatus}
    {path' : List NodeId} (h : HasFlow g m l.toNode (path ++ [node.id]) status path') :
    HasFlow g m node.id path status path' := by
  obtain ⟨depth, hdepth⟩ := exists_mapM_value hreads
  obtain ⟨depth', hdepth'⟩ := h
  refine ⟨max depth depth' + 1, fun d hd => ?_⟩
  obtain ⟨d, rfl⟩ := Nat.exists_eq_add_of_le' (le_trans (Nat.le_add_left 1 _) hd)
  have hle := Nat.le_of_succ_le_succ hd
  simp [flow, hnode, hdepth d (le_trans (le_max_left _ _) hle), hexit, hfirst,
    hdepth' d (le_trans (le_max_right _ _) hle)]

end Flow

end Reference

/-! ## Concluding a node computes this -/

namespace Node

/-- What concluding a node comes to, in terms of the values it has read. -/
structure Computes (n : Node) (values : List Value) (exit : Option PinId) (s t : RunState) :
    Prop where
  exit_eq : exit = n.exitOn values
  cache_eq : ∀ i, t.cache.get? i = ((n.publishes values).get? i).or (s.cache.get? i)
  values_eq : ∀ i,
    t.memory.values.get? i = ((n.stores values).get? i).or (s.memory.values.get? i)

section Computes

variable {n : Node} {values : List Value} (s : RunState) (memory : Memory) (costs : Table NodeId Nat)
  (failures : List NodeFailure) (hvalues : memory.values = s.memory.values)
include hvalues

/-- A node that neither publishes nor stores a value. -/
lemma computes_nothing {exit : Option PinId} (hexit : exit = n.exitOn values)
    (hpublishes : n.publishes values = []) (hstores : n.stores values = []) :
    n.Computes values exit s { s with memory, costs, failures } where
  exit_eq := hexit
  cache_eq i := by simp [hpublishes]
  values_eq i := by simp [hstores, hvalues]

/-- A node that publishes a value on a pin. -/
lemma computes_published {exit : Option PinId} (hexit : exit = n.exitOn values) {p : PinId}
    {v : Value} (hpublishes : n.publishes values = [(p, v)]) (hstores : n.stores values = [(p, v)]) :
    n.Computes values exit s { s with
      memory := memory.store p v, costs, failures, cache := s.cache.set p v } where
  exit_eq := hexit
  cache_eq i := by
    rw [hpublishes, Table.get?_set]
    by_cases hi : p = i <;> simp [Table.get?, hi]
  values_eq i := by
    rw [hstores, Memory.store, Table.get?_set, hvalues]
    by_cases hi : p = i <;> simp [Table.get?, hi]

end Computes

/-- Blending publishes what the pictures compose to. What else it changes is no value. -/
lemma blend_eq_composed (g : Graph) (n : Node) (pins : TransitionPins) (settings : Transition)
    (first second : Frame) (pos : Float32) {s : RunState} (hrunning : s.stopped = false)
    (hs : s.memory.Coherent) :
    ∃ memory costs failures, memory.values = s.memory.values ∧
      n.blend g pins settings first second pos s =
        match n.composed settings first second pos with
        | .error _ => (.ok none, { s with memory, costs, failures })
        | .ok none => (.ok (some pins.exit), { s with memory, costs, failures })
        | .ok (some frame) =>
          (.ok (some pins.exit), { s with
            memory := memory.store pins.out (.frame frame), costs, failures
            cache := s.cache.set pins.out (.frame frame) }) := by
  let held := s.holding n.id first.device
  rw [blend_apply, hs.compositor_device n.id, composed]
  by_cases hempty : (first.isEmpty || second.isEmpty) = true
  · simp only [if_pos hempty]
    exact ⟨s.memory, s.costs, s.failures, rfl, rfl⟩
  simp only [if_neg hempty]
  by_cases henabled : n.enabled = true
  · have hgoing : ¬ s.stopped = true := by simp [hrunning]
    simp only [if_pos henabled, if_neg hgoing]
    cases (settings.composite first second pos).draw first.device with
    | error e => exact ⟨held.memory, s.costs, (held.failed g n.id e.message).failures, rfl, rfl⟩
    | ok frame => exact ⟨held.memory, (held.charged n.id 0).costs, s.failures, rfl, rfl⟩
  · simp only [if_neg henabled]
    exact ⟨s.memory, s.costs, s.failures, rfl, rfl⟩

/-- Blending computes what the reference says of a transition. -/
lemma blend_computes (g : Graph) {n : Node} {pins : TransitionPins} {settings : Transition}
    (hbody : n.body = .transition pins settings) {first second pos : Value} {s t : RunState}
    (hrunning : s.stopped = false) (hs : s.memory.Coherent) {exit : Option PinId}
    (h : n.blend g pins settings first.toFrame second.toFrame (Single.clampUnit (pos.asFloat 0)) s =
      (.ok exit, t)) : n.Computes [first, second, pos] exit s t := by
  obtain ⟨memory, costs, failures, hvalues, hblend⟩ := blend_eq_composed g n pins settings
    first.toFrame second.toFrame (Single.clampUnit (pos.asFloat 0)) hrunning hs
  rw [hblend] at h
  have hstores : n.stores [first, second, pos] = n.publishes [first, second, pos] := by
    simp [stores, hbody]
  cases hcomposed : n.composed settings first.toFrame second.toFrame
      (Single.clampUnit (pos.asFloat 0)) with
  | error e =>
    simp only [hcomposed] at h
    obtain ⟨hexit, rfl⟩ := Prod.mk.inj h
    have hexitOn : n.exitOn [first, second, pos] = none := by
      simp [exitOn, hbody, hcomposed]
    have hpublishes : n.publishes [first, second, pos] = [] := by
      simp [publishes, hbody, hcomposed]
    exact computes_nothing s memory costs failures hvalues
      ((Except.ok.inj hexit).symm.trans hexitOn.symm) hpublishes (hstores.trans hpublishes)
  | ok frame? =>
    have hexitOn : n.exitOn [first, second, pos] = some pins.exit := by
      simp [exitOn, hbody, hcomposed]
    cases frame? with
    | none =>
      simp only [hcomposed] at h
      obtain ⟨hexit, rfl⟩ := Prod.mk.inj h
      have hpublishes : n.publishes [first, second, pos] = [] := by
        simp [publishes, hbody, hcomposed]
      exact computes_nothing s memory costs failures hvalues
        ((Except.ok.inj hexit).symm.trans hexitOn.symm) hpublishes (hstores.trans hpublishes)
    | some frame =>
      simp only [hcomposed] at h
      obtain ⟨hexit, rfl⟩ := Prod.mk.inj h
      have hpublishes : n.publishes [first, second, pos] = [(pins.out, .frame frame)] := by
        simp [publishes, hbody, hcomposed]
      exact computes_published s memory costs failures hvalues
        ((Except.ok.inj hexit).symm.trans hexitOn.symm) hpublishes (hstores.trans hpublishes)

/-- **Concluding a node computes what the reference says.** -/
theorem conclude_computes (g : Graph) {n : Node} (hn : n.body.isBuiltin = true)
    {values : List Value} (hlen : values.length = n.reads.length) {s t : RunState}
    (hrunning : s.stopped = false) (hs : s.memory.Coherent) {exit : Option PinId}
    (h : n.conclude g values s = (.ok exit, t)) : n.Computes values exit s t := by
  simp only [conclude] at h
  rw [reads] at hlen
  cases hbody : n.body with
  | start out =>
    simp only [hbody, pure_apply] at h
    obtain ⟨hexit, rfl⟩ := Prod.mk.inj h
    refine computes_nothing s s.memory s.costs s.failures rfl ?_ ?_ ?_
    · simp [exitOn, hbody, ← Except.ok.inj hexit]
    · simp [publishes, hbody]
    · simp [stores, publishes, hbody]
  | finish pins =>
    simp only [hbody] at h hlen
    obtain ⟨frame, rfl⟩ := List.length_eq_one_iff.mp hlen
    obtain ⟨hexit, rfl⟩ := Prod.mk.inj h
    refine ⟨?_, fun i => ?_, fun i => ?_⟩
    · simp [exitOn, hbody, ← Except.ok.inj hexit]
    · simp [publishes, hbody]
    · show Table.get? i (s.memory.values.set pins.frame frame) = _
      rw [Table.get?_set]
      by_cases hi : pins.frame = i <;> simp [stores, hbody, Table.get?, hi]
  | constant out value =>
    simp only [hbody] at h
    obtain ⟨hexit, rfl⟩ := Prod.mk.inj h
    refine computes_published s s.memory s.costs s.failures rfl ?_ ?_ ?_
    · simp [exitOn, hbody, ← Except.ok.inj hexit]
    · simp [publishes, hbody]
    · simp [stores, publishes, hbody]
  | picture out settings =>
    simp only [hbody, executePicture_apply] at h
    obtain ⟨hexit, rfl⟩ := Prod.mk.inj h
    have hexit' : exit = n.exitOn values := by simp [exitOn, hbody, ← Except.ok.inj hexit]
    split_ifs with husable
    · exact computes_published s s.memory s.costs s.failures rfl hexit'
        (by simp [publishes, hbody, husable]) (by simp [stores, publishes, hbody, husable])
    · exact computes_nothing s s.memory s.costs _ rfl hexit' (by simp [publishes, hbody, husable])
        (by simp [stores, publishes, hbody, husable])
  | branch pins =>
    have heq : ((.ok (n.exitOn values), s) : Except RunError (Option PinId) × RunState) =
        (.ok exit, t) := by
      rw [← h, hbody]
      simp only [exitOn]
      rw [hbody]
      cases values <;> rfl
    obtain ⟨hexit, rfl⟩ := Prod.mk.inj heq
    exact computes_nothing s s.memory s.costs s.failures rfl (Except.ok.inj hexit).symm
      (by simp [publishes, hbody]) (by simp [stores, publishes, hbody])
  | transition pins settings =>
    simp only [hbody] at h hlen
    obtain ⟨first, second, pos, rfl⟩ := List.length_eq_three.mp hlen
    exact blend_computes g hbody hrunning hs h
  | scripted type ins outs => simp [hbody, Body.isBuiltin] at hn

/-- A node publishes on its own outputs only. -/
theorem mem_outputs_of_publishes {n : Node} {values : List Value} {i : PinId} {v : Value}
    (h : (n.publishes values).get? i = some v) : ∃ p ∈ n.outputs, p.id = i := by
  have hkey : ∀ {p : PinId} {w : Value}, Table.get? i [(p, w)] = some v → p = i := by
    intro p w hget
    by_contra hne
    simp [Table.get?, hne] at hget
  simp only [publishes] at h
  split at h
  · rename_i out value hbody
    exact ⟨constantPin out, by simp [outputs, hbody, Body.outputs], hkey h⟩
  · rename_i out settings hbody
    split_ifs at h
    · exact ⟨picturePin out, by simp [outputs, hbody, Body.outputs], hkey h⟩
    · cases h
  · rename_i pins settings first second pos hbody
    split at h
    · exact ⟨pins.outPin, by simp [outputs, hbody, Body.outputs], hkey h⟩
    · cases h
  · cases h

/-- Besides what it publishes, a node stores at most the value of the one pin it reads. -/
theorem stores_cases {n : Node} {values : List Value} {i : PinId} {v : Value}
    (h : (n.stores values).get? i = some v) :
    (∃ p ∈ n.outputs, p.id = i) ∨ ∃ p, n.reads = [p] ∧ values = [v] ∧ p.id = i := by
  simp only [stores] at h
  split at h
  · rename_i pins frame hbody
    right
    refine ⟨pins.framePin, by simp [reads, hbody], ?_⟩
    by_cases hi : pins.frame = i
    · simp only [Table.get?, hi, if_true, Option.some.injEq] at h
      exact ⟨h ▸ rfl, hi⟩
    · simp [Table.get?, hi] at h
  · exact Or.inl (mem_outputs_of_publishes h)

/-- A node stores on pins of its own. -/
theorem mem_pins_of_stores {n : Node} {values : List Value} {i : PinId} {v : Value}
    (h : (n.stores values).get? i = some v) : ∃ p ∈ n.pins, p.id = i := by
  rcases stores_cases h with ⟨p, hp, hid⟩ | ⟨p, hreads, -, hid⟩
  · exact ⟨p, List.mem_append_right _ hp, hid⟩
  · have hp : p ∈ n.reads := hreads ▸ List.mem_singleton_self p
    exact ⟨p, List.mem_append_left _ (n.reads_subset hp), hid⟩

end Node

end Patchbay
