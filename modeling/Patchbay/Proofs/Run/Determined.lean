import Patchbay.Proofs.Run.Once

/-!
# What a run depends on

A run reads values that it has published itself, defaults of types, and what unlinked inputs keep. It
reads no other value of its memory, and of the compositors only that they fit their devices. So its
outcome and everything it stores are settled by the graph, the starting node, the request to stop, and
the values of the unlinked inputs: `Graph.runFrom_determined`.

The proof follows a run in two states at once. The one, `c`, knows nothing of old memories: its memory
holds just what has been stored since the run began. The other is the state of an actual run, which
`RunState.Realizes` ties to `c`. `Graph.Determined` says of an action that what it does to `c` and what
it answers is the same for every actual run; it is closed under sequencing, so each function's lemma is
a composition.
-/

namespace Patchbay

open Patchbay.Action RunM

/-! ## A run without its past -/

/-- State `s` of a run that began with memory `m` stands where `c` tells: the books are the same, and
the memory is `m` overlaid with the memory of `c`. -/
structure RunState.Realizes (s : RunState) (m : Memory) (c : RunState) : Prop where
  books : s = { c with memory := s.memory, notes := s.notes }
  values : ∀ i, s.memory.values.get? i = (c.memory.values.get? i).or (m.values.get? i)
  coherent : s.memory.Coherent

/-- A run that begins and knows nothing of the past but whether it has been asked to stop. -/
def RunState.blank (stopped : Bool) : RunState := { RunState.initial .empty with stopped }

namespace Graph

/-- On the unlinked inputs, memory `m'` keeps what `m` keeps; its compositors fit their devices. -/
structure Resembles (g : Graph) (m m' : Memory) : Prop where
  coherent : m'.Coherent
  value : ∀ p ∈ g.pins, g.sourceOf? p = none → m'.value p = m.value p

/-- What holds of `c` all along: nobody raises or lowers the request to stop, nothing is published for
an unlinked input, and what is stored on one is what it keeps anyway. The last two rest on pins having
identities of their own. -/
structure Undisturbed (g : Graph) (m : Memory) (stopped : Bool) (c : RunState) : Prop where
  stopped : c.stopped = stopped
  unlinked : (g.pins.map Pin.id).Nodup → ∀ p ∈ g.pins, g.sourceOf? p = none →
    c.cache.get? p.id = none ∧ ∀ v, c.memory.values.get? p.id = some v → v = m.value p

/-- What the action does to `c` is the same in all actual runs whose memory resembled `m` when they
began, whatever their mode; what it answers is the same too and satisfies `Q`. -/
def DeterminedAt (g : Graph) (m : Memory) (stopped : Bool) (c : RunState) {α : Type} (Q : α → Prop)
    (x : RunMode → RunM α) : Prop :=
  ∃ r c', g.Undisturbed m stopped c' ∧ (∀ a, r = .ok a → Q a) ∧
    ∀ mode m' s, g.Resembles m m' → s.Realizes m' c →
      ∃ t, x mode s = (r, t) ∧ t.Realizes m' c'

/-- The action is determined wherever it is performed. -/
def Determined (g : Graph) (m : Memory) (stopped : Bool) {α : Type} (Q : α → Prop)
    (x : RunMode → RunM α) : Prop :=
  ∀ c, g.Undisturbed m stopped c → g.DeterminedAt m stopped c Q x

end Graph

namespace RunState

variable {s c : RunState} {m : Memory} (h : s.Realizes m c)
include h

namespace Realizes

theorem stack : s.stack = c.stack := by rw [h.books]

theorem cache : s.cache = c.cache := by rw [h.books]

theorem executed : s.executed = c.executed := by rw [h.books]

theorem pulledExits : s.pulledExits = c.pulledExits := by rw [h.books]

theorem failures : s.failures = c.failures := by rw [h.books]

theorem costs : s.costs = c.costs := by rw [h.books]

theorem stopped : s.stopped = c.stopped := by rw [h.books]

/-- What a pin keeps is what has been stored on it since, or else what it kept in the beginning. -/
theorem value (p : Pin) : s.memory.value p = (c.memory.values.get? p.id).getD (m.value p) := by
  rw [Memory.value, h.values, Memory.value]
  cases c.memory.values.get? p.id <;> rfl

/-- A change of the books alone. -/
theorem change {f : RunState → RunState} (hf : ∀ memory notes,
    f { c with memory, notes } = { f c with memory, notes })
    (hmemory : (f c).memory = c.memory) : (f s).Realizes m (f c) := by
  have heq : f s = { f c with memory := s.memory, notes := s.notes } := by
    rw [h.books]
    exact hf _ _
  rw [heq]
  exact ⟨rfl, hmemory.symm ▸ h.values, h.coherent⟩

theorem stored (i : PinId) (v : Value) : (s.stored i v).Realizes m (c.stored i v) where
  books := by rw [h.books]; rfl
  values j := by
    simp only [RunState.stored, Memory.store, Table.get?_set]
    split_ifs
    · rfl
    · exact h.values j
  coherent := h.coherent.store i v

theorem published (i : PinId) (v : Value) : (s.published i v).Realizes m (c.published i v) where
  books := by rw [h.books]; rfl
  values := (h.stored i v).values
  coherent := h.coherent.store i v

/-- Which compositor a node holds is not told. -/
theorem holding (n : NodeId) (d : Device) : (s.holding n d).Realizes m c where
  books := by rw [h.books]; rfl
  values := h.values
  coherent := h.coherent.hold n d

end Realizes

end RunState

namespace Graph

/-! ## Sequencing -/

section Sequencing

variable {g : Graph} {m : Memory} {stopped : Bool} {c : RunState} {α β : Type} {Q : α → Prop}
  {P : β → Prop}

theorem Undisturbed.congr {c' : RunState} (h : g.Undisturbed m stopped c)
    (hstopped : c'.stopped = c.stopped) (hcache : c'.cache = c.cache)
    (hmemory : c'.memory = c.memory) : g.Undisturbed m stopped c' where
  stopped := hstopped.trans h.stopped
  unlinked := by rw [hcache, hmemory]; exact h.unlinked

/-- An action that answers the same everywhere and leaves the state alone. -/
theorem determinedAt_answer (hc : g.Undisturbed m stopped c) {x : RunMode → RunM α}
    (r : Except RunError α) (hQ : ∀ a, r = .ok a → Q a)
    (hx : ∀ mode m' s, g.Resembles m m' → s.Realizes m' c → x mode s = (r, s)) :
    g.DeterminedAt m stopped c Q x :=
  ⟨r, c, hc, hQ, fun mode m' s hm hs => ⟨s, hx mode m' s hm hs, hs⟩⟩

/-- Looking at the state is determined if only the books are looked at, which are those of `c`. -/
theorem DeterminedAt.get_bind {f : RunMode → RunState → RunM α}
    (hf : g.DeterminedAt m stopped c Q fun mode => f mode c)
    (hbooks : ∀ mode m' s, g.Resembles m m' → s.Realizes m' c → f mode s = f mode c) :
    g.DeterminedAt m stopped c Q fun mode => get >>= f mode := by
  obtain ⟨r, c', hc', hQ, hrun⟩ := hf
  refine ⟨r, c', hc', hQ, fun mode m' s hm hs => ?_⟩
  obtain ⟨t, ht, hreal⟩ := hrun mode m' s hm hs
  exact ⟨t, (congrFun (hbooks mode m' s hm hs) s).trans ht, hreal⟩

theorem DeterminedAt.bind {x : RunMode → RunM α} {f : RunMode → α → RunM β}
    (hx : g.DeterminedAt m stopped c Q x)
    (hf : ∀ a, Q a → g.Determined m stopped P fun mode => f mode a) :
    g.DeterminedAt m stopped c P fun mode => x mode >>= f mode := by
  obtain ⟨r, c', hc', hQ, hrun⟩ := hx
  cases r with
  | error e =>
    refine ⟨.error e, c', hc', fun b h => (by cases h), fun mode m' s hm hs => ?_⟩
    obtain ⟨t, ht, hreal⟩ := hrun mode m' s hm hs
    exact ⟨t, bind_error ht, hreal⟩
  | ok a =>
    obtain ⟨r, c'', hc'', hP, hrun'⟩ := hf a (hQ a rfl) c' hc'
    refine ⟨r, c'', hc'', hP, fun mode m' s hm hs => ?_⟩
    obtain ⟨t, ht, hreal⟩ := hrun mode m' s hm hs
    obtain ⟨u, hu, hreal'⟩ := hrun' mode m' t hm hreal
    exact ⟨u, (bind_ok ht).trans hu, hreal'⟩

theorem Determined.bind {x : RunMode → RunM α} {f : RunMode → α → RunM β}
    (hx : g.Determined m stopped Q x)
    (hf : ∀ a, Q a → g.Determined m stopped P fun mode => f mode a) :
    g.Determined m stopped P fun mode => x mode >>= f mode :=
  fun c hc => (hx c hc).bind hf

theorem determined_pure {a : α} (ha : Q a) : g.Determined m stopped Q fun _ => pure a :=
  fun _ hc => determinedAt_answer hc (.ok a) (fun _ h => Except.ok.inj h ▸ ha) fun _ _ _ _ _ => rfl

theorem determined_throw (e : RunError) : g.Determined m stopped Q fun _ => throw e :=
  fun _ hc => determinedAt_answer hc (.error e) (fun _ h => (by cases h)) fun _ _ _ _ _ => rfl

/-- Changing the books, but neither values nor the request to stop. -/
theorem determined_modify {f : RunState → RunState}
    (hf : ∀ c memory notes, f { c with memory, notes } = { f c with memory, notes })
    (hsame : ∀ c, (f c).stopped = c.stopped ∧ (f c).cache = c.cache ∧ (f c).memory = c.memory) :
    g.Determined m stopped (fun _ => True) fun _ => (modify f : RunM PUnit) := by
  intro c hc
  obtain ⟨hstopped, hcache, hmemory⟩ := hsame c
  exact ⟨.ok ⟨⟩, f c, hc.congr hstopped hcache hmemory, fun _ _ => trivial,
    fun _ _ s _ hs => ⟨f s, rfl, hs.change (hf c) hmemory⟩⟩

theorem determined_outcome {x : RunMode → RunM α} (hx : g.Determined m stopped Q x) :
    g.Determined m stopped (fun r => ∀ a, r = .ok a → Q a) fun mode => outcome (x mode) := by
  intro c hc
  obtain ⟨r, c', hc', hQ, hrun⟩ := hx c hc
  refine ⟨.ok r, c', hc', fun _ h => Except.ok.inj h ▸ hQ, fun mode m' s hm hs => ?_⟩
  obtain ⟨t, ht, hreal⟩ := hrun mode m' s hm hs
  exact ⟨t, (outcome_apply (x mode) s).trans (by rw [ht]), hreal⟩

end Sequencing

/-! ## Elementary actions -/

section Elementary

variable {g : Graph} {m : Memory} {stopped : Bool} (n : NodeId)

theorem determined_enter : g.Determined m stopped (fun _ => True) fun _ => enter n := by
  intro c hc
  by_cases hn : n ∈ c.stack
  · refine determinedAt_answer hc (.error (.cyclic n c.stack)) (fun _ h => (by cases h)) ?_
    intro mode m' s hm hs
    rw [enter_of_mem n s (hs.stack ▸ hn), hs.stack]
  · refine ⟨.ok (), c.push n, hc.congr rfl rfl rfl, fun _ _ => trivial, fun mode m' s hm hs => ?_⟩
    exact ⟨s.push n, enter_of_not_mem n s (hs.stack ▸ hn),
      hs.change (f := fun s => s.push n) (fun _ _ => rfl) rfl⟩

theorem determined_leave : g.Determined m stopped (fun _ => True) fun _ => leave n := by
  refine determined_modify (f := fun s => s.pop n) (fun c memory notes => ?_) fun c => ?_
  · simp only [RunState.pop]
    split <;> rfl
  · simp only [RunState.pop]
    split <;> exact ⟨rfl, rfl, rfl⟩

theorem determined_markExecuted :
    g.Determined m stopped (fun _ => True) fun _ => markExecuted n := by
  refine determined_modify (f := fun s => s.mark n) (fun c memory notes => ?_) fun c => ?_
  · simp only [RunState.mark]
    split <;> rfl
  · simp only [RunState.mark]
    split <;> exact ⟨rfl, rfl, rfl⟩

theorem determined_clearStack : g.Determined m stopped (fun _ => True) fun _ => clearStack :=
  determined_modify (fun _ _ _ => rfl) fun _ => ⟨rfl, rfl, rfl⟩

theorem determined_reportFailure (message : String) :
    g.Determined m stopped (fun _ => True) fun _ => reportFailure g n message :=
  determined_modify (fun _ _ _ => rfl) fun _ => ⟨rfl, rfl, rfl⟩

theorem determined_logExecution :
    g.Determined m stopped (fun _ => True) fun _ => logExecution n :=
  determined_modify (fun _ _ _ => rfl) fun _ => ⟨rfl, rfl, rfl⟩

/-- Storing a value on a pin, which an unlinked input keeps already. -/
theorem determined_store {i : PinId} {v : Value}
    (hv : (g.pins.map Pin.id).Nodup → ∀ p ∈ g.pins, g.sourceOf? p = none → p.id = i →
      v = m.value p) :
    g.Determined m stopped (fun _ => True) fun _ => store i v := by
  intro c hc
  refine ⟨.ok (), c.stored i v, ⟨hc.stopped, fun hids p hp hp' => ?_⟩, fun _ _ => trivial,
    fun mode m' s hm hs => ⟨s.stored i v, rfl, hs.stored i v⟩⟩
  refine ⟨(hc.unlinked hids p hp hp').1, fun w hw => ?_⟩
  simp only [RunState.stored, Memory.store, Table.get?_set] at hw
  split_ifs at hw with hi
  · exact Option.some.inj hw ▸ hv hids p hp hp' hi.symm
  · exact (hc.unlinked hids p hp hp').2 w hw

/-- Publishing a value on a pin that faces outwards. -/
theorem Undisturbed.published {c : RunState} (hc : g.Undisturbed m stopped c) {q : Pin}
    (hq : q ∈ g.pins) (hout : q.direction = .output) (v : Value) :
    g.Undisturbed m stopped (c.published q.id v) where
  stopped := hc.stopped
  unlinked hids p hp hp' := by
    have hne : q.id ≠ p.id := by
      intro heq
      obtain rfl := List.inj_on_of_nodup_map hids hq hp heq
      simp [sourceOf?, hout] at hp'
    simpa only [RunState.published, Memory.store, Table.get?_set, hne, if_false]
      using hc.unlinked hids p hp hp'

theorem determined_publish {q : Pin} (hq : q ∈ g.pins) (hout : q.direction = .output) (v : Value) :
    g.Determined m stopped (fun _ => True) fun _ => publish q.id v := fun c hc =>
  ⟨.ok (), c.published q.id v, hc.published hq hout v, fun _ _ => trivial,
    fun _ _ s _ hs => ⟨s.published q.id v, rfl, hs.published q.id v⟩⟩

end Elementary

/-! ## Nodes -/

section Nodes

variable {g : Graph} {m : Memory} {stopped : Bool}

/-- What asking for a pin answers with: if the pin is an unlinked input, what it keeps. -/
def Answers (g : Graph) (m : Memory) (p : Pin) (v : Value) : Prop :=
  (g.pins.map Pin.id).Nodup → g.sourceOf? p = none → v = m.value p

/-- Asking for several pins is determined if asking for each is. -/
theorem determined_mapM {pull : RunMode → Pin → RunM Value} {ps : List Pin}
    (hpull : ∀ p ∈ ps, g.Determined m stopped (g.Answers m p) fun mode => pull mode p) :
    g.Determined m stopped (List.Forall₂ (g.Answers m) ps) fun mode => ps.mapM (pull mode) := by
  induction ps with
  | nil => exact determined_pure .nil
  | cons p ps ih =>
    have hrest := ih fun q hq => hpull q (List.mem_cons_of_mem p hq)
    simp only [List.mapM_cons]
    exact (hpull p List.mem_cons_self).bind fun v hv => hrest.bind fun vs hvs =>
      determined_pure (.cons hv hvs)

variable {n : Node} (hn : n ∈ g.nodes)
include hn

theorem mem_pins_of_outputs {q : Pin} (hq : q ∈ n.outputs) : q ∈ g.pins :=
  List.mem_flatMap.mpr ⟨n, hn, List.mem_append_right _ hq⟩

/-- Blending is determined: the compositor of a node does what any compositor of its device does. -/
theorem determined_blend {pins : TransitionPins} (hout : pins.outPin ∈ n.outputs)
    (settings : Transition) (first second : Frame) (pos : Float32) :
    g.Determined m stopped (fun _ => True) fun _ => n.blend g pins settings first second pos := by
  intro c hc
  have hpub := hc.published (mem_pins_of_outputs hn hout) rfl
  by_cases hempty : (first.isEmpty || second.isEmpty) = true
  · refine determinedAt_answer hc (.ok (some pins.exit)) (fun _ _ => trivial)
      fun mode m' s hm hs => ?_
    rw [n.blend_apply, if_pos hempty]
  by_cases henabled : n.enabled = true
  · -- the compositor is one for the device of the first picture, whatever the slot held
    cases hdraw : (settings.composite first second pos).draw first.device with
    | error e =>
      refine ⟨.ok none, c.failed g n.id e.message, hc.congr rfl rfl rfl, fun _ _ => trivial,
        fun mode m' s hm hs => ⟨_, ?_, (hs.holding n.id first.device).change
          (f := fun s => s.failed g n.id e.message) (fun _ _ => rfl) rfl⟩⟩
      dsimp only
      rw [n.blend_apply, if_neg hempty, if_pos henabled, hs.coherent.compositor_device, hdraw]
    | ok frame =>
      have hcharged : g.Undisturbed m stopped (c.charged n.id 0) := hc.congr rfl rfl rfl
      refine ⟨.ok (some pins.exit), if c.stopped then c.charged n.id 0
        else (c.charged n.id 0).published pins.out (.frame (frame.withTimingOf first)), ?_,
        fun _ _ => trivial, fun mode m' s hm hs =>
          ⟨if s.stopped then (s.holding n.id first.device).charged n.id 0
            else ((s.holding n.id first.device).charged n.id 0).published pins.out
              (.frame (frame.withTimingOf first)), ?_, ?_⟩⟩
      · split_ifs
        · exact hcharged
        · exact hcharged.published (mem_pins_of_outputs hn hout) rfl _
      · dsimp only
        rw [n.blend_apply, if_neg hempty, if_pos henabled, hs.coherent.compositor_device, hdraw]
      · have hreal := (hs.holding n.id first.device).change (f := fun s => s.charged n.id 0)
          (fun _ _ => rfl) rfl
        rw [hs.stopped]
        split_ifs
        · exact hreal
        · exact hreal.published _ _
  · refine ⟨.ok (some pins.exit), _, hpub (.frame first), fun _ _ => trivial,
      fun mode m' s hm hs => ⟨_, ?_, hs.published pins.out (.frame first)⟩⟩
    dsimp only
    rw [n.blend_apply, if_neg hempty, if_neg henabled]

/-- What a node does once it has the values it has asked for is determined. -/
theorem determined_conclude {vs : List Value} (hvs : List.Forall₂ (g.Answers m) n.reads vs) :
    g.Determined m stopped (fun _ => True) fun _ => n.conclude g vs := by
  have houts : ∀ q, q ∈ n.body.outputs → q ∈ g.pins := fun q => mem_pins_of_outputs hn
  simp only [Node.conclude]
  rw [Node.reads] at hvs
  cases hbody : n.body with
  | start out => exact determined_pure trivial
  | finish pins =>
    simp only [hbody, List.forall₂_cons_left_iff, List.forall₂_nil_left_iff] at hvs
    obtain ⟨frame, -, hframe, rfl, rfl⟩ := hvs
    have hmem : pins.framePin ∈ g.pins :=
      List.mem_flatMap.mpr ⟨n, hn, by simp [Node.pins, Node.inputs, hbody, Body.inputs]⟩
    refine Determined.bind (determined_store fun hids p hp hp' hi => ?_) fun _ _ =>
      determined_clearStack.bind fun _ _ => determined_pure trivial
    obtain rfl : p = pins.framePin := List.inj_on_of_nodup_map hids hp hmem hi
    exact hframe hids hp'
  | constant out value =>
    have hout := houts (constantPin out) (by simp [hbody, Body.outputs])
    exact (determined_publish hout rfl _).bind fun _ _ => determined_pure trivial
  | picture out settings =>
    have hout := houts (picturePin out) (by simp [hbody, Body.outputs])
    simp only [Node.executePicture]
    split_ifs
    · exact (determined_publish hout rfl _).bind fun _ _ => determined_pure trivial
    · exact (determined_reportFailure _ _).bind fun _ _ => determined_pure trivial
  | branch pins =>
    cases vs with
    | nil => exact determined_pure trivial
    | cons condition rest => exact determined_pure trivial
  | transition pins settings =>
    simp only [hbody, List.forall₂_cons_left_iff, List.forall₂_nil_left_iff] at hvs
    obtain ⟨first, -, -, ⟨second, -, -, ⟨pos, -, -, rfl, rfl⟩, rfl⟩, rfl⟩ := hvs
    exact determined_blend hn (by simp [Node.outputs, hbody, Body.outputs]) settings _ _ _
  | scripted t ins outs => exact determined_pure trivial

/-- Executing a node is determined if asking for its pins is. -/
theorem determined_execute (hbuiltin : n.body.isBuiltin = true)
    {pull : RunMode → Pin → RunM Value}
    (hpull : ∀ p ∈ g.pins, g.Determined m stopped (g.Answers m p) fun mode => pull mode p)
    (entry : Option PinId) :
    g.Determined m stopped (fun _ => True) fun mode => n.execute g mode (pull mode) entry := by
  simp only [Node.execute_eq g _ _ hbuiltin]
  exact (determined_logExecution n.id).bind fun _ _ =>
    (determined_mapM fun p hp => hpull p (reads_subset_pins hn hp)).bind fun vs hvs =>
      determined_conclude hn hvs

end Nodes

/-! ## Pulls -/

section Pulls

variable {g : Graph} {m : Memory} {stopped : Bool}

theorem determined_executeUpstream {execute : RunMode → Node → RunM (Option PinId)}
    (hexecute : ∀ n ∈ g.nodes, g.Determined m stopped (fun _ => True) fun mode => execute mode n)
    (n : NodeId) :
    g.Determined m stopped (fun _ => True) fun mode => g.executeUpstream (execute mode) n := by
  simp only [executeUpstream]
  cases hnode : g.node? n with
  | none => exact determined_throw _
  | some node =>
    refine (determined_enter n).bind fun _ _ =>
      (determined_outcome (hexecute node (node?_some hnode).1)).bind fun r _ =>
        (determined_leave n).bind fun _ _ => (determined_markExecuted n).bind fun _ _ => ?_
    cases r with
    | error e => exact determined_throw e
    | ok exit => exact determined_modify (fun _ _ _ => rfl) fun _ => ⟨rfl, rfl, rfl⟩

/-- Asking for a pin is determined if executing the nodes of the graph is. -/
theorem determined_pullWith {execute : RunMode → Node → RunM (Option PinId)}
    (hexecute : ∀ n ∈ g.nodes, g.Determined m stopped (fun _ => True) fun mode => execute mode n)
    {p : Pin} (hp : p ∈ g.pins) :
    g.Determined m stopped (g.Answers m p) fun mode => g.pullWith (execute mode) p := by
  intro c hc
  simp only [pullWith]
  cases hsource : g.sourceOf? p with
  | none =>
    -- what the pin keeps is the same in all runs, for it is an unlinked input
    refine determinedAt_answer hc
      (.ok ((c.cache.get? p.id).getD ((c.memory.values.get? p.id).getD (m.value p)))) ?_ ?_
    · rintro v hv hids -
      obtain rfl := Except.ok.inj hv
      obtain ⟨hcache, hstored⟩ := hc.unlinked hids p hp hsource
      rw [hcache]
      cases hvalue : c.memory.values.get? p.id with
      | none => rfl
      | some w => exact hstored w hvalue
    · intro mode m' s hm hs
      simp only [get_bind_apply, pure_apply, hs.cache, hs.value, hm.value p hp hsource]
  | some source =>
    have hvacuous : ∀ v, g.Answers m p v := fun v _ h => by simp [hsource] at h
    refine DeterminedAt.get_bind ?_ fun mode m' s hm hs => by simp only [hs.cache]
    cases c.cache.get? source with
    | some v => exact determined_pure (hvacuous v) c hc
    | none =>
      dsimp only
      split
      · rename_i pin owner hpin howner
        refine DeterminedAt.get_bind ?_ fun mode m' s hm hs => by simp only [hs.executed]
        split
        · exact determined_pure (hvacuous _) c hc
        · refine (determined_executeUpstream hexecute owner).bind (fun _ _ c hc => ?_) c hc
          refine DeterminedAt.get_bind ?_ fun mode m' s hm hs => by rw [hs.cache]
          exact determined_pure (hvacuous _) c hc
      · exact determined_throw _ c hc

/-- **Asking for data is determined.** -/
theorem determined_pull (hb : g.IsBuiltin) (depth : Nat) :
    ∀ p ∈ g.pins, g.Determined m stopped (g.Answers m p) fun mode => g.pull mode depth p := by
  induction depth with
  | zero => exact fun p hp => determined_pullWith (fun _ _ => determined_throw _) hp
  | succ depth ih =>
    exact fun p hp => determined_pullWith
      (fun n hn => determined_execute hn (hb n hn) ih none) hp

end Pulls

/-! ## Runs -/

section Runs

variable {g : Graph} {m : Memory} {stopped : Bool} (hb : g.IsBuiltin)
include hb

theorem determined_stepInto {n : Node} (hn : n ∈ g.nodes) (entry : Option PinId) :
    g.Determined m stopped (fun _ => True) fun mode => g.stepInto mode n entry := by
  have hmark : ∀ exit : Option PinId, g.Determined m stopped (fun _ => True) fun _ =>
      (do markExecuted n.id; return exit : RunM (Option PinId)) := fun exit =>
    (determined_markExecuted n.id).bind fun _ _ => determined_pure trivial
  simp only [stepInto]
  refine (determined_enter n.id).bind fun _ _ c hc => ?_
  refine DeterminedAt.get_bind ?_ fun mode m' s hm hs => by simp only [hs.pulledExits]
  cases c.pulledExits.get? n.id with
  | some exit =>
    cases n.isExit with
    | true => exact determined_clearStack.bind (fun _ _ => hmark exit) c hc
    | false => exact hmark exit c hc
  | none =>
    exact (determined_execute hn (hb n hn) (determined_pull hb g.pullDepth) entry).bind
      (fun exit _ => hmark exit) c hc

omit hb in
/-- Where flow ends, the status is settled. -/
theorem determined_endOfFlow (path : List NodeId) : g.Determined m stopped (fun _ => True) fun _ =>
    (do return (← endOfFlow, path) : RunM (RunStatus × List NodeId)) := by
  refine Determined.bind (Q := fun _ => True) (fun c hc => ?_) fun _ _ => determined_pure trivial
  refine DeterminedAt.get_bind ?_ fun mode m' s hm hs => by rw [hs.stopped]
  exact determined_pure trivial c hc

/-- **Following flow is determined**: every step is, and so is where it leads. -/
theorem determined_walk (steps : Nat) : ∀ n entry path,
    g.Determined m stopped (fun _ => True) fun mode => g.walk mode steps n entry path := by
  induction steps with
  | zero => exact fun _ _ _ => determined_throw _
  | succ steps ih =>
    intro n entry path c hc
    simp only [walk]
    refine DeterminedAt.get_bind ?_ fun mode m' s hm hs => by simp only [hs.stopped]
    split
    · exact determined_pure trivial c hc
    cases hnode : g.node? n with
    | none => exact determined_throw _ c hc
    | some node =>
      refine (determined_stepInto hb (node?_some hnode).1 entry).bind (fun exit _ c hc => ?_) c hc
      cases node.isExit with
      | true =>
        refine DeterminedAt.get_bind ?_ fun mode m' s hm hs => by simp only [hs.stack]
        split
        · exact determined_pure trivial c hc
        · exact determined_throw _ c hc
      | false =>
        cases exit with
        | none => exact determined_endOfFlow _ c hc
        | some p =>
          simp only [Bool.false_eq_true, if_false]
          split
          · exact determined_throw _ c hc
          · exact determined_endOfFlow _ c hc
          · exact ih _ _ _ c hc

omit hb in
/-- Where a run starts, none of what earlier runs have left behind counts. -/
theorem realizes_begin {s : RunState} (hm : g.Resembles m s.memory) (hstack : s.stack = [])
    (hstopped : s.stopped = stopped) :
    s.begin.Realizes s.memory (.blank stopped) where
  books := by rw [RunState.begin, RunState.blank, RunState.initial, ← hstopped, ← hstack]
  values _ := rfl
  coherent := hm.coherent

/-- What a run comes to is settled before it begins. -/
theorem runFrom_settled (start : NodeId) (m : Memory) (stopped : Bool) :
    ∃ outcome c, g.Undisturbed m stopped c ∧ ∀ mode s, s.stack = [] → s.stopped = stopped →
      g.Resembles m s.memory →
      ∃ t, g.runFrom mode start s = (outcome, t) ∧ t.stack = [] ∧ t.stopped = stopped ∧
        t.memory.Coherent ∧
        ∀ i, t.memory.values.get? i = (c.memory.values.get? i).or (s.memory.values.get? i) := by
  have hinitial : g.Undisturbed m stopped (.blank stopped) :=
    ⟨rfl, fun _ _ _ _ => ⟨rfl, fun v h => by cases h⟩⟩
  cases hstart : g.hasNode start with
  | false =>
    refine ⟨.error (.nodeNotFound start), _, hinitial, fun mode s hstack hstopped hm => ?_⟩
    exact ⟨s, g.runFrom_absent mode hstack hstart, hstack, hstopped, hm.coherent, fun _ => rfl⟩
  | true =>
    obtain ⟨r, c, hc, -, hrun⟩ := determined_walk hb g.stepLimit start none [] _ hinitial
    let outcome : Except RunError RunReport := r.map fun x => ⟨x.1, x.2, c.failures, c.costs⟩
    refine ⟨outcome, c, hc, fun mode s hstack hstopped hm => ?_⟩
    obtain ⟨t, ht, hreal⟩ := hrun mode s.memory s.begin hm (realizes_begin hm hstack hstopped)
    dsimp only at ht
    rw [runFrom]
    simp only [get_bind_apply, hstack, hstart, List.isEmpty_nil, Bool.not_true, Bool.false_eq_true,
      if_false, modify_bind_apply]
    rw [bind_ok (forM_reset hb s.begin), bind_ok (outcome_apply _ _),
      bind_ok (clearStack_apply _), ht]
    cases r with
    | error e =>
      exact ⟨t.clear, rfl, rfl, hreal.stopped.trans hc.stopped, hreal.coherent, hreal.values⟩
    | ok x =>
      refine ⟨{ t.clear with failures := [], costs := [] }, ?_, rfl,
        hreal.stopped.trans hc.stopped, hreal.coherent, hreal.values⟩
      simp only [outcome, Except.map, ← hreal.failures, ← hreal.costs]
      rfl

/-- **What a run depends on.** In a graph of built-in nodes, the outcome of a run from `start` and the
values it stores are the same for all states outside of a run that agree on the request to stop and
on the values kept by unlinked inputs: whatever else the memory keeps on pins, whichever compositors
it holds, whatever earlier runs have left in the records, in any mode. A pin that is not written keeps
its value.

If pins have identities of their own, then running again with the memory that a run has left, with the
same records or with others, comes to the same outcome and changes no stored value. -/
theorem runFrom_determined (start : NodeId) (m : Memory) (stopped : Bool) :
    ∃ (outcome : Except RunError RunReport) (written : PinId → Option Value),
      ∀ mode s, s.stack = [] → s.stopped = stopped → g.Resembles m s.memory →
        ∃ t, g.runFrom mode start s = (outcome, t) ∧
          (∀ i, t.memory.values.get? i = (written i).or (s.memory.values.get? i)) ∧
          t.stack = [] ∧ t.stopped = stopped ∧
          ((g.pins.map Pin.id).Nodup →
            ∀ mode' u, u.stack = [] → u.stopped = stopped → u.memory = t.memory →
              ∃ t', g.runFrom mode' start u = (outcome, t') ∧
                ∀ i, t'.memory.values.get? i = t.memory.values.get? i) := by
  obtain ⟨outcome, c, hc, hrun⟩ := runFrom_settled hb start m stopped
  refine ⟨outcome, fun i => c.memory.values.get? i, fun mode s hstack hstopped hm => ?_⟩
  obtain ⟨t, ht, htstack, htstopped, hcoherent, hvalues⟩ := hrun mode s hstack hstopped hm
  refine ⟨t, ht, hvalues, htstack, htstopped, fun hids mode' u hustack hustopped humemory => ?_⟩
  -- the run has left the unlinked inputs with the values they had
  have hagain : g.Resembles m u.memory := by
    refine ⟨humemory ▸ hcoherent, fun p hp hp' => ?_⟩
    rw [humemory, Memory.value, hvalues]
    cases hstored : c.memory.values.get? p.id with
    | none => exact hm.value p hp hp'
    | some v => exact (hc.unlinked hids p hp hp').2 v hstored
  obtain ⟨t', ht', -, -, -, hvalues'⟩ := hrun mode' u hustack hustopped hagain
  refine ⟨t', ht', fun i => ?_⟩
  rw [hvalues', humemory, hvalues]
  cases c.memory.values.get? i <;> rfl

end Runs

/-- What earlier runs may have left behind in the example: a number and a flag on output pins, a
compositor for another device, and records of all sorts. -/
def pullAheadLeftover : RunState :=
  { RunState.initial ⟨[(⟨.ofNat 51⟩, .float 7), (⟨.ofNat 25⟩, .bool true)],
      [(⟨.ofNat 2⟩, ⟨some (.gpu 1, ⟨.gpu 1⟩)⟩)]⟩ with
    cache := [(⟨.ofNat 51⟩, .float 9)], executed := [⟨.ofNat 3⟩, ⟨.ofNat 5⟩]
    pulledExits := [(⟨.ofNat 2⟩, none)], failures := [⟨⟨.ofNat 2⟩, "", "before"⟩]
    costs := [(⟨.ofNat 3⟩, 5)], log := [⟨.ofNat 4⟩] }

/-- A run of the example comes to the same whether it finds leftovers or nothing, and the number of
the constant is stored over the one that was there. -/
theorem pullAhead_determined :
    (pullAhead.runFrom ⟨true, false⟩ ⟨.ofNat 1⟩ pullAheadLeftover).1 =
        (pullAhead.runFrom ⟨false, true⟩ ⟨.ofNat 1⟩ (.initial .empty)).1 ∧
      (pullAhead.runFrom ⟨true, false⟩ ⟨.ofNat 1⟩ pullAheadLeftover).2.memory.values.get?
        ⟨.ofNat 51⟩ = some (.float 1) := by
  have hresembles : pullAhead.Resembles .empty pullAheadLeftover.memory := by
    refine ⟨fun n d c h => ?_, by decide +kernel⟩
    simp only [Memory.slot, pullAheadLeftover, RunState.initial, Table.get?] at h
    split_ifs at h
    · simp only [Option.getD_some, Option.some.injEq, Prod.mk.injEq] at h
      rw [← h.1, ← h.2]
    · cases h
  obtain ⟨outcome, written, hrun⟩ :=
    runFrom_determined pullAhead_isBuiltin ⟨.ofNat 1⟩ .empty false
  obtain ⟨t, ht, hvalues, -⟩ := hrun ⟨false, true⟩ (.initial .empty) rfl rfl
    ⟨Memory.coherent_empty, fun _ _ _ => rfl⟩
  obtain ⟨t', ht', hvalues', -⟩ := hrun ⟨true, false⟩ pullAheadLeftover rfl rfl hresembles
  have hwritten : (pullAhead.runFrom ⟨false, true⟩ ⟨.ofNat 1⟩
      (.initial .empty)).2.memory.values.get? ⟨.ofNat 51⟩ = some (.float 1) := by
    decide +kernel
  rw [ht, hvalues] at hwritten
  rw [ht, ht', hvalues']
  refine ⟨rfl, ?_⟩
  cases hw : written ⟨.ofNat 51⟩ with
  | none => simp [hw, RunState.initial, Memory.empty] at hwritten
  | some v => simpa [hw] using hwritten

end Graph

end Patchbay
