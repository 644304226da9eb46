import Patchbay.Proofs.Run.Stopping

/-!
# Transitions in a run

A transition asks for both pictures and its progress before it does anything else, and these requests may
change the state of the run in any way (`Node.Gathers`). What is shown here holds whatever they do, so it
holds of every graph around the transition.

A request to stop clears every transition (`Graph.stop_cleared`). If it comes while a transition is at its
requests, the picture must stay empty. **`Node.execute_stopped_iff`** says when it
does: always, except that a transition that is switched off passes its first picture on without looking
whether the run has been asked to stop.

A transition that is switched off is to pass its first picture on. **`Node.execute_disabled_iff`** says
when it does: if the second picture, which it does not need, has come as well.
-/

namespace Patchbay

open Patchbay.Action RunM

namespace Node

/-- Node `n` is executed in state `s` and asks for its data. This comes to `r` and leaves state `u`. -/
def Gathers (n : Node) (pull : Pin → RunM Value) (s : RunState) (r : Except RunError (List Value))
    (u : RunState) : Prop :=
  n.reads.mapM pull (s.logged n.id) = (r, u)

section Execute

variable {n : Node} {pull : Pin → RunM Value} {s u : RunState} (g : Graph) (mode : RunMode)
  (hn : n.body.isBuiltin = true) (entry : Option PinId)
include hn

/-- A node whose data cannot be had does nothing. -/
theorem Gathers.execute_error {e : RunError} (h : n.Gathers pull s (.error e) u) :
    n.execute g mode pull entry s = (.error e, u) := by
  rw [execute_eq g mode pull hn, bind_ok (logExecution_apply n.id s)]
  exact bind_error h

/-- A node that has its data goes on from there. -/
theorem Gathers.execute_ok {values : List Value} (h : n.Gathers pull s (.ok values) u) :
    n.execute g mode pull entry s = n.conclude g values u := by
  rw [execute_eq g mode pull hn, bind_ok (logExecution_apply n.id s)]
  exact bind_ok h

end Execute

/-! ## Being told of a stop -/

/-- A transition has been cleared by state `s`: the run has been asked to stop, and the picture is empty. -/
structure Cleared (pins : TransitionPins) (s : RunState) : Prop where
  stopped : s.stopped = true
  value : s.memory.value pins.outPin = .frame .empty

/-- What telling a node that the run is being stopped may do to state `s`, leaving state `t`. -/
structure Quits (n : Node) (s t : RunState) : Prop where
  stopped : t.stopped = s.stopped
  cache : t.cache = s.cache
  /-- Nothing is stored on other pins than its outputs. -/
  others : ∀ i, (∀ p ∈ n.outputs, p.id ≠ i) → t.memory.values.get? i = s.memory.values.get? i
  /-- A transition has emptied its picture. -/
  emptied : ∀ pins settings, n.body = .transition pins settings →
    t.memory.values.get? pins.out = some (.frame .empty)

/-- Storing the defaults of some pins touches no other pin. -/
theorem forM_store_apply (ps : List Pin) (s : RunState) : ∃ t,
    ps.forM (fun p => store p.id p.type.defaultValue) s = (.ok (), t) ∧ t.stopped = s.stopped ∧
      t.cache = s.cache ∧
      ∀ i, (∀ p ∈ ps, p.id ≠ i) → t.memory.values.get? i = s.memory.values.get? i := by
  induction ps generalizing s with
  | nil => exact ⟨s, rfl, rfl, rfl, fun _ _ => rfl⟩
  | cons p ps ih =>
    obtain ⟨t, ht, hstopped, hcache, hvalues⟩ := ih (s.stored p.id p.type.defaultValue)
    refine ⟨t, ht, hstopped, hcache, fun i hi => ?_⟩
    rw [hvalues i fun q hq => hi q (List.mem_cons_of_mem _ hq)]
    exact (Table.get?_set ..).trans (if_neg (hi p List.mem_cons_self))

theorem onStop_spec (n : Node) (s : RunState) : ∃ t, n.onStop s = (.ok (), t) ∧ n.Quits s t := by
  have hquiet : (∀ pins settings, n.body ≠ .transition pins settings) → n.Quits s s := fun h =>
    ⟨rfl, rfl, fun _ _ => rfl, fun pins settings hbody => absurd hbody (h pins settings)⟩
  cases hbody : n.body with
  | transition pins settings =>
    refine ⟨s.stored pins.out (.frame .empty), by rw [onStop, hbody]; rfl, rfl, rfl, ?_, ?_⟩
    · intro i hi
      have hout : pins.out ≠ i := hi pins.outPin (by simp [Node.outputs, hbody, Body.outputs])
      exact (Table.get?_set ..).trans (if_neg hout)
    · intro pins' settings' h
      cases hbody.symm.trans h
      exact (Table.get?_set ..).trans (if_pos rfl)
  | scripted type ins outs =>
    obtain ⟨t, ht, hstopped, hcache, hvalues⟩ :=
      forM_store_apply outs { s with notes := s.notes ++ [.stop n.id] }
    refine ⟨t, by rw [onStop, hbody]; exact ht, hstopped, hcache, fun i hi => ?_, ?_⟩
    · exact hvalues i (by simpa [Node.outputs, hbody, Body.outputs] using hi)
    · intro pins settings h
      cases hbody.symm.trans h
  | _ => exact ⟨s, by rw [onStop, hbody]; rfl, hquiet (by simp [hbody])⟩

end Node

namespace Graph

variable {g : Graph} (hg : g.WellFormed)
include hg

/-- Telling nodes of a stop empties the pictures of the transitions among them, and those that are empty
stay so. -/
theorem forM_onStop_apply (nodes : List Node) (hnodes : nodes ⊆ g.nodes) (s : RunState) :
    ∃ t, nodes.forM Node.onStop s = (.ok (), t) ∧ t.stopped = s.stopped ∧ t.cache = s.cache ∧
      ∀ n ∈ g.nodes, ∀ pins settings, n.body = .transition pins settings →
        (n ∈ nodes ∨ s.memory.values.get? pins.out = some (.frame .empty)) →
        t.memory.values.get? pins.out = some (.frame .empty) := by
  induction nodes generalizing s with
  | nil => exact ⟨s, rfl, rfl, rfl, fun _ _ _ _ _ h => h.resolve_left List.not_mem_nil⟩
  | cons m nodes ih =>
    obtain ⟨hm, hrest⟩ := List.cons_subset.mp hnodes
    obtain ⟨t, ht, hquits⟩ := m.onStop_spec s
    obtain ⟨v, hv, hstopped, hcache, hempty⟩ := ih hrest t
    refine ⟨v, (bind_ok ht).trans hv, hstopped.trans hquits.stopped, hcache.trans hquits.cache, ?_⟩
    intro n hn pins settings hbody h
    refine hempty n hn pins settings hbody ?_
    by_cases heq : m = n
    · exact Or.inr (hquits.emptied pins settings (heq ▸ hbody))
    · refine h.imp (fun hmem => (List.mem_cons.mp hmem).resolve_left (Ne.symm heq)) fun hs => ?_
      rw [hquits.others pins.out ?_, hs]
      intro p hp hid
      refine heq (hg.eq_of_pin hm hn (List.mem_append_right _ hp) (q := pins.outPin) ?_ hid).1
      exact List.mem_append_right _ (by simp [Node.outputs, hbody, Body.outputs])

/-- **A request to stop** clears all transitions. What has been published in the run is not taken back. -/
theorem stop_cleared (s : RunState) : ∃ t, g.stop s = (.ok (), t) ∧ t.cache = s.cache ∧
    ∀ n ∈ g.nodes, ∀ pins settings, n.body = .transition pins settings → Node.Cleared pins t := by
  obtain ⟨t, ht, hstopped, hcache, hempty⟩ :=
    g.forM_onStop_apply hg g.nodes (List.Subset.refl _) { s with stopped := true }
  refine ⟨t, ht, hcache, fun n hn pins settings hbody => ⟨hstopped, ?_⟩⟩
  have hout : t.memory.values.get? pins.outPin.id = some (.frame .empty) :=
    hempty n hn pins settings hbody (Or.inl hn)
  rw [Memory.value, hout, Option.getD_some]

end Graph

/-! ## What transitions do with their data -/

namespace Node

/-- A transition that is switched off passes picture `first` on: its data has come to `r`, where `first` is
its first picture, and neither picture is missing. -/
def Forwards (n : Node) (r : Except RunError (List Value)) (first : Frame) : Prop :=
  n.enabled = false ∧ ∃ a b c, r = .ok [a, b, c] ∧ a.toFrame = first ∧ first.isEmpty = false ∧
    b.toFrame.isEmpty = false

/-- The picture of a transition is empty in state `t`, and nothing has been published there since state
`u`. -/
structure StaysEmpty (pins : TransitionPins) (u t : RunState) : Prop where
  value : t.memory.value pins.outPin = .frame .empty
  cache : t.cache.get? pins.out = u.cache.get? pins.out

variable {n : Node} {pins : TransitionPins} {settings : Transition} {pull : Pin → RunM Value}
  {s u : RunState} {r : Except RunError (List Value)} (g : Graph) (mode : RunMode)
  (hbody : n.body = .transition pins settings) (entry : Option PinId)
include hbody

theorem isBuiltin_transition : n.body.isBuiltin = true := by rw [hbody]; rfl

/-- A transition that has its data blends it. -/
theorem conclude_transition (a b c : Value) : n.conclude g [a, b, c] =
    n.blend g pins settings a.toFrame b.toFrame (Single.clampUnit (c.asFloat 0)) := by
  simp only [conclude, hbody]

/-- What a transition passes on, it publishes. -/
theorem execute_forwards (h : n.Gathers pull s r u) {first : Frame} (hf : n.Forwards r first) :
    n.execute g mode pull entry s =
      (.ok (some pins.exit), u.published pins.out (.frame first)) := by
  obtain ⟨hoff, a, b, c, rfl, rfl, ha, hb⟩ := hf
  rw [h.execute_ok g mode (isBuiltin_transition hbody), conclude_transition g hbody, blend_apply]
  simp [hoff, ha, hb]

/-- A transition that is switched on publishes the composite of its pictures, with the time of the first
one. -/
theorem execute_blended (hon : n.enabled = true) {a b c : Value}
    (h : n.Gathers pull s (.ok [a, b, c]) u) (hrunning : u.stopped = false)
    (ha : a.toFrame.isEmpty = false) (hb : b.toFrame.isEmpty = false) {frame : Frame}
    (hdraw : (settings.composite a.toFrame b.toFrame (Single.clampUnit (c.asFloat 0))).draw
      (u.memory.compositor n.id a.toFrame.device).device = .ok frame) :
    n.execute g mode pull entry s = (.ok (some pins.exit),
      ((u.holding n.id a.toFrame.device).charged n.id 0).published pins.out
        (.frame (frame.withTimingOf a.toFrame))) := by
  rw [h.execute_ok g mode (isBuiltin_transition hbody), conclude_transition g hbody, blend_apply]
  simp [hon, ha, hb, hdraw, hrunning]

/-- A transition that has been asked to stop publishes nothing but what it passes on. -/
theorem execute_quiet (h : n.Gathers pull s r u) (hstopped : u.stopped = true)
    (hf : ∀ first, ¬ n.Forwards r first) :
    (n.execute g mode pull entry s).2.memory.values = u.memory.values ∧
      (n.execute g mode pull entry s).2.cache = u.cache := by
  cases r with
  | error e =>
    rw [h.execute_error g mode (isBuiltin_transition hbody)]
    exact ⟨rfl, rfl⟩
  | ok values =>
    rw [h.execute_ok g mode (isBuiltin_transition hbody)]
    rcases values with _ | ⟨a, _ | ⟨b, _ | ⟨c, _ | ⟨_, _⟩⟩⟩⟩
    case cons.cons.cons.nil =>
      rw [conclude_transition g hbody, blend_apply]
      split_ifs with hmissing hon
      · exact ⟨rfl, rfl⟩
      · split <;> exact ⟨rfl, rfl⟩
      · -- this is the case in which it passes its first picture on
        simp only [Bool.or_eq_true, not_or, Bool.not_eq_true] at hmissing hon
        exact absurd ⟨hon, a, b, c, rfl, rfl, hmissing⟩ (hf a.toFrame)
    all_goals
      simp only [conclude, hbody]
      exact ⟨rfl, rfl⟩

/-- A transition that was cleared while it asked for its data stays empty unless it passes its first picture
on. -/
theorem Cleared.staysEmpty_iff (hcleared : Cleared pins u) (h : n.Gathers pull s r u) :
    StaysEmpty pins u (n.execute g mode pull entry s).2 ↔ ∀ first, ¬ n.Forwards r first := by
  constructor
  · intro hstays first hf
    have hvalue := hstays.value
    rw [execute_forwards g mode hbody entry h hf] at hvalue
    have hfirst : first = .empty :=
      Value.frame.inj ((Memory.value_store u.memory pins.outPin _).symm.trans hvalue)
    obtain ⟨-, -, -, -, -, -, hsome, -⟩ := hf
    rw [hfirst] at hsome
    cases hsome
  · intro hf
    obtain ⟨hvalues, hcache⟩ := execute_quiet g mode hbody entry h hcleared.stopped hf
    refine ⟨?_, by rw [hcache]⟩
    rw [Memory.value, hvalues]
    exact hcleared.value

/-- **A stop wins over a transition that is being executed, unless it is switched off.** A request to stop
clears the transition. If it has come while the transition asked for its data, then the picture is still empty
when the transition is through, and nothing has been published there, exactly if the transition does not pass
its first picture on. If it does, that picture is published all the same. -/
theorem execute_stopped_iff :
    (g.WellFormed → n ∈ g.nodes → ∀ v, ∃ t, g.stop v = (.ok (), t) ∧ Cleared pins t) ∧
      ∀ s r u, n.Gathers pull s r u → Cleared pins u →
        (StaysEmpty pins u (n.execute g mode pull entry s).2 ↔ ∀ first, ¬ n.Forwards r first) ∧
        ∀ first, n.Forwards r first → n.execute g mode pull entry s =
          (.ok (some pins.exit), u.published pins.out (.frame first)) := by
  refine ⟨fun hg hn v => ?_, fun s r u h hcleared => ⟨?_, fun first hf => ?_⟩⟩
  · obtain ⟨t, ht, -, hcleared⟩ := Graph.stop_cleared hg v
    exact ⟨t, ht, hcleared n hn pins settings hbody⟩
  · exact hcleared.staysEmpty_iff g mode hbody entry h
  · exact execute_forwards g mode hbody entry h hf

/-- **A transition that is switched off passes its first picture on if the second one has come as well.**
When its data has come and the first picture is there, it charges nothing, reports no failure and continues
through its exit, whatever the second picture and the progress are. It publishes the first picture exactly if
the second one is there, which it does not use. Otherwise it does nothing at all. -/
theorem execute_disabled_iff (hoff : n.enabled = false) {a b c : Value}
    (h : n.Gathers pull s (.ok [a, b, c]) u) (ha : a.toFrame.isEmpty = false) : ∃ t,
    n.execute g mode pull entry s = (.ok (some pins.exit), t) ∧ t.costs = u.costs ∧
      t.failures = u.failures ∧
      (b.toFrame.isEmpty = false → t = u.published pins.out (.frame a.toFrame)) ∧
      (b.toFrame.isEmpty = true → t = u) ∧
      (u.cache.get? pins.out = none →
        (t.cache.get? pins.out = some (.frame a.toFrame) ↔ b.toFrame.isEmpty = false)) := by
  cases hb : b.toFrame.isEmpty with
  | false =>
    refine ⟨_, execute_forwards g mode hbody entry h ⟨hoff, a, b, c, rfl, rfl, ha, hb⟩, rfl, rfl,
      fun _ => rfl, nofun, fun _ => iff_of_true ?_ rfl⟩
    exact (Table.get?_set ..).trans (if_pos rfl)
  | true =>
    have hexecute : n.execute g mode pull entry s = (.ok (some pins.exit), u) := by
      rw [h.execute_ok g mode (isBuiltin_transition hbody), conclude_transition g hbody, blend_apply]
      simp [hb]
    refine ⟨u, hexecute, rfl, rfl, nofun, fun _ => rfl, fun hnone => iff_of_false ?_ nofun⟩
    rw [hnone]
    nofun

end Node

namespace Graph

theorem stoppedPull_wellFormed : (stoppedPull true).WellFormed := by
  refine wellFormed_of_indexOf rfl (by decide) (by decide) (fun l hl => ?_) (by decide)
  simp only [stoppedPull, List.mem_cons, List.not_mem_nil, or_false] at hl
  rcases hl with rfl | rfl | rfl | rfl
  · exact joins_of_getElem? (i := 0) (j := 1) (k := 0) (m := 0) rfl rfl rfl rfl rfl (by decide) rfl
  · exact joins_of_getElem? (i := 1) (j := 3) (k := 4) (m := 0) rfl rfl rfl rfl rfl (by decide) rfl
  · exact joins_of_getElem? (i := 2) (j := 1) (k := 0) (m := 1) rfl rfl rfl rfl rfl (by decide) rfl
  · exact joins_of_getElem? (i := 2) (j := 1) (k := 0) (m := 2) rfl rfl rfl rfl rfl (by decide) rfl

/-- The transition of the example, switched on, stays empty when the run is asked to stop by the node that it
takes its pictures from. A request to stop from outside would have cleared it as well. -/
theorem stoppedPull_stays :
    (∀ v, ∃ t, (stoppedPull true).stop v = (.ok (), t) ∧ Node.Cleared (examplePins 20) t) ∧
      ∃ u, u.stopped = true ∧ Node.StaysEmpty (examplePins 20) u
        ((stoppedPull true).executeNode ⟨false, true⟩ stoppedPull.middle none (.initial .empty)).2 := by
  have hgathers : stoppedPull.middle.Gathers
      ((stoppedPull true).pull ⟨false, true⟩ (stoppedPull true).pullDepth) (.initial .empty)
      (.ok [.frame (Frame.filled 1 1 1 5), .frame (Frame.filled 1 1 1 5), .float 0])
      (stoppedPull.middle.reads.mapM
        ((stoppedPull true).pull ⟨false, true⟩ (stoppedPull true).pullDepth)
        ((RunState.initial .empty).logged stoppedPull.middle.id)).2 :=
    Prod.ext (by decide +kernel) rfl
  obtain ⟨hclears, hstays⟩ := Node.execute_stopped_iff (stoppedPull true) ⟨false, true⟩
    (show stoppedPull.middle.body = .transition (examplePins 20) .standard from rfl) none
  refine ⟨hclears stoppedPull_wellFormed (by decide +kernel), _, ?_,
    (hstays _ _ _ hgathers ⟨?_, ?_⟩).1.mpr fun first hf => ?_⟩
  · decide +kernel
  · decide +kernel
  · decide +kernel
  · cases hf.1

/-- Switched off, the same transition publishes a picture after the run has been asked to stop, and its
picture is no longer empty. -/
theorem stoppedPull_forwards :
    let n := { stoppedPull.middle with enabled := false }
    let s := RunState.initial .empty
    let u := (n.reads.mapM ((stoppedPull false).pull ⟨false, true⟩ (stoppedPull false).pullDepth)
      (s.logged n.id)).2
    let t := ((stoppedPull false).executeNode ⟨false, true⟩ n none s).2
    n ∈ (stoppedPull false).nodes ∧ n.body = .transition (examplePins 20) .standard ∧
      u.stopped = true ∧ u.memory.value (examplePins 20).outPin = .frame .empty ∧
      u.cache.get? (examplePins 20).out = none ∧
      t.memory.value (examplePins 20).outPin = .frame (Frame.filled 1 1 1 5) ∧
      t.cache.get? (examplePins 20).out = some (.frame (Frame.filled 1 1 1 5)) := by
  decide +kernel

/-- A transition of the example. -/
def alone.node (enabled : Bool) (move : Move) : Node :=
  { exampleNode 2 (.transition (examplePins 20) { move, elementType := .undefined }) with enabled }

/-- The transition is on its own. -/
def alone (enabled : Bool) (move : Move) : Graph :=
  { name := "alone", nodes := [alone.node enabled move], owners := indexOf [alone.node enabled move]
    links := [] }

/-- Two pictures and a progress are stored on its inputs. -/
def alone.state (first second : Frame) (pos : Float32) : RunState :=
  .initial (((Memory.empty.store (examplePins 20).first (.frame first)).store
    (examplePins 20).second (.frame second)).store (examplePins 20).pos (.float pos))

/-- It has them when it has asked for them. -/
theorem alone_gathers (enabled : Bool) (move : Move) (first second : Frame) (pos : Float32) :
    (alone.node enabled move).Gathers ((alone enabled move).pull ⟨false, true⟩
      (alone enabled move).pullDepth) (alone.state first second pos)
      (.ok [.frame first, .frame second, .float pos])
      ((alone.state first second pos).logged (alone.node enabled move).id) := rfl

/-- A larger second picture with more channels does not keep the first one from coming through. -/
theorem alone_passed : ∃ t,
    (alone false .right).executeNode ⟨false, true⟩ (alone.node false .right) none
        (alone.state (Frame.filled 1 1 1 5) (Frame.filled 2 1 3 7) 0) =
      (.ok (some (examplePins 20).exit), t) ∧
      t.cache.get? (examplePins 20).out = some (.frame (Frame.filled 1 1 1 5)) := by
  obtain ⟨t, ht, -, -, -, -, hiff⟩ := Node.execute_disabled_iff (alone false .right) ⟨false, true⟩
    (show (alone.node false .right).body = .transition (examplePins 20) .standard from rfl) none rfl
    (alone_gathers false .right (Frame.filled 1 1 1 5) (Frame.filled 2 1 3 7) 0) (by decide +kernel)
  exact ⟨t, ht, (hiff (by decide +kernel)).mpr (by decide +kernel)⟩

/-- Without a second picture the first one does not come through. -/
theorem alone_lost :
    let s := alone.state (Frame.filled 1 1 1 5) .empty 0
    let asked := (alone.node false .right).reads.mapM
      ((alone false .right).pull ⟨false, true⟩ (alone false .right).pullDepth)
      (s.logged (alone.node false .right).id)
    let t := ((alone false .right).executeNode ⟨false, true⟩ (alone.node false .right) none s).2
    alone.node false .right ∈ (alone false .right).nodes ∧
      asked.1 = .ok [.frame (Frame.filled 1 1 1 5), .frame .empty, .float 0] ∧
      (Frame.filled 1 1 1 5).isEmpty = false ∧ asked.2.stopped = false ∧
      t.memory.value (examplePins 20).outPin = .frame .empty ∧
      t.cache.get? (examplePins 20).out = none := by
  decide +kernel

end Graph

end Patchbay
