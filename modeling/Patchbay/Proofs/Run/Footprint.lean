import Patchbay.Proofs.Run.Moments
import Patchbay.Session

/-!
# What runs leave alone

A run works on the values of pins and on nothing else of its graph. `Graph.Footprint` bounds what it does to
them: it stores values on pins that the nodes it has executed write, and as long as no node is told of a stop,
each pin has the value that has been published there. A stop from outside empties the pictures of transitions
besides.

The bound holds at the beginning of a run, and each act keeps it (`Footprint.act`), so it holds wherever a
course leads. **`Graph.runFrom_footprint`** puts this together for the runs of the program, at every moment
and however they end.
-/

namespace Patchbay

open Patchbay.Action RunM

namespace Graph

/-- What has become by state `t` of the values that were stored in state `s`. The flag tells whether a node
has been told of a stop in between. -/
structure Footprint (g : Graph) (told : Bool) (s t : RunState) : Prop where
  /-- A value that has changed is on a pin that an executed node writes, or it is the picture of a transition
  that was told of a stop. -/
  touched : ∀ i, t.memory.values.get? i ≠ s.memory.values.get? i →
    (∃ n ∈ g.nodes, n.id ∈ t.log ∧ ∃ p ∈ n.writes, p.id = i) ∨
      told = true ∧ t.memory.values.get? i = some (.frame .empty) ∧
        ∃ n ∈ g.nodes, ∃ pins settings, n.body = .transition pins settings ∧ pins.out = i
  /-- What has been published on a pin is stored there. -/
  stored : told = false → ∀ i v, t.cache.get? i = some v → t.memory.values.get? i = some v

/-- Nothing has been published when a run begins. -/
theorem footprint_begin (g : Graph) (s : RunState) : g.Footprint false s s.begin where
  touched _ h := absurd rfl h
  stored _ i v hv := by simp [RunState.begin] at hv

variable {g : Graph} {s t u : RunState} {told : Bool}

/-- The bookkeeping is no matter of the footprint. -/
theorem Footprint.of_sameValues (h : g.Footprint told s t) (hsame : t.SameValues u) :
    g.Footprint told s u where
  touched := by
    rw [hsame.memory, hsame.log]
    exact h.touched
  stored := by
    rw [hsame.memory, hsame.cache]
    exact h.stored

section Steps

variable (hb : g.IsBuiltin)
include hb

/-- **Acts keep to the footprint.** -/
theorem Footprint.act (h : g.Footprint told s t) (hg : g.WellFormed) (ht : g.Tidy t) (act : g.Act t u) :
    g.Footprint told s u := by
  obtain ⟨hlog, hwrites⟩ := act.writes hb hg ht
  cases hwrites with
  | nothing values cache =>
    refine ⟨fun i hi => ?_, fun htold i v hv => ?_⟩
    · rw [values] at hi ⊢
      exact (h.touched i hi).imp_left fun ⟨n, hn, hlogged, hp⟩ => ⟨n, hn, hlog hlogged, hp⟩
    · rw [values]
      exact h.stored htold i v (cache ▸ hv)
  | @stored n p w mem logged writes new values cache =>
    refine ⟨fun i hi => ?_, fun htold i v hv => ?_⟩
    · by_cases heq : p.id = i
      · exact .inl ⟨n, mem, hlog logged, p, writes, heq⟩
      · rw [values, Table.get?_set, if_neg heq] at hi ⊢
        exact (h.touched i hi).imp_left fun ⟨m, hm, hlogged, hq⟩ => ⟨m, hm, hlog hlogged, hq⟩
    · rw [values, Table.get?_set]
      by_cases heq : p.id = i
      · -- a value on an input is not published, and nothing has been published there before
        subst heq
        rw [cache] at hv
        split_ifs at hv with hout
        · rw [Table.get?_set, if_pos rfl] at hv
          rw [if_pos rfl, hv]
        · rw [new] at hv
          cases hv
      · rw [if_neg heq]
        refine h.stored htold i v ?_
        rw [cache] at hv
        split_ifs at hv
        · rwa [Table.get?_set, if_neg heq] at hv
        · exact hv

/-- Telling a node of a stop empties its picture if it is a transition. -/
theorem Footprint.tells (h : g.Footprint told s t) {n : Node} (hn : n ∈ g.nodes) :
    g.Footprint true s (n.onStop t).2 := by
  have hbefore : g.Footprint true s t :=
    ⟨fun i hi => (h.touched i hi).imp_right fun ⟨_, hrest⟩ => ⟨rfl, hrest⟩, by simp⟩
  rcases n.onStop_cases (hb n hn) t with heq | ⟨pins, settings, hbody, heq⟩
  · rwa [heq]
  · rw [heq]
    refine ⟨fun i hi => ?_, by simp⟩
    have hvalue : (t.stored pins.out (.frame .empty)).memory.values.get? i =
        if pins.out = i then some (.frame .empty) else t.memory.values.get? i := Table.get?_set ..
    rw [hvalue] at hi ⊢
    split_ifs at hi ⊢ with hout
    · exact .inr ⟨rfl, rfl, n, hn, pins, settings, hbody, hout⟩
    · exact hbefore.touched i hi

/-- **Courses keep to the footprint**, wherever they lead. -/
theorem Course.footprint (hg : g.WellFormed) (hs : s.stack = []) (h : g.Course s.begin told t) :
    g.Footprint told s t := by
  induction h with
  | here => exact footprint_begin g s
  | acts course act ih => exact ih.act hb hg (course.tidy hb hg (tidy_begin g hs)) act
  | asks _ stopped ih => exact ⟨ih.touched, ih.stored⟩
  | tells _ mem ih => exact ih.tells hb mem

end Steps

/-! ## Runs -/

/-- **What runs leave alone.** A run leaves the graph as it is. A run that is refused does nothing. At every
moment of any other run, however it ends, the only values that have changed are those on pins that the nodes
executed so far write: outputs of constants, of picture sources and of transitions, and frame pins of end
nodes. Every published value is stored on its pin, and it stays published until the end. If a host asks the
run to stop, at any time and as often as it likes, then published values stay published all the same, and the
only other values that change are pictures of transitions, which become empty. -/
theorem runFrom_footprint (hg : g.WellFormed) (hb : g.IsBuiltin) (mode : RunMode) (s : RunState) :
    (∀ session : Session, (session.performRun (g.run mode)).2.graph = session.graph ∧
      ∀ start, (session.performRun (g.runFrom mode start)).2.graph = session.graph) ∧
    ((g.run mode s).2 = s ∨ ∃ start, g.run mode s = g.runFrom mode start s) ∧
    (∀ start, s.stack ≠ [] ∨ g.hasNode start = false → (g.runFrom mode start s).2 = s) ∧
    (s.stack = [] →
      (∀ start, g.hasNode start = true → ∀ u, g.Moment mode start s u →
        g.Footprint false s u ∧ u.Retains (g.runFrom mode start s).2) ∧
      ∀ told t, g.Course s.begin told t → g.Footprint told s t ∧
        ∀ told' u, g.Course t told' u → t.Retains u) := by
  refine ⟨fun session => ⟨rfl, fun start => rfl⟩, ?_, fun start hrefused => ?_, fun hs => ⟨?_, ?_⟩⟩
  · rw [run]
    cases g.checkRunnable with
    | error e => exact .inl rfl
    | ok entry => exact .inr ⟨entry, rfl⟩
  · by_cases hstack : s.stack = []
    · rw [runFrom_absent g mode hstack (hrefused.resolve_left fun h => h hstack)]
    · simp [runFrom, hstack]
  · intro start hstart u hmoment
    obtain ⟨v, w, hv, hw, hfirst, hlast⟩ := hmoment.courses hg hb (hasNode_iff.mp hstart) hs
    refine ⟨(hfirst.footprint hb hg hs).of_sameValues hv, ?_⟩
    rw [RunState.Retains, hv.cache, hw.cache]
    exact hlast.retains hb hg (hfirst.tidy hb hg (tidy_begin g hs))
  · intro told t hcourse
    exact ⟨hcourse.footprint hb hg hs,
      fun told' u hcourse' => hcourse'.retains hb hg (hcourse.tidy hb hg (tidy_begin g hs))⟩

/-- In the example, the second transition is executed to give the first one a picture. -/
lemma pullAhead_nested : pullAhead.Asks ⟨false, true⟩ ⟨Uuid.ofNat 1⟩ (.initial .empty) 4100
    ((pullAheadEntry.state.begun ⟨Uuid.ofNat 2⟩).begun ⟨Uuid.ofNat 3⟩)
    (exampleNode 3 (.transition (examplePins 30) .standard)).reads := by
  have hreached : pullAhead.Reached ⟨false, true⟩
      ⟨(RunState.initial .empty).begin, ⟨Uuid.ofNat 1⟩, none, []⟩ pullAheadEntry := .single rfl
  have houter : pullAhead.Asks ⟨false, true⟩ ⟨Uuid.ofNat 1⟩ (.initial .empty) 4101
      (pullAheadEntry.state.begun ⟨Uuid.ofNat 2⟩)
      (exampleNode 2 (.transition (examplePins 20) .standard)).reads :=
    .entered hreached rfl rfl (by decide) rfl
  exact .nested houter rfl rfl rfl rfl (by decide) (by decide)

/-- In the example, the constant has its value in the end. Nothing is stored on pins of nodes that have not
been executed, neither then nor while the second transition is at work for the first one. Telling the first
transition of a stop when the run has just begun empties its picture. -/
theorem pullAhead_footprint :
    ((pullAhead.runFrom ⟨false, true⟩ ⟨Uuid.ofNat 1⟩ (.initial .empty)).2.memory.values.get?
      ⟨Uuid.ofNat 51⟩ = some (.float 1)) ∧
    (∃ u, u.log = [⟨Uuid.ofNat 1⟩, ⟨Uuid.ofNat 2⟩, ⟨Uuid.ofNat 3⟩] ∧
      pullAhead.Footprint false (.initial .empty) u ∧
      u.Retains (pullAhead.runFrom ⟨false, true⟩ ⟨Uuid.ofNat 1⟩ (.initial .empty)).2) ∧
    ∃ u, u.memory.values.get? ⟨Uuid.ofNat 25⟩ = some (.frame .empty) ∧
      pullAhead.Footprint true (.initial .empty) u := by
  obtain ⟨-, -, -, hruns⟩ :=
    runFrom_footprint pullAhead_wellFormed pullAhead_isBuiltin ⟨false, true⟩ (.initial .empty)
  obtain ⟨hmoments, hcourses⟩ := hruns rfl
  have hmoment := hmoments ⟨Uuid.ofNat 1⟩ (by decide)
  have htold : pullAhead.Course (RunState.initial .empty).begin true
      ((exampleNode 2 (.transition (examplePins 20) .standard)).onStop (RunState.initial .empty).begin).2 :=
    .tells .here (by decide)
  refine ⟨(hmoment _ .ended).1.stored rfl _ _ ?_, ⟨_, ?_, hmoment _ (.asking pullAhead_nested)⟩, _, ?_,
    (hcourses true _ htold).1⟩
  · decide +kernel
  · decide +kernel
  · decide +kernel

end Graph

end Patchbay
