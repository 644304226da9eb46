import Patchbay.Proofs.Graph.Reach
import Patchbay.Proofs.Run.Once

/-!
# The errors a run can end in

Of the ways in which a run can fail, most are there for host types: an end node that leaves the call
stack filled, an exit that is no output flow pin, a pin or a node that is not there, nesting without
end. Over a well-formed graph of built-in nodes none of them is ever met. A run is refused because the
graph cannot run, or it fails over a cycle, and each demand for a value made on the way fails over a
cycle at most. The call stack is empty after every run, and every demand leaves it as it was.

`Graph.Asks` tells which demands are made: those of the nodes that flow enters, and those of the nodes
that are executed to meet another demand. `Answerable.next` and `Answerable.nested` are the steps of
the invariant that all of them share, and **`Graph.run_fails_over_cycles`** is the main result.
-/

namespace Patchbay

open Patchbay.Action RunM

/-- The outcome is a value, or the evidence of a cycle. -/
def FailsOverCycles {α : Type} (r : Except RunError α) : Prop :=
  ∀ e, r = .error e → ∃ n stack, e = .cyclic n stack

namespace Graph

variable {g : Graph}

/-! ## The demands of a run -/

/-- In the run from `start` that begins in state `s`, the pins `ps` are asked for one after the other
from state `t` on, with `depth` levels of nesting left. -/
inductive Asks (g : Graph) (mode : RunMode) (start : NodeId) (s : RunState) :
    Nat → RunState → List Pin → Prop
  /-- Flow enters a node that has no exit kept, and the node asks for its data. -/
  | entered {c : FlowPoint} {n : Node} (reached : g.Reached mode ⟨s.begin, start, none, []⟩ c)
      (running : c.state.stopped = false) (found : g.node? c.node = some n)
      (idle : n.id ∉ c.state.stack) (new : c.state.pulledExits.get? n.id = none) :
      Asks g mode start s g.pullDepth (c.state.begun n.id) n.reads
  /-- The first pin has got its value, and the others follow. -/
  | next {depth : Nat} {t u : RunState} {p : Pin} {ps : List Pin} {v : Value}
      (asks : Asks g mode start s depth t (p :: ps)) (value : g.pull mode depth p t = (.ok v, u)) :
      Asks g mode start s depth u ps
  /-- The first pin has no value yet, and the node that owns its source is executed and asks for its
  data. -/
  | nested {depth : Nat} {t : RunState} {p : Pin} {ps : List Pin} {i : PinId} {n : Node}
      (asks : Asks g mode start s (depth + 1) t (p :: ps)) (source : g.sourceOf? p = some i)
      (unpublished : t.cache.get? i = none) (owner : g.owner? i = some n.id)
      (found : g.node? n.id = some n) (idle : n.id ∉ t.stack) (unexecuted : n.id ∉ t.executed) :
      Asks g mode start s depth (t.begun n.id) n.reads

/-- What all demands of a run share: there is room for the nodes that are not on the call stack. -/
structure Answerable (g : Graph) (depth : Nat) (s : RunState) (ps : List Pin) : Prop where
  subset : ps ⊆ g.pins
  nodup : s.stack.Nodup
  stack_subset : s.stack ⊆ g.nodeIds
  room : g.nodes.length ≤ s.stack.length + depth

/-- Asking for one pin is asking for a list of one pin. -/
lemma mapM_singleton {α β : Type} (f : α → RunM β) (a : α) (s : RunState) :
    [a].mapM f s = ((f a s).1.map fun b => [b], (f a s).2) := by
  rw [List.mapM_cons]
  rcases hf : f a s with ⟨r, t⟩
  cases r with
  | ok b => exact bind_ok hf
  | error e => exact bind_error hf

/-- A node that is executed for its data takes one place on the call stack and one level. -/
theorem Answerable.nested {depth : Nat} {s : RunState} {ps : List Pin}
    (h : g.Answerable (depth + 1) s ps) {n : Node} (hdue : g.Due s n) :
    g.Answerable depth (s.begun n.id) n.reads where
  subset := reads_subset_pins hdue.mem
  nodup := hdue.nodup_begun h.nodup
  stack_subset := hdue.begun_subset h.stack_subset
  room := by
    have hroom := h.room
    simp only [RunState.begun_stack, List.length_append, List.length_singleton]
    omega

section Answerable

variable (hg : g.WellFormed) (hb : g.IsBuiltin) (mode : RunMode) {depth : Nat} {s t : RunState}
  {p : Pin} {ps : List Pin}
include hg hb

/-- A demand for the value of a pin, as a derivation. -/
lemma pulls_pull (hp : p ∈ g.pins) (hroom : g.idleCount s.stack ≤ depth) :
    g.Pulls s [p] ((g.pull mode depth p s).1.map fun v => [v]) (g.pull mode depth p s).2 := by
  obtain ⟨r, t, hr, hpulls⟩ := mapM_pull_of_idleCount hg hb mode depth s [p]
    (List.cons_subset.mpr ⟨hp, List.nil_subset _⟩) hroom
  obtain ⟨rfl, rfl⟩ := Prod.mk.inj ((mapM_singleton _ p s).symm.trans hr)
  exact hpulls

lemma Answerable.pulls (h : g.Answerable depth s (p :: ps)) :
    g.Pulls s [p] ((g.pull mode depth p s).1.map fun v => [v]) (g.pull mode depth p s).2 :=
  pulls_pull hg hb mode (h.subset List.mem_cons_self) (idleCount_le h.nodup h.stack_subset h.room)

/-- **A demand is met, or fails over a cycle**, and leaves the call stack as it was. -/
theorem Answerable.pull (h : g.Answerable depth s (p :: ps)) :
    FailsOverCycles (g.pull mode depth p s).1 ∧ (g.pull mode depth p s).2.stack = s.stack := by
  have hpulls := h.pulls hg hb mode
  exact ⟨fun e he => hpulls.error_eq e (by rw [he]; rfl), (hpulls.grows hb).stack⟩

/-- The pins that follow are asked for in the same circumstances. -/
theorem Answerable.next (h : g.Answerable depth s (p :: ps)) {v : Value}
    (hvalue : g.pull mode depth p s = (.ok v, t)) : g.Answerable depth t ps := by
  have hstack : t.stack = s.stack := by
    have hpull := (h.pull hg hb mode).2
    rwa [hvalue] at hpull
  exact ⟨List.subset_of_cons_subset h.subset, hstack ▸ h.nodup, hstack ▸ h.stack_subset,
    hstack ▸ h.room⟩

/-- **All demands of a run are answerable.** -/
theorem Asks.answerable {start : NodeId} (hstart : start ∈ g.nodeIds) (hs : s.stack = [])
    (h : g.Asks mode start s depth t ps) : g.Answerable depth t ps := by
  induction h with
  | @entered c n reached running found idle new =>
    obtain ⟨hn, -⟩ := node?_some found
    have hsound :=
      FlowPoint.sound_of_reached hg hb reached (FlowPoint.sound_begin hs hstart)
    have hdue := hsound.due hn idle new
    refine ⟨reads_subset_pins hn, hdue.nodup_begun hsound.orderly.stack_nodup,
      hdue.begun_subset hsound.orderly.stack_subset, ?_⟩
    rw [pullDepth]
    omega
  | next _ value ih => exact ih.next hg hb mode value
  | nested _ source unpublished owner found idle unexecuted ih =>
    exact ih.nested ⟨(node?_some found).1, idle, unexecuted⟩

/-! ## Runs -/

/-- A run from a node of the graph comes to a report or fails over a cycle, and leaves the call stack
empty. -/
theorem runFrom_failsOverCycles {start : NodeId} (hstart : start ∈ g.nodeIds) (hs : s.stack = []) :
    FailsOverCycles (g.runFrom mode start s).1 ∧ (g.runFrom mode start s).2.stack = [] := by
  obtain ⟨d, r, t, -, hsound, -, hends, hrun⟩ := runFrom_spec hg hb mode hstart hs
  rw [hrun]
  cases r with
  | error e =>
    refine ⟨?_, rfl⟩
    rintro _ ⟨⟩
    exact (hends.tallied hg hb hsound).error_eq e rfl
  | ok outcome =>
    refine ⟨?_, rfl⟩
    rintro _ ⟨⟩

/-- A run from anywhere leaves the call stack empty. -/
theorem runFrom_stack (start : NodeId) (hs : s.stack = []) : (g.runFrom mode start s).2.stack = [] := by
  cases hstart : g.hasNode start with
  | true => exact (runFrom_failsOverCycles hg hb mode (hasNode_iff.mp hstart) hs).2
  | false =>
    rw [runFrom_absent g mode hs hstart]
    exact hs

/-- **Runs fail over cycles only.** A run from a node of the graph comes to a report or fails over a
cycle, and so does every demand for a value on the way, however deep. A run from the entry node does so
too, unless the graph cannot run: then it is refused and changes nothing. The call stack is empty after
every run, and after a demand it is what it was before. -/
theorem run_fails_over_cycles (hs : s.stack = []) :
    (∀ start, g.hasNode start = true →
      (FailsOverCycles (g.runFrom mode start s).1 ∧ (g.runFrom mode start s).2.stack = []) ∧
      ∀ depth t p ps, g.Asks mode start s depth t (p :: ps) →
        FailsOverCycles (g.pull mode depth p t).1 ∧ (g.pull mode depth p t).2.stack = t.stack) ∧
    (FailsOverCycles (g.run mode s).1 ∨ ∃ reason, g.checkRunnable = .error reason ∧
      g.run mode s = (.error (.notRunnable reason), s)) ∧
    (g.run mode s).2.stack = [] := by
  refine ⟨fun start hstart => ?_, ?_⟩
  · have hmem := hasNode_iff.mp hstart
    exact ⟨runFrom_failsOverCycles hg hb mode hmem hs,
      fun depth t p ps hasks => (hasks.answerable hg hb mode hmem hs).pull hg hb mode⟩
  · cases hcheck : g.checkRunnable with
    | error reason =>
      have hrefused : g.run mode s = (.error (.notRunnable reason), s) := by
        rw [run, hcheck]
        rfl
      exact ⟨Or.inr ⟨reason, rfl, hrefused⟩, hrefused ▸ hs⟩
    | ok entry =>
      have hrun : g.run mode s = g.runFrom mode entry s := by
        rw [run, hcheck]
      have hmem := entryNode_mem (checkRunnable_eq_ok.mp hcheck).1
      obtain ⟨hfails, hstack⟩ := runFrom_failsOverCycles hg hb mode hmem hs
      exact ⟨Or.inl (hrun ▸ hfails), hrun ▸ hstack⟩

end Answerable

/-- The point of the example at which flow steps into the first transition. -/
def pullAheadEntry : FlowPoint :=
  ⟨(pullAhead.stepInto ⟨false, true⟩ (exampleNode 1 (.start ⟨Uuid.ofNat 11⟩)) none
    (RunState.initial .empty).begin).2, ⟨Uuid.ofNat 2⟩, some ⟨Uuid.ofNat 20⟩, [⟨Uuid.ofNat 1⟩]⟩

/-- In the example, the first transition asks for a picture of the second one, which is executed and
asks for its own. -/
theorem pullAhead_fails_over_cycles : ∃ t, pullAhead.Asks ⟨false, true⟩ ⟨Uuid.ofNat 1⟩
      (.initial .empty) 4100 t (exampleNode 3 (.transition (examplePins 30) .standard)).reads ∧
    FailsOverCycles (pullAhead.pull ⟨false, true⟩ 4100 (examplePins 30).firstPin t).1 := by
  have hreached : pullAhead.Reached ⟨false, true⟩
      ⟨(RunState.initial .empty).begin, ⟨Uuid.ofNat 1⟩, none, []⟩ pullAheadEntry := .single rfl
  have houter : pullAhead.Asks ⟨false, true⟩ ⟨Uuid.ofNat 1⟩ (.initial .empty) 4101
      (pullAheadEntry.state.begun ⟨Uuid.ofNat 2⟩)
      (exampleNode 2 (.transition (examplePins 20) .standard)).reads :=
    .entered hreached rfl rfl (by decide) rfl
  have hinner : pullAhead.Asks ⟨false, true⟩ ⟨Uuid.ofNat 1⟩ (.initial .empty) 4100
      ((pullAheadEntry.state.begun ⟨Uuid.ofNat 2⟩).begun ⟨Uuid.ofNat 3⟩)
      (exampleNode 3 (.transition (examplePins 30) .standard)).reads :=
    .nested houter rfl rfl rfl rfl (by decide) (by decide)
  obtain ⟨hfrom, -⟩ := run_fails_over_cycles pullAhead_wellFormed pullAhead_isBuiltin
    ⟨false, true⟩ (s := .initial .empty) rfl
  exact ⟨_, hinner, ((hfrom _ (by decide)).2 _ _ _ _ hinner).1⟩

end Graph

end Patchbay
