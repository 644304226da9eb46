import Patchbay.Proofs.Run.Once

/-!
# Stopping a run

A run looks whether it has been asked to stop before each step of flow and where flow ends, and nowhere
else. What follows from this does not depend on what nodes do, so it is shown for every `Conduct`: any
way of resetting nodes and of taking a step in one, where a step may change the state of the run in any
way. Data that the node asks for is part of its step, and so is what others do to the run meanwhile.

`Graph.walkBy` and `Graph.runBy` are walks and runs over a conduct, and the runs of the program are those
over `Graph.conduct` (`Graph.runFrom_eq_runBy`). **`Graph.runBy_stopping`** says what a request to stop
does to a run, by when it comes.
-/

namespace Patchbay

open Patchbay.Action RunM

/-- What the nodes of a graph do in a run, of whatever types they are. -/
structure Conduct where
  /-- What a node does to the state when a run starts. -/
  reset : Node → RunState → RunState
  /-- All that happens while flow is in a node, which it has entered through the pin given if any. -/
  step : Node → Option PinId → RunM (Option PinId)

/-- What a step comes to leaves a walk at its end, or flow goes on to another node. -/
inductive Aftermath where
  | ends (r : Except RunError (RunStatus × List NodeId))
  | onward (node : NodeId) (entry : PinId)
  deriving DecidableEq

/-- The status of a run that comes to an end of flow in the state. -/
def RunState.endStatus (s : RunState) : RunStatus := if s.stopped then .stopped else .halted

namespace Graph

variable (g : Graph)

/-! ## Runs over any conduct -/

/-- How a walk goes on at point `c` after a step in node `n` that came to `r` and left state `t`. -/
def aftermath (c : FlowPoint) (n : Node) (r : Except RunError (Option PinId)) (t : RunState) :
    Aftermath :=
  match r with
  | .error e => .ends (.error e)
  | .ok exit =>
    if n.isExit then
      if t.stack.isEmpty then .ends (.ok (.completed, c.path ++ [c.node]))
      else .ends (.error (.unterminated t.stack))
    else match exit with
      | none => .ends (.ok (t.endStatus, c.path ++ [c.node]))
      | some p =>
        match g.follow c.node p with
        | .error e => .ends (.error e)
        | .ok none => .ends (.ok (t.endStatus, c.path ++ [c.node]))
        | .ok (some (next, pin)) => .onward next pin

/-- Follows flow from a point for at most so many steps. -/
def walkBy (step : Node → Option PinId → RunM (Option PinId)) :
    Nat → FlowPoint → Except RunError (RunStatus × List NodeId) × RunState
  | 0, c => (.error .endless, c.state)
  | k + 1, c =>
    if c.state.stopped then (.ok (.stopped, c.path), c.state)
    else match g.node? c.node with
      | none => (.error (.nodeNotFound c.node), c.state)
      | some n =>
        let (r, t) := step n c.entry c.state
        match g.aftermath c n r t with
        | .ends r => (r, t)
        | .onward next pin => walkBy step k ⟨t, next, some pin, c.path ++ [c.node]⟩

/-- The state in which a run takes its first step. -/
def opening (b : Conduct) (s : RunState) : RunState :=
  g.nodes.foldl (fun s n => b.reset n s) s.begin

/-- Runs from a node, with at most so many steps. -/
def runBy (b : Conduct) (limit : Nat) (start : NodeId) (s : RunState) :
    Except RunError RunReport × RunState :=
  if s.stack ≠ [] then (.error (.busy s.stack), s)
  else if g.hasNode start then
    let (r, t) := g.walkBy b.step limit ⟨g.opening b s, start, none, []⟩
    conclusion r t
  else (.error (.nodeNotFound start), s)

/-- A run is a walk from its opening. -/
theorem runBy_eq (b : Conduct) (limit : Nat) {start : NodeId} {s : RunState}
    (hs : s.stack = []) (hstart : g.hasNode start = true) :
    g.runBy b limit start s =
      conclusion (g.walkBy b.step limit ⟨g.opening b s, start, none, []⟩).1
        (g.walkBy b.step limit ⟨g.opening b s, start, none, []⟩).2 := by
  simp [runBy, hs, hstart]

/-- The conduct of the nodes that the program has. -/
def conduct (mode : RunMode) : Conduct where
  reset n s := (n.reset s).2
  step := g.stepInto mode

/-! ## The program's runs -/

section Program

variable (mode : RunMode)

theorem walk_eq_walkBy (k : Nat) (n : NodeId) (entry : Option PinId) (path : List NodeId)
    (s : RunState) :
    g.walk mode k n entry path s = g.walkBy (g.stepInto mode) k ⟨s, n, entry, path⟩ := by
  induction k generalizing n entry path s with
  | zero => rfl
  | succ k ih =>
    rw [walk, get_bind_apply, walkBy]
    cases hstopped : s.stopped with
    | true => rfl
    | false =>
      cases hnode : g.node? n with
      | none => rfl
      | some node =>
        rcases hstep : g.stepInto mode node entry s with ⟨r, t⟩
        simp only [Bool.false_eq_true, if_false, hstep, aftermath]
        cases r with
        | error e => exact bind_error hstep
        | ok exit =>
          refine (bind_ok hstep).trans ?_
          cases hexit : node.isExit with
          | true =>
            simp only [if_true, get_bind_apply]
            cases t.stack.isEmpty <;> rfl
          | false =>
            cases exit with
            | none => rfl
            | some p =>
              simp only [Bool.false_eq_true, if_false]
              rcases g.follow n p with e | _ | ⟨next, pin⟩
              · rfl
              · rfl
              · exact ih next (some pin) (path ++ [n]) t

/-- A reset cannot fail. -/
theorem forM_reset_eq (nodes : List Node) (s : RunState) :
    nodes.forM Node.reset s = (.ok (), nodes.foldl (fun s n => (n.reset s).2) s) := by
  induction nodes generalizing s with
  | nil => rfl
  | cons n rest ih =>
    have hreset : n.reset s = (.ok (), (n.reset s).2) := by
      rw [Node.reset]
      cases n.body with
      | scripted t ins outs =>
        dsimp only
        cases t.noteReset <;> rfl
      | _ => rfl
    exact (bind_ok hreset).trans (ih _)

/-- **The runs of the program** are runs over its conduct. -/
theorem runFrom_eq_runBy (start : NodeId) (s : RunState) :
    g.runFrom mode start s = g.runBy (g.conduct mode) g.stepLimit start s := by
  by_cases hstack : s.stack = []
  swap
  · simp [runFrom, runBy, hstack]
  cases hstart : g.hasNode start with
  | false => simp [runFrom, runBy, hstack, hstart]
  | true =>
    have hopening : g.nodes.foldl (fun s n => (n.reset s).2) s.begin =
        g.opening (g.conduct mode) s := rfl
    rcases hwalk : g.walkBy (g.stepInto mode) g.stepLimit
      ⟨g.opening (g.conduct mode) s, start, none, []⟩ with ⟨r, t⟩
    rw [g.runBy_eq _ _ hstack hstart, runFrom]
    simp only [get_bind_apply, hstack, hstart, List.isEmpty_nil, Bool.not_true, Bool.false_eq_true,
      if_false, modify_bind_apply]
    rw [bind_ok (forM_reset_eq g.nodes s.begin), hopening, bind_ok (outcome_apply _ _),
      bind_ok (clearStack_apply _), walk_eq_walkBy, hwalk]
    rw [show (g.conduct mode).step = g.stepInto mode from rfl, hwalk]
    cases r with
    | error e => rfl
    | ok outcome => rfl

end Program

/-! ## From point to point -/

/-- Flow steps into the node of a point and on to the next point. -/
inductive Steps (step : Node → Option PinId → RunM (Option PinId)) (c : FlowPoint) :
    FlowPoint → Prop
  | onward {n : Node} {r : Except RunError (Option PinId)} {t : RunState} {next : NodeId}
      {pin : PinId} (running : c.state.stopped = false) (node : g.node? c.node = some n)
      (steps : step n c.entry c.state = (r, t)) (goes : g.aftermath c n r t = .onward next pin) :
      Steps step c ⟨t, next, some pin, c.path ++ [c.node]⟩

/-- Flow comes from one point to another. -/
def Comes (step : Node → Option PinId → RunM (Option PinId)) : FlowPoint → FlowPoint → Prop :=
  Relation.ReflTransGen (g.Steps step)

/-- Flow is in node `n` at point `c` when the run is asked to stop: the step there finds the run not yet
asked to, comes to `r` and leaves state `t`, in which the run has been asked to. -/
structure StopsIn (step : Node → Option PinId → RunM (Option PinId)) (c : FlowPoint) (n : Node)
    (r : Except RunError (Option PinId)) (t : RunState) : Prop where
  running : c.state.stopped = false
  node : g.node? c.node = some n
  steps : step n c.entry c.state = (r, t)
  raised : t.stopped = true

/-- Nothing is wrong with a step that came to `r` and left state `t`: it did not fail, an exit node has
cleared the call stack, and any other node has given an exit of its own or none. -/
def StepFine (n : Node) (r : Except RunError (Option PinId)) (t : RunState) : Prop :=
  ∃ exit, r = .ok exit ∧
    if n.isExit then t.stack = [] else ∀ p, exit = some p → ∃ next, g.follow n.id p = .ok next

/-- What becomes of a walk that is asked to stop in node `n` at point `c`. -/
structure EndsIn (c : FlowPoint) (n : Node) (r : Except RunError (Option PinId)) (t : RunState)
    (out : Except RunError (RunStatus × List NodeId)) : Prop where
  /-- Flow gets no further than the node. -/
  path : ∀ status path, out = .ok (status, path) → path = c.path ++ [n.id]
  status : ∀ status path, out = .ok (status, path) →
    status = if n.isExit then .completed else .stopped
  /-- The walk fails only if something is wrong with the step that it is in. -/
  fails : (∃ x, out = .ok x) ↔ g.StepFine n r t

variable {g} {step : Node → Option PinId → RunM (Option PinId)} {c d : FlowPoint} {n : Node}
  {r : Except RunError (Option PinId)} {t : RunState}

/-- A step of the walk is a step from point to point. -/
theorem Steps.walkBy_succ (h : g.Steps step c d) (k : Nat) :
    g.walkBy step (k + 1) c = g.walkBy step k d := by
  cases h with
  | onward running node steps goes => simp [walkBy, running, node, steps, goes]

/-- Flow takes one step for each node that the path grows by. -/
theorem Comes.walkBy_add (h : g.Comes step c d) :
    ∃ j, d.path.length = c.path.length + j ∧
      ∀ k, g.walkBy step (k + j) c = g.walkBy step k d := by
  induction h with
  | refl => exact ⟨0, rfl, fun _ => rfl⟩
  | tail _ hstep ih =>
    obtain ⟨j, hlength, hwalk⟩ := ih
    refine ⟨j + 1, ?_, fun k => ?_⟩
    · cases hstep with
      | onward => simp [hlength, Nat.add_assoc]
    · rw [← hstep.walkBy_succ, ← hwalk, Nat.add_right_comm, Nat.add_assoc]

/-- Flow goes on after a step that gives an exit with a link, unless it was a step into an exit node. -/
theorem aftermath_eq_onward {next : NodeId} {pin : PinId} : g.aftermath c n r t = .onward next pin ↔
      n.isExit = false ∧ ∃ p, r = .ok (some p) ∧ g.follow c.node p = .ok (some (next, pin)) := by
  cases r with
  | error e => simp [aftermath]
  | ok exit =>
    cases hexit : n.isExit with
    | true =>
      simp only [aftermath, hexit, if_true]
      split_ifs <;> simp
    | false =>
      cases exit with
      | none => simp [aftermath, hexit]
      | some p =>
        rcases hfollow : g.follow c.node p with e | _ | ⟨m, q⟩ <;> simp [aftermath, hexit, hfollow]

/-- A step is followed by a stop only if it leaves a state in which the run has been asked to. -/
theorem aftermath_stopped {path : List NodeId}
    (h : g.aftermath c n r t = .ends (.ok (.stopped, path))) : t.stopped = true := by
  have hend : ∀ path', Aftermath.ends (.ok (t.endStatus, path')) = .ends (.ok (.stopped, path)) →
      t.stopped = true := by
    intro path' heq
    simp only [Aftermath.ends.injEq, Except.ok.injEq, Prod.mk.injEq, RunState.endStatus] at heq
    by_contra hdown
    simp [hdown] at heq
  cases r with
  | error e => simp [aftermath] at h
  | ok exit =>
    simp only [aftermath] at h
    split_ifs at h
    · simp at h
    · simp at h
    cases exit with
    | none => exact hend _ h
    | some p =>
      dsimp only at h
      split at h
      · simp at h
      · exact hend _ h
      · cases h

/-- A walk that has been asked to stop takes no step. -/
theorem walkBy_of_stopped (h : c.state.stopped = true) (k : Nat) :
    g.walkBy step (k + 1) c = (.ok (.stopped, c.path), c.state) := by
  simp [walkBy, h]

/-- **Only a walk that has been asked to stop says so.** -/
theorem walkBy_stopped {path : List NodeId} (k : Nat)
    (h : (g.walkBy step k c).1 = .ok (.stopped, path)) : (g.walkBy step k c).2.stopped = true := by
  induction k generalizing c with
  | zero => cases h
  | succ k ih =>
    rw [walkBy] at h ⊢
    by_cases hstopped : c.state.stopped = true
    · rw [if_pos hstopped]
      exact hstopped
    rw [if_neg hstopped] at h ⊢
    cases hnode : g.node? c.node with
    | none => simp [hnode] at h
    | some n =>
      rcases hstep : step n c.entry c.state with ⟨r, t⟩
      simp only [hnode, hstep] at h ⊢
      cases hafter : g.aftermath c n r t with
      | onward next pin =>
        simp only [hafter] at h ⊢
        exact ih h
      | ends out =>
        simp only [hafter] at h ⊢
        exact aftermath_stopped (h ▸ hafter)

/-- How a walk goes on after a step in which it has been asked to stop. -/
theorem aftermath_raised (hid : n.id = c.node) (ht : t.stopped = true) :
    (∃ out, g.aftermath c n r t = .ends out ∧ g.EndsIn c n r t out) ∨
      ∃ next pin, g.aftermath c n r t = .onward next pin ∧ n.isExit = false ∧
        g.StepFine n r t := by
  have hend : t.endStatus = .stopped := by rw [RunState.endStatus, ht]; rfl
  have herror : ∀ e, ¬ g.StepFine n r t → g.EndsIn c n r t (.error e) := fun e hnot =>
    ⟨fun _ _ h => (by cases h), fun _ _ h => (by cases h), ⟨fun ⟨_, h⟩ => (by cases h),
      fun h => absurd h hnot⟩⟩
  have hok : ∀ status, status = (if n.isExit then .completed else .stopped) → g.StepFine n r t →
      g.EndsIn c n r t (.ok (status, c.path ++ [c.node])) := by
    intro status hstatus hfine
    refine ⟨?_, ?_, iff_of_true ⟨_, rfl⟩ hfine⟩
    · rintro _ _ ⟨⟩
      rw [hid]
    · rintro _ _ ⟨⟩
      exact hstatus
  cases r with
  | error e => exact Or.inl ⟨_, rfl, herror e fun ⟨_, h, _⟩ => by cases h⟩
  | ok exit =>
    cases hexit : n.isExit with
    | true =>
      by_cases hstack : t.stack = []
      · refine Or.inl ⟨_, ?_, hok .completed (by simp [hexit]) ⟨exit, rfl, by simp [hexit, hstack]⟩⟩
        simp [aftermath, hexit, hstack]
      · refine Or.inl ⟨_, ?_, herror (.unterminated t.stack) ?_⟩
        · simp [aftermath, hexit, hstack]
        · rintro ⟨_, -, h⟩
          exact hstack (by simpa [hexit] using h)
    | false =>
      cases exit with
      | none =>
        refine Or.inl ⟨_, ?_, hok .stopped (by simp [hexit]) ⟨none, rfl, by simp [hexit]⟩⟩
        simp [aftermath, hexit, hend]
      | some p =>
        have hfine : ∀ next, g.follow c.node p = .ok next → g.StepFine n (.ok (some p)) t :=
          fun next h => ⟨some p, rfl, by simp [hexit, hid, h]⟩
        rcases hfollow : g.follow c.node p with e | _ | ⟨next, pin⟩
        · refine Or.inl ⟨_, ?_, herror e ?_⟩
          · simp [aftermath, hexit, hfollow]
          · rintro ⟨_, ⟨⟩, h⟩
            simp [hexit, hid, hfollow] at h
        · refine Or.inl ⟨_, ?_, hok .stopped (by simp [hexit]) (hfine _ hfollow)⟩
          simp [aftermath, hexit, hfollow, hend]
        · refine Or.inr ⟨next, pin, ?_, rfl, hfine _ hfollow⟩
          simp [aftermath, hexit, hfollow]

/-- **A walk ends where it is asked to stop.** It takes the step that it is in and no other. -/
theorem StopsIn.walkBy (h : g.StopsIn step c n r t) (k : Nat) :
    ∃ out, g.walkBy step (k + 2) c = (out, t) ∧ g.EndsIn c n r t out := by
  have hid : n.id = c.node := (node?_some h.node).2
  rw [Graph.walkBy]
  simp only [h.running, h.node, h.steps, Bool.false_eq_true, if_false]
  rcases aftermath_raised (g := g) (r := r) hid h.raised with
    ⟨out, hafter, hends⟩ | ⟨next, pin, hafter, hinner, hfine⟩
  · exact ⟨out, by rw [hafter], hends⟩
  · -- the next step is not taken
    refine ⟨.ok (.stopped, c.path ++ [c.node]), ?_, ?_, ?_, iff_of_true ⟨_, rfl⟩ hfine⟩
    · simp only [hafter]
      exact walkBy_of_stopped h.raised k
    · rintro _ _ ⟨⟩
      rw [hid]
    · rintro _ _ ⟨⟩
      simp [hinner]

/-- **Stopping from inside a run**, whatever the nodes do. A run that is asked to stop while flow is in a
node ends there: the state is the one that the step in this node leaves, and the status is stopped, or
completed if it is an exit node. A run that has been asked to stop before its first step takes none. A
run that is never asked to stop does not say that it was stopped. The runs of the program are such
runs. -/
theorem runBy_stopping (g : Graph) (start : NodeId) :
    (∀ mode s, g.runFrom mode start s = g.runBy (g.conduct mode) g.stepLimit start s) ∧
    ∀ (b : Conduct) (limit : Nat) (s : RunState), s.stack = [] → g.hasNode start = true →
      (∀ c n r t, g.Comes b.step ⟨g.opening b s, start, none, []⟩ c → g.StopsIn b.step c n r t →
        c.path.length + 1 < limit →
        ∃ out, g.runBy b limit start s = conclusion out t ∧ g.EndsIn c n r t out) ∧
      ((g.opening b s).stopped = true → 0 < limit →
        g.runBy b limit start s = conclusion (.ok (.stopped, [])) (g.opening b s)) ∧
      ∀ report, (g.runBy b limit start s).1 = .ok report → report.status = .stopped →
        (g.runBy b limit start s).2.stopped = true := by
  refine ⟨fun mode s => g.runFrom_eq_runBy mode start s, fun b limit s hs hstart => ⟨?_, ?_, ?_⟩⟩
  · intro c n r t hcomes hstops hlimit
    obtain ⟨j, hlength, hwalk⟩ := hcomes.walkBy_add
    simp only [List.length_nil, Nat.zero_add] at hlength
    obtain ⟨k, rfl⟩ : ∃ k, limit = k + 2 + j := ⟨limit - 2 - j, by omega⟩
    obtain ⟨out, hout, hends⟩ := hstops.walkBy k
    refine ⟨out, ?_, hends⟩
    rw [g.runBy_eq b _ hs hstart, hwalk, hout]
  · intro hraised hlimit
    obtain ⟨k, rfl⟩ := Nat.exists_eq_add_one_of_ne_zero (Nat.pos_iff_ne_zero.mp hlimit)
    rw [g.runBy_eq b _ hs hstart, walkBy_of_stopped hraised]
  · intro report hreport hstatus
    rw [g.runBy_eq b _ hs hstart] at hreport ⊢
    rcases hwalk : g.walkBy b.step limit ⟨g.opening b s, start, none, []⟩ with ⟨r, t⟩
    rw [hwalk] at hreport
    cases r with
    | error e => cases hreport
    | ok outcome =>
      obtain ⟨status, path⟩ := outcome
      obtain rfl := Except.ok.inj hreport
      obtain rfl : status = .stopped := hstatus
      have hstopped := walkBy_stopped (g := g) limit (congrArg Prod.fst hwalk)
      rw [hwalk] at hstopped
      exact hstopped

/-- A node that publishes a picture of one pixel and asks the run to stop. -/
def stopper : ScriptedType :=
  { info := ⟨"Stopper", 1, .internal, "Host"⟩, display := "Stopper", pins := []
    flowIn := none, flowOut := none, dataIn := [], dataOut := []
    script := [.set ⟨.output, "Out"⟩ (.frame (Frame.filled 1 1 1 5)), .stop], noteReset := false }

/-- Flow runs from a start node through a transition to an end node. The transition takes both pictures
from a node that asks the run to stop. -/
def stoppedPull (enabled : Bool) : Graph :=
  let nodes := [exampleNode 1 (.start ⟨Uuid.ofNat 11⟩),
    { exampleNode 2 (.transition (examplePins 20) .standard) with enabled },
    exampleNode 3 (.scripted stopper [] [.output ⟨Uuid.ofNat 31⟩ "Out" .frame]),
    exampleNode 4 (.finish ⟨⟨Uuid.ofNat 41⟩, ⟨Uuid.ofNat 42⟩⟩)]
  { name := "stopped pull", nodes, owners := indexOf nodes
    links := [exampleLink 61 1 11 2 20 true, exampleLink 62 2 24 4 41 true,
      exampleLink 63 3 31 2 21 false, exampleLink 64 3 31 2 22 false] }

/-- The transition of the example. -/
def stoppedPull.middle : Node := exampleNode 2 (.transition (examplePins 20) .standard)

/-- The points at which flow enters the start node of the example and the transition. -/
def stoppedPull.point : Bool → FlowPoint
  | false => ⟨.initial .empty, ⟨Uuid.ofNat 1⟩, none, []⟩
  | true =>
    ⟨((RunState.initial .empty).push ⟨Uuid.ofNat 1⟩).logged ⟨Uuid.ofNat 1⟩ |>.mark ⟨Uuid.ofNat 1⟩,
      ⟨Uuid.ofNat 2⟩, some ⟨Uuid.ofNat 20⟩, [⟨Uuid.ofNat 1⟩]⟩

theorem stoppedPull_comes : (stoppedPull true).Comes ((stoppedPull true).stepInto ⟨false, true⟩)
    (stoppedPull.point false) (stoppedPull.point true) := by
  refine .single (.onward (c := stoppedPull.point false)
    (n := exampleNode 1 (.start ⟨Uuid.ofNat 11⟩)) (r := .ok (some ⟨Uuid.ofNat 11⟩)) ?_ ?_
    (Prod.ext ?_ ?_) ?_)
  all_goals decide +kernel

theorem stoppedPull_asked : ∃ t, (stoppedPull true).StopsIn
    ((stoppedPull true).stepInto ⟨false, true⟩) (stoppedPull.point true) stoppedPull.middle
    (.ok (some ⟨Uuid.ofNat 24⟩)) t := by
  refine ⟨((stoppedPull true).stepInto ⟨false, true⟩ stoppedPull.middle
    (stoppedPull.point true).entry (stoppedPull.point true).state).2, ?_, ?_, Prod.ext ?_ (by dsimp only), ?_⟩
  all_goals decide +kernel

/-- Flow gets to the transition, whose data is not there before the run has been asked to stop, and no
further. -/
theorem stoppedPull_stops : ∃ report,
    ((stoppedPull true).runFrom ⟨false, true⟩ ⟨Uuid.ofNat 1⟩ (.initial .empty)).1 = .ok report ∧
      report.path = [⟨Uuid.ofNat 1⟩, ⟨Uuid.ofNat 2⟩] ∧ report.status = .stopped := by
  obtain ⟨hprogram, hruns⟩ := runBy_stopping (stoppedPull true) ⟨Uuid.ofNat 1⟩
  obtain ⟨hstops, -, -⟩ := hruns ((stoppedPull true).conduct ⟨false, true⟩)
    (stoppedPull true).stepLimit (.initial .empty) rfl (by decide +kernel)
  obtain ⟨t, hasked⟩ := stoppedPull_asked
  have hlimit : (stoppedPull.point true).path.length + 1 < (stoppedPull true).stepLimit := by
    have hlength : (stoppedPull.point true).path.length = 1 := rfl
    rw [hlength, stepLimit, extraSteps]
    omega
  obtain ⟨out, hrun, hends⟩ := hstops _ _ _ _ stoppedPull_comes hasked hlimit
  have hfine : (stoppedPull true).StepFine stoppedPull.middle (.ok (some ⟨Uuid.ofNat 24⟩)) t := by
    refine ⟨_, rfl, ?_⟩
    rintro p ⟨⟩
    exact ⟨some (⟨Uuid.ofNat 4⟩, ⟨Uuid.ofNat 41⟩), by decide +kernel⟩
  obtain ⟨⟨status, path⟩, rfl⟩ := hends.fails.mpr hfine
  rw [hprogram, hrun]
  exact ⟨_, rfl, hends.path status path rfl, hends.status status path rfl⟩

end Graph

end Patchbay
