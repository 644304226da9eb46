import Patchbay.Proofs.Run.Routine
import Patchbay.Proofs.Run.Stopping

/-!
# Where kept exits come from

The runs of the program are runs in which every node performs a routine (`Graph.runFrom_eq_behaviour`), and so
are those over any other node types (`Behaviour`). An execution of a node sets off others by asking for pins
(`Graph.Calls`).

**`Graph.kept_called`** says that executing a node leaves no exits but those that were kept before and those
given by executions that it has set off, at whatever remove.
-/

namespace Patchbay

open Patchbay.Action RunM

/-- What the nodes of a graph do, of whatever types they are. -/
structure Behaviour where
  /-- What a node does to the state when a run starts. -/
  reset : Node → RunState → RunState
  reset_forgets : ∀ n s, Forgets s (reset n s)
  /-- What a node does when it is executed, for flow that enters it through the pin given or for its data. -/
  execute : Node → Option PinId → Routine (Option PinId)

namespace Graph

variable (g : Graph) (b : Behaviour)

/-! ## Runs over a behaviour -/

/-- The value of a pin, executing nodes nested at most so deep. -/
def pullBy : Nat → Pin → RunM Value
  | 0 => g.pullWith fun _ => throw .endless
  | depth + 1 => g.pullWith fun n => (b.execute n none).perform (pullBy depth)

/-- Enters a node through flow and gives its exit: the one that was kept for it, or the one that executing it
gives now. -/
def stepBy (depth : Nat) (node : Node) (entry : Option PinId) : RunM (Option PinId) := do
  enter node.id
  let exit ←
    match (← get).pulledExits.get? node.id with
    | some exit => do
      if node.isExit then clearStack
      pure exit
    | none => (b.execute node entry).perform (g.pullBy b depth)
  markExecuted node.id
  return exit

/-- Steps over a behaviour, as a conduct of nodes. -/
def conductBy (depth : Nat) : Conduct where
  reset := b.reset
  step := g.stepBy b depth

/-! ## The program's runs -/

section Program

variable (mode : RunMode)

/-- What the nodes of the program do. -/
noncomputable def behaviour : Behaviour where
  reset n s := (n.reset s).2
  reset_forgets n s := by
    refine .of_eq ?_
    rw [Node.reset]
    cases n.body with
    | scripted t ins outs =>
      dsimp only
      cases t.noteReset <;> rfl
    | _ => rfl
  execute n entry := (n.execute_isRoutine g mode entry).choose

theorem execute_eq_perform (n : Node) (entry : Option PinId) (pull : Pin → RunM Value) :
    n.execute g mode pull entry = ((g.behaviour mode).execute n entry).perform pull :=
  (n.execute_isRoutine g mode entry).choose_spec pull

theorem pull_eq_pullBy (depth : Nat) : g.pull mode depth = g.pullBy (g.behaviour mode) depth := by
  induction depth with
  | zero => rfl
  | succ depth ih =>
    rw [pull, pullBy]
    simp only [execute_eq_perform, ih]

theorem conduct_eq_conductBy : g.conduct mode = g.conductBy (g.behaviour mode) g.pullDepth := by
  have hstep : g.stepInto mode = g.stepBy (g.behaviour mode) g.pullDepth := by
    funext n entry
    have hexecute : g.executeNode mode n entry =
        ((g.behaviour mode).execute n entry).perform (g.pullBy (g.behaviour mode) g.pullDepth) := by
      rw [executeNode, pull_eq_pullBy, execute_eq_perform]
    rw [stepBy, ← hexecute]
    rfl
  exact congrArg (Conduct.mk fun n s => (n.reset s).2) hstep

/-- **The runs of the program** are runs over what its nodes do. -/
theorem runFrom_eq_behaviour (start : NodeId) (s : RunState) : g.runFrom mode start s =
    g.runBy (g.conductBy (g.behaviour mode) g.pullDepth) g.stepLimit start s := by
  rw [runFrom_eq_runBy, conduct_eq_conductBy]

end Program

/-! ## Executions -/

end Graph

/-- An execution of a node. -/
structure Execution where
  node : Node
  /-- The pin through which flow has entered it; none if it is executed for its data. -/
  entry : Option PinId
  /-- How deep the pins that it asks for may nest. -/
  depth : Nat
  /-- The state in which it begins. -/
  state : RunState

namespace Graph

/-- Asking for pin `p` in state `s` has node `n` executed: it owns the source of the pin, whose value has not
been published, and has been neither executed nor entered. -/
structure Needs (g : Graph) (s : RunState) (p : Pin) (n : Node) : Prop where
  source : ∃ i, g.sourceOf? p = some i ∧ s.cache.get? i = none ∧ g.owner? i = some n.id
  found : g.node? n.id = some n
  unexecuted : n.id ∉ s.executed
  idle : n.id ∉ s.stack

variable (g : Graph) (b : Behaviour)

/-- What an execution comes to. -/
def outcomeOf (e : Execution) : Except RunError (Option PinId) × RunState :=
  (b.execute e.node e.entry).perform (g.pullBy b e.depth) e.state

/-- The first execution sets off the second one: it asks for a pin that needs the other node. -/
inductive Calls (e : Execution) : Execution → Prop
  | data {depth : Nat} {p : Pin} {s : RunState} {n : Node} (depth_eq : e.depth = depth + 1)
      (asks : (b.execute e.node e.entry).Asks (g.pullBy b e.depth) e.state p s)
      (needs : g.Needs s p n) : Calls e ⟨n, none, depth, s.push n.id⟩

/-- The execution has had node `n` executed for its data, at whatever remove, and this gave the exit. -/
def Called (e : Execution) (n : NodeId) (exit : Option PinId) : Prop :=
  ∃ e', Relation.TransGen (g.Calls b) e e' ∧ e'.node.id = n ∧ (g.outcomeOf b e').1 = .ok exit

variable {g b}

/-- Leaving a node and recording it as executed leaves the kept exits alone. -/
theorem ended_pulledExits (s : RunState) (n : NodeId) : (s.ended n).pulledExits = s.pulledExits := by
  rw [RunState.ended, RunState.mark, RunState.pop]
  split_ifs <;> rfl

/-- Executing a node for its data leaves the exits that this leaves, and the one given. -/
theorem executeUpstream_exits (execute : Node → RunM (Option PinId)) {i : NodeId} {s : RunState} :
    (g.executeUpstream execute i s).2.pulledExits = s.pulledExits ∨
      ∃ n, n.id = i ∧ g.node? n.id = some n ∧ n.id ∉ s.stack ∧
        ∀ m exit, (g.executeUpstream execute i s).2.pulledExits.get? m = some exit →
          (execute n (s.push n.id)).2.pulledExits.get? m = some exit ∨
            m = n.id ∧ (execute n (s.push n.id)).1 = .ok exit := by
  cases hnode : g.node? i with
  | none => exact .inl (by simp [executeUpstream, hnode])
  | some n =>
    obtain ⟨-, rfl⟩ := node?_some hnode
    by_cases hidle : n.id ∈ s.stack
    · refine .inl ?_
      simp only [executeUpstream, hnode]
      rw [bind_error (enter_of_mem n.id s hidle)]
    · refine .inr ⟨n, rfl, hnode, hidle, fun m exit hexit => ?_⟩
      rw [executeUpstream_of_found execute hnode hidle] at hexit
      rcases hexecute : execute n (s.push n.id) with ⟨r, t⟩
      rw [hexecute] at hexit
      cases r with
      | error e => exact .inl (ended_pulledExits t n.id ▸ hexit)
      | ok kept =>
        simp only [RunState.keepExit, Table.get?_set, ended_pulledExits] at hexit
        split_ifs at hexit with hm
        · exact .inr ⟨hm.symm, congrArg Except.ok (Option.some.inj hexit)⟩
        · exact .inl hexit

/-- Asking for a pin leaves the kept exits alone, unless it has a node executed: then it leaves what that
leaves, and the exit given. -/
theorem pullWith_exits (execute : Node → RunM (Option PinId)) (p : Pin) (s : RunState) :
    (g.pullWith execute p s).2.pulledExits = s.pulledExits ∨
      ∃ n, g.Needs s p n ∧ ∀ m exit, (g.pullWith execute p s).2.pulledExits.get? m = some exit →
        (execute n (s.push n.id)).2.pulledExits.get? m = some exit ∨
          m = n.id ∧ (execute n (s.push n.id)).1 = .ok exit := by
  rw [pullWith]
  cases hsource : g.sourceOf? p with
  | none => exact .inl rfl
  | some i =>
    simp only [get_bind_apply]
    cases hcache : s.cache.get? i with
    | some v => exact .inl rfl
    | none =>
      cases hpin : g.pin? i with
      | none => exact .inl rfl
      | some q =>
        cases howner : g.owner? i with
        | none => exact .inl rfl
        | some owner =>
          simp only [get_bind_apply, List.contains_iff_mem]
          split_ifs with hexecuted
          · exact .inl rfl
          have hstate : ∀ f : Unit → RunM Value, (∀ t, (f () t).2 = t) →
              ((g.executeUpstream execute owner >>= f) s).2 =
                (g.executeUpstream execute owner s).2 := by
            intro f hf
            rcases hup : g.executeUpstream execute owner s with ⟨r, t⟩
            cases r with
            | error e => rw [bind_error hup]
            | ok _ => rw [bind_ok hup, hf]
          rw [hstate _ fun _ => rfl]
          refine (g.executeUpstream_exits execute).imp_right ?_
          rintro ⟨n, rfl, hfound, hidle, hexits⟩
          exact ⟨n, ⟨⟨i, hsource, hcache, howner⟩, hfound, hexecuted, hidle⟩, hexits⟩

section Kept

variable (e : Execution) {n : NodeId} {exit : Option PinId}
  (h : (g.outcomeOf b e).2.pulledExits.get? n = some exit)
include h

/-- What holds of the exits that each pin asked for leaves holds of those that the execution leaves. -/
theorem kept_of_pulls (hpull : ∀ p s, (b.execute e.node e.entry).Asks (g.pullBy b e.depth) e.state p s →
      ∀ m x, (g.pullBy b e.depth p s).2.pulledExits.get? m = some x →
        s.pulledExits.get? m = some x ∨ g.Called b e m x) :
    e.state.pulledExits.get? n = some exit ∨ g.Called b e n exit := by
  have hkept : ∀ m x, (g.outcomeOf b e).2.pulledExits.get? m = some x →
      e.state.pulledExits.get? m = some x ∨ g.Called b e m x := by
    refine Routine.perform_keeps (P := fun s => ∀ m x, s.pulledExits.get? m = some x →
      e.state.pulledExits.get? m = some x ∨ g.Called b e m x) ?_ _ (fun m x hx => .inl hx) ?_
    · exact fun hforgets hs m x hx => hs m x (hforgets m x hx)
    · exact fun p s hasks hs m x hx => (hpull p s hasks m x hx).elim (hs m x) .inr
  exact hkept n exit h

/-- **Exits are kept for executions that have been set off.** An exit that is kept after an execution was kept
before, or given by an execution that it has set off. -/
theorem kept_called : e.state.pulledExits.get? n = some exit ∨ g.Called b e n exit := by
  induction hdepth : e.depth generalizing e n exit with
  | zero =>
    refine kept_of_pulls e h fun p s _ m x hx => .inl ?_
    rw [hdepth, pullBy] at hx
    rcases pullWith_exits _ p s with heq | ⟨k, -, hexits⟩
    · exact heq ▸ hx
    · -- no node is executed any deeper
      rcases hexits m x hx with hbefore | ⟨-, ⟨⟩⟩
      exact hbefore
  | succ depth ih =>
    refine kept_of_pulls e h fun p s hasks m x hx => ?_
    rw [hdepth, pullBy] at hx
    rcases pullWith_exits _ p s with heq | ⟨k, hneeds, hexits⟩
    · exact .inl (heq ▸ hx)
    have hcalls : g.Calls b e ⟨k, none, depth, s.push k.id⟩ := .data hdepth hasks hneeds
    rcases hexits m x hx with hbefore | ⟨rfl, hgave⟩
    · refine (ih ⟨k, none, depth, s.push k.id⟩ hbefore rfl).imp_right ?_
      rintro ⟨e', hcalled, hnode, hgave⟩
      exact ⟨e', .head hcalls hcalled, hnode, hgave⟩
    · exact .inr ⟨_, .single hcalls, rfl, hgave⟩

end Kept

end Graph

end Patchbay
