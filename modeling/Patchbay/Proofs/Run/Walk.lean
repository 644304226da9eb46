import Patchbay.Proofs.Run.Orderly

/-!
# Following flow

A walk goes from point to point: a `FlowPoint` is the state of a run together with the node that flow
is about to step into and the nodes it has stepped into before. `Graph.next?` is one step of
`Graph.walk`; what the walk comes to where it does not go on is `FlowPoint.Ends`.

`FlowPoint.Sound` is the invariant of walks. The call stack is exactly the path, and each node of the
path has been executed; so no node of a path is entered again, and the bound on the number of steps
is never felt (`Graph.walk_ends`). `Graph.runFrom_spec` says what this means for runs.
-/

namespace Patchbay

open Patchbay.Action RunM

/-- A point of a walk. -/
structure FlowPoint where
  /-- The state of the run. -/
  state : RunState
  /-- The node that flow is about to step into. -/
  node : NodeId
  /-- The pin through which it does. -/
  entry : Option PinId
  /-- The nodes stepped into before, in order. -/
  path : List NodeId

namespace Graph

/-- Flow links join one node to another. -/
def FlowLink (g : Graph) (n m : NodeId) : Prop :=
  ∃ l ∈ g.links, l.flow = true ∧ l.fromNode = n ∧ l.toNode = m

/-- Entering a node through flow. A node that has been executed for its data is not executed
again. -/
inductive Enters (g : Graph) (n : Node) (s : RunState) :
    Except RunError (Option PinId) → RunState → Prop
  /-- The node is on the path already. -/
  | busy (mem : n.id ∈ s.stack) : Enters g n s (.error (.cyclic n.id s.stack)) s
  /-- The node goes on through the exit that was kept for it. -/
  | again {exit : Option PinId} (idle : n.id ∉ s.stack)
      (kept : s.pulledExits.get? n.id = some exit) :
      Enters g n s (.ok exit) ((s.push n.id).mark n.id)
  /-- Executing the node fails. -/
  | failing {t : RunState} {e : RunError} (idle : n.id ∉ s.stack)
      (new : s.pulledExits.get? n.id = none) (executes : g.Executes n (s.push n.id) (.error e) t) :
      Enters g n s (.error e) t
  /-- The node is executed. -/
  | executing {t : RunState} {exit : Option PinId} (idle : n.id ∉ s.stack)
      (new : s.pulledExits.get? n.id = none) (executes : g.Executes n (s.push n.id) (.ok exit) t) :
      Enters g n s (.ok exit) (t.mark n.id)

/-- The point that flow goes on to, if it goes on. -/
def next? (g : Graph) (mode : RunMode) (c : FlowPoint) : Option FlowPoint :=
  if c.state.stopped then none
  else match g.node? c.node with
    | none => none
    | some n =>
      match g.stepInto mode n c.entry c.state with
      | (.ok (some p), t) =>
        if n.isExit then none
        else match g.follow c.node p with
          | .ok (some (m, pin)) => some ⟨t, m, some pin, c.path ++ [c.node]⟩
          | _ => none
      | _ => none

/-- Flow gets from one point to another. -/
def Reached (g : Graph) (mode : RunMode) : FlowPoint → FlowPoint → Prop :=
  Relation.ReflTransGen fun c d => g.next? mode c = some d

end Graph

namespace FlowPoint

/-- The invariant of walks. -/
structure Sound (g : Graph) (c : FlowPoint) : Prop where
  orderly : g.Orderly c.state
  present : c.node ∈ g.nodeIds
  /-- Between steps, the call stack holds the path and nothing else. -/
  stack : c.state.stack = c.path
  /-- The nodes of the path have done their work. -/
  executed : c.path ⊆ c.state.executed
  /-- Any other node that has been executed was executed for its data. -/
  kept : ∀ n ∈ c.state.executed, n ∈ c.path ∨ (c.state.pulledExits.get? n).isSome
  /-- The path follows flow links. -/
  chain : List.IsChain g.FlowLink (c.path ++ [c.node])

/-- Flow steps into the node of a point and on to another one. -/
inductive Goes (g : Graph) (c : FlowPoint) : FlowPoint → Prop
  | onward {n : Node} {t : RunState} {p : PinId} {l : Link} (mem : n ∈ g.nodes)
      (id : n.id = c.node) (inner : n.isExit = false) (running : c.state.stopped = false)
      (enters : g.Enters n c.state (.ok (some p)) t) (first : (g.linksFrom p).head? = some l) :
      Goes g c ⟨t, l.toNode, some l.toPin, c.path ++ [c.node]⟩

/-- What a walk comes to at a point where it does not go on. -/
inductive Ends (g : Graph) (c : FlowPoint) :
    Except RunError (RunStatus × List NodeId) → RunState → Prop
  /-- The run has been asked to stop. -/
  | stopped (raised : c.state.stopped = true) : Ends g c (.ok (.stopped, c.path)) c.state
  /-- The node cannot be entered. -/
  | failed {n : Node} {t : RunState} {e : RunError} (mem : n ∈ g.nodes) (id : n.id = c.node)
      (running : c.state.stopped = false) (enters : g.Enters n c.state (.error e) t) :
      Ends g c (.error e) t
  /-- The node is an end node. -/
  | completed {n : Node} {t : RunState} {exit : Option PinId} (mem : n ∈ g.nodes)
      (id : n.id = c.node) (outer : n.isExit = true) (running : c.state.stopped = false)
      (enters : g.Enters n c.state (.ok exit) t) :
      Ends g c (.ok (.completed, c.path ++ [c.node])) t
  /-- The node gives no exit, or one that leads nowhere. -/
  | halted {n : Node} {t : RunState} {exit : Option PinId} (mem : n ∈ g.nodes)
      (id : n.id = c.node) (inner : n.isExit = false) (running : c.state.stopped = false)
      (enters : g.Enters n c.state (.ok exit) t)
      (nowhere : ∀ p, exit = some p → (g.linksFrom p).head? = none) :
      Ends g c (.ok (.halted, c.path ++ [c.node])) t

end FlowPoint

namespace Graph

variable {g : Graph} (hg : g.WellFormed) (hb : g.IsBuiltin) (mode : RunMode)

/-! ## One step -/

section Enters

variable {s t : RunState} {n : Node} (hs : g.Orderly s) (hn : n ∈ g.nodes)
include hg hb hs hn

/-- Entering a node through flow comes to an end. -/
theorem stepInto_enters (hkept : ∀ m ∈ s.executed, m ∈ s.stack ∨ (s.pulledExits.get? m).isSome)
    (entry : Option PinId) :
    ∃ r t, g.stepInto mode n entry s = (r, t) ∧ g.Enters n s r t := by
  rw [stepInto]
  by_cases hidle : n.id ∈ s.stack
  · exact ⟨_, s, bind_error (enter_of_mem n.id s hidle), .busy hidle⟩
  rw [bind_ok (enter_of_not_mem n.id s hidle), get_bind_apply]
  cases hexit : s.pulledExits.get? n.id with
  | some exit =>
    have hinner := (hs.exits_accounted n hn exit hexit).1
    have hpush : (s.push n.id).pulledExits.get? n.id = some exit := hexit
    refine ⟨.ok exit, _, ?_, .again hidle hexit⟩
    simp only [hpush, hinner]
    rfl
  | none =>
    have hpush : (s.push n.id).pulledExits.get? n.id = none := hexit
    have hdue : g.Due s n := ⟨hn, hidle, fun hex => by
      rcases hkept n.id hex with hmem | hsome
      · exact hidle hmem
      · simp [hexit] at hsome⟩
    have hlen : g.nodes.length ≤ (s.begun n.id).stack.length + g.pullDepth := by
      rw [pullDepth]
      omega
    obtain ⟨r, u, hr, hpulls⟩ := mapM_pull hg hb mode g.pullDepth (s.begun n.id) n.reads
      (reads_subset_pins hn) (hs.begun hdue).stack_nodup (hs.begun hdue).stack_subset hlen
    obtain ⟨r', t, ht, hexecutes⟩ := executes_of_pulls hb mode entry hn hr hpulls
    simp only [hpush]
    cases r' with
    | error e => exact ⟨.error e, t, bind_error ht, .failing hidle hexit hexecutes⟩
    | ok exit =>
      refine ⟨.ok exit, t.mark n.id, ?_, .executing hidle hexit hexecutes⟩
      rw [bind_ok (show g.executeNode mode n entry (s.push n.id) = (.ok exit, t) from ht)]
      rfl

end Enters

end Graph

namespace FlowPoint

/-- What holds once flow has entered node `n` at point `c`. -/
structure Entered (g : Graph) (c : FlowPoint) (n : Node) (exit : Option PinId) (t : RunState) :
    Prop where
  /-- The node is new to the path. -/
  new : n.id ∉ c.path
  stack : t.stack = if n.isExit then [] else c.path ++ [n.id]
  stopped : t.stopped = c.state.stopped
  executed : c.path ++ [n.id] ⊆ t.executed
  kept : ∀ m ∈ t.executed, m ∈ c.path ++ [n.id] ∨ (t.pulledExits.get? m).isSome
  mayExit : n.MayExit exit
  orderly : g.Orderly t

namespace Sound

variable {g : Graph} (hg : g.WellFormed) (hb : g.IsBuiltin) {c d : FlowPoint} (hc : c.Sound g)
  {n : Node} (hn : n ∈ g.nodes) {t : RunState}
include hc

/-- At a sound point, the call stack and the kept exits account for all nodes executed so far. -/
theorem accounted : ∀ m ∈ c.state.executed,
    m ∈ c.state.stack ∨ (c.state.pulledExits.get? m).isSome :=
  fun m hm => (hc.kept m hm).imp_left fun hpath => hc.stack.symm ▸ hpath

include hn

/-- A node that is not on the path and has no exit kept is due. -/
theorem due (hidle : n.id ∉ c.state.stack) (hnew : c.state.pulledExits.get? n.id = none) :
    g.Due c.state n := by
  refine ⟨hn, hidle, fun hex => ?_⟩
  rcases hc.accounted n.id hex with hmem | hsome
  · exact hidle hmem
  · simp [hnew] at hsome

include hg hb

/-- Entering a node at a sound point. -/
theorem entered {exit : Option PinId} (h : g.Enters n c.state (.ok exit) t) :
    c.Entered g n exit t := by
  cases h with
  | again hidle hkept =>
    obtain ⟨hinner, hmay, hex⟩ := hc.orderly.exits_accounted n hn exit hkept
    have hmark : (c.state.push n.id).mark n.id = c.state.push n.id := by
      simp [RunState.mark, RunState.push, hex]
    rw [hmark]
    refine ⟨hc.stack ▸ hidle, ?_, rfl, ?_, fun m hm => ?_, hmay, hc.orderly.push hn hidle⟩
    · simp [hinner, RunState.push, hc.stack]
    · exact List.append_subset.mpr
        ⟨hc.executed, List.cons_subset.mpr ⟨hex, List.nil_subset _⟩⟩
    · exact (hc.kept m hm).imp_left (List.mem_append_left _)
  | @executing t _ hidle hnew hexecutes =>
    have hdue := hc.due hn hidle hnew
    obtain ⟨u, hu, hbusy, hgrows, hconcludes, hmay, hkept⟩ :=
      hexecutes.spec hg hb hc.orderly hdue
    have hfresh : n.id ∉ t.executed := hconcludes.executed.symm ▸ hbusy.fresh
    have hgrow : c.state.executed ⊆ t.executed :=
      hconcludes.executed.symm ▸ hgrows.executed.subset
    have hpath : c.state.stack ⊆ u.executed :=
      hc.stack ▸ List.Subset.trans hc.executed hgrows.executed.subset
    have horderly : g.Orderly (t.mark n.id) := hu.conclude hbusy (fun _ => hpath) hconcludes
    rw [RunState.mark_eq hfresh] at horderly ⊢
    refine ⟨hc.stack ▸ hidle, ?_, hconcludes.stopped.trans hgrows.stopped, ?_, fun m hm => ?_, hmay,
      horderly⟩
    · simp only [hconcludes.stack, hbusy.stack, hc.stack]
    · exact List.append_subset.mpr ⟨fun m hm => List.mem_append_left _ (hgrow (hc.executed hm)),
        List.subset_append_right _ _⟩
    · rcases List.mem_append.mp hm with hm | hm
      · rcases hkept m (hconcludes.executed ▸ hm) with hm | hsome
        · rcases hc.kept m hm with hpath | hsome
          · exact Or.inl (List.mem_append_left _ hpath)
          · refine Or.inr ?_
            rw [hconcludes.pulledExits]
            exact hgrows.pulled m hsome
        · exact Or.inr (hconcludes.pulledExits.symm ▸ hsome)
      · exact Or.inl (List.mem_append_right _ hm)

end Sound

end FlowPoint

namespace Graph

variable {g : Graph} (hg : g.WellFormed) (hb : g.IsBuiltin) (mode : RunMode)

include hg in
/-- Links that leave a flow pin of a node are flow links that leave the node. -/
theorem flowLink_of_linksFrom {n : Node} (hn : n ∈ g.nodes) {pin : Pin} (hpin : pin ∈ n.pins)
    (hflow : pin.isFlow = true) {l : Link} (hl : l ∈ g.linksFrom pin.id) : g.FlowLink n.id l.toNode := by
  obtain ⟨hmem, hfrom, a, b, p, q, hj⟩ := hg.linksFrom_joins hl
  have hpp : p.id = pin.id := hj.fromPin.symm.trans hfrom
  obtain ⟨rfl, rfl⟩ := hg.eq_of_pin hj.source hn hj.owns_source hpin hpp
  refine ⟨l, hmem, ?_, hj.fromNode, rfl⟩
  have htypes := hj.types
  rw [hj.flow, hflow]
  rw [Pin.isFlow] at hflow ⊢
  simp only [PinType.connectsTo, hflow, Bool.true_or, if_true, Bool.true_and] at htypes ⊢
  exact htypes

section Exits

variable {n : Node} (hn : n ∈ g.nodes) {p : PinId} (hmay : n.MayExit (some p))
include hg hn hmay

/-- A node may answer with an exit of its own, and flow can follow it. -/
theorem follow_of_mayExit (hb : g.IsBuiltin) :
    g.follow n.id p = .ok ((g.linksFrom p).head?.map fun l => (l.toNode, l.toPin)) := by
  obtain ⟨pin, hpin, rfl, hflow⟩ := hmay p rfl
  have hmem : pin ∈ n.pins := List.mem_append_right _ hpin
  rw [follow]
  rw [hg.pin?_of_mem hn hmem]
  exact if_pos ⟨hg.owner?_of_mem hn hmem, hflow, Node.direction_of_mem_outputs (hb n hn) hpin⟩

/-- The first link of an exit is a flow link that leaves the node. -/
theorem flowLink_of_mayExit {l : Link} (hl : (g.linksFrom p).head? = some l) :
    g.FlowLink n.id l.toNode := by
  obtain ⟨pin, hpin, rfl, hflow⟩ := hmay p rfl
  exact flowLink_of_linksFrom hg hn (List.mem_append_right _ hpin) hflow (List.mem_of_mem_head? hl)

end Exits

include hg hb

/-- **One step of flow.** At a sound point the walk comes to an end or goes on to another point. -/
theorem walk_step {c : FlowPoint} (hc : c.Sound g) :
    (∃ r t, g.next? mode c = none ∧ c.Ends g r t ∧
        ∀ k, g.walk mode (k + 1) c.node c.entry c.path c.state = (r, t)) ∨
      ∃ d, g.next? mode c = some d ∧ c.Goes g d ∧
        ∀ k, g.walk mode (k + 1) c.node c.entry c.path c.state =
          g.walk mode k d.node d.entry d.path d.state := by
  obtain ⟨n, hn, hid⟩ := mem_nodeIds.mp hc.present
  have hnode : g.node? c.node = some n := hid ▸ hg.node?_of_mem hn
  cases hstopped : c.state.stopped with
  | true =>
    refine Or.inl ⟨_, _, by simp [next?, hstopped], .stopped hstopped, fun k => ?_⟩
    simp [walk, hstopped]
  | false =>
    obtain ⟨r, t, hstep, henters⟩ :=
      stepInto_enters hg hb mode hc.orderly hn hc.accounted c.entry
    cases r with
    | error e =>
      refine Or.inl ⟨.error e, t, ?_, .failed hn hid hstopped henters, fun k => ?_⟩
      · simp [next?, hstopped, hnode, hstep]
      · simp only [walk, get_bind_apply, hstopped, hnode]
        exact bind_error hstep
    | ok exit =>
      have hentered := hc.entered hg hb hn henters
      cases hexit : n.isExit with
      | true =>
        refine Or.inl ⟨_, t, ?_, .completed hn hid hexit hstopped henters, fun k => ?_⟩
        · cases exit <;> simp [next?, hstopped, hnode, hstep, hexit]
        · simp only [walk, get_bind_apply, hstopped, hnode]
          refine (bind_ok hstep).trans ?_
          simp [hexit, hentered.stack]
      | false =>
        have hrunning : t.stopped = false := hentered.stopped.trans hstopped
        cases exit with
        | none =>
          have hnowhere : ∀ p, none = some p → (g.linksFrom p).head? = none := by simp
          refine Or.inl ⟨_, t, ?_, .halted hn hid hexit hstopped henters hnowhere, fun k => ?_⟩
          · simp [next?, hstopped, hnode, hstep]
          · simp only [walk, get_bind_apply, hstopped, hnode]
            refine (bind_ok hstep).trans ?_
            simp [hexit, endOfFlow, hrunning]
        | some p =>
          have hfollow := follow_of_mayExit hg hn hentered.mayExit hb
          rw [hid] at hfollow
          cases hhead : (g.linksFrom p).head? with
          | none =>
            have hnowhere : ∀ q, some p = some q → (g.linksFrom q).head? = none := by
              rintro q ⟨⟩
              exact hhead
            refine Or.inl ⟨_, t, ?_, .halted hn hid hexit hstopped henters hnowhere, fun k => ?_⟩
            · simp [next?, hstopped, hnode, hstep, hexit, hfollow, hhead]
            · simp only [walk, get_bind_apply, hstopped, hnode]
              refine (bind_ok hstep).trans ?_
              simp [hexit, hfollow, hhead, endOfFlow, hrunning]
          | some l =>
            refine Or.inr ⟨_, ?_, .onward hn hid hexit hstopped henters hhead, fun k => ?_⟩
            · simp [next?, hstopped, hnode, hstep, hexit, hfollow, hhead]
            · simp only [walk, get_bind_apply, hstopped, hnode]
              refine (bind_ok hstep).trans ?_
              simp [hexit, hfollow, hhead]

end Graph

/-- A chain grows at its end by a related element. -/
theorem isChain_concat {α : Type} {R : α → α → Prop} {xs : List α} {a b : α}
    (h : List.IsChain R (xs ++ [a])) (hab : R a b) : List.IsChain R (xs ++ [a] ++ [b]) := by
  refine h.append (List.isChain_singleton b) fun x hx y hy => ?_
  simp only [List.getLast?_append, List.getLast?_singleton, Option.some_or, Option.mem_def,
    Option.some.injEq, List.head?_cons] at hx hy
  exact hx ▸ hy ▸ hab

namespace FlowPoint

variable {g : Graph} (hg : g.WellFormed) (hb : g.IsBuiltin) {mode : RunMode} {c d : FlowPoint}

/-- A walk begins at a sound point. -/
theorem sound_begin {s : RunState} (hs : s.stack = []) {start : NodeId}
    (hstart : start ∈ g.nodeIds) : Sound g ⟨s.begin, start, none, []⟩ where
  orderly := Graph.orderly_begin g hs
  present := hstart
  stack := hs
  executed := List.nil_subset _
  kept _ hn := by simp [RunState.begin] at hn
  chain := List.isChain_singleton start

/-- No path is longer than there are nodes. -/
theorem Sound.length_path_le (hc : c.Sound g) : c.path.length ≤ g.nodes.length := by
  have hsub : c.path.Subperm g.nodeIds :=
    (hc.stack ▸ hc.orderly.stack_nodup).subperm (hc.stack ▸ hc.orderly.stack_subset)
  simpa [Graph.nodeIds] using hsub.length_le

include hg hb

/-- **Steps keep points sound.** -/
theorem Goes.sound (h : c.Goes g d) (hc : c.Sound g) : d.Sound g := by
  cases h with
  | @onward n t p l hn hid hinner hrunning henters hfirst =>
    have hentered := hc.entered hg hb hn henters
    have hlink : g.FlowLink c.node l.toNode :=
      hid ▸ Graph.flowLink_of_mayExit hg hn hentered.mayExit hfirst
    obtain ⟨-, -, a, b, q, q', hj⟩ := hg.linksFrom_joins (List.mem_of_mem_head? hfirst)
    refine ⟨hentered.orderly, Graph.mem_nodeIds.mpr ⟨b, hj.target, hj.toNode.symm⟩, ?_,
      hid ▸ hentered.executed, hid ▸ hentered.kept, isChain_concat hc.chain hlink⟩
    simpa [hinner, hid] using hentered.stack

/-- The next point is the one that flow goes on to. -/
theorem goes_of_next? (hc : c.Sound g) (h : g.next? mode c = some d) : c.Goes g d := by
  rcases Graph.walk_step hg hb mode hc with ⟨r, t, hnone, -, -⟩ | ⟨d', hsome, hgoes, -⟩
  · rw [hnone] at h
    cases h
  · rw [hsome] at h
    exact Option.some.inj h ▸ hgoes

/-- **Every point that flow reaches from a sound point is sound.** -/
theorem sound_of_reached (h : g.Reached mode c d) (hc : c.Sound g) : d.Sound g := by
  induction h with
  | refl => exact hc
  | tail _ hstep ih => exact (goes_of_next? hg hb ih hstep).sound hg hb ih

/-- What entering nodes keeps, walking keeps. -/
theorem invariant_of_reached {I : RunState → Prop}
    (enter : ∀ (c : FlowPoint) n exit t, c.Sound g → n ∈ g.nodes → I c.state →
      g.Enters n c.state (.ok exit) t → I t)
    (h : g.Reached mode c d) (hc : c.Sound g) (hI : I c.state) : I d.state := by
  induction h with
  | refl => exact hI
  | tail hreached hstep ih =>
    have hsound := sound_of_reached hg hb hreached hc
    cases goes_of_next? hg hb hsound hstep with
    | onward hn _ _ _ henters _ => exact enter _ _ _ _ hsound hn ih henters

end FlowPoint

namespace Graph

variable {g : Graph} {mode : RunMode} {c : FlowPoint}

/-! ## Whole runs -/

/-- **A walk always comes to an end.** With as many steps as there are nodes that are not on the path
yet, and one more, it gets to a point where it ends, and not because of the bound on steps. -/
theorem walk_ends (hg : g.WellFormed) (hb : g.IsBuiltin) (mode : RunMode) (k : Nat) (hc : c.Sound g)
    (hk : g.nodes.length < k + c.path.length) :
    ∃ d r t, g.Reached mode c d ∧ g.next? mode d = none ∧ d.Ends g r t ∧
      g.walk mode k c.node c.entry c.path c.state = (r, t) := by
  induction k generalizing c with
  | zero =>
    have hlen := hc.length_path_le
    omega
  | succ k ih =>
    rcases walk_step hg hb mode hc with ⟨r, t, hnone, hends, hwalk⟩ | ⟨d, hd, hgoes, hwalk⟩
    · exact ⟨c, r, t, .refl, hnone, hends, hwalk k⟩
    · have hpath : d.path.length = c.path.length + 1 := by
        cases hgoes with
        | onward => simp
      obtain ⟨e, r, t, hreached, hnone, hends, hrest⟩ :=
        ih (hgoes.sound hg hb hc) (by omega)
      exact ⟨e, r, t, .head hd hreached, hnone, hends, (hwalk k).trans hrest⟩

/-- There is one point at most where a walk ends. -/
theorem reached_unique {d e : FlowPoint} (hd : g.Reached mode c d) (he : g.Reached mode c e)
    (hdnone : g.next? mode d = none) (henone : g.next? mode e = none) : d = e := by
  induction hd using Relation.ReflTransGen.head_induction_on with
  | refl =>
    rcases he.cases_head with rfl | ⟨x, hx, -⟩
    · rfl
    · rw [hdnone] at hx
      cases hx
  | @head a b hab _ ih =>
    rcases he.cases_head with rfl | ⟨x, hx, hrest⟩
    · rw [henone] at hab
      cases hab
    · rw [hx] at hab
      exact ih (Option.some.inj hab ▸ hrest)

/-- Nodes of the built-in kinds do nothing when a run starts. -/
lemma forM_reset (hb : g.IsBuiltin) (s : RunState) : g.nodes.forM Node.reset s = (.ok (), s) := by
  have hall : ∀ ns : List Node, (∀ n ∈ ns, n.body.isBuiltin = true) →
      ns.forM Node.reset s = (.ok (), s) := by
    intro ns hns
    induction ns with
    | nil => rfl
    | cons n ns ih =>
      have hreset : n.reset s = (.ok (), s) := by
        have hn := hns n List.mem_cons_self
        rw [Node.reset]
        cases hbody : n.body <;> first | rfl | simp [hbody, Body.isBuiltin] at hn
      exact (bind_ok hreset).trans (ih fun m hm => hns m (List.mem_cons_of_mem _ hm))
  exact hall g.nodes hb

/-- The outcome of a run, from the outcome of its walk. -/
def conclusion (r : Except RunError (RunStatus × List NodeId)) (t : RunState) :
    Except RunError RunReport × RunState :=
  match r with
  | .error e => (.error e, t.clear)
  | .ok (status, path) =>
    (.ok { status, path, failures := t.failures, costs := t.costs },
      { t.clear with failures := [], costs := [] })

/-- **What a run is.** A run that is not refused is a walk, which comes to an end. -/
theorem runFrom_spec (hg : g.WellFormed) (hb : g.IsBuiltin) (mode : RunMode) {start : NodeId}
    (hstart : start ∈ g.nodeIds) {s : RunState} (hs : s.stack = []) :
    ∃ d r t, g.Reached mode ⟨s.begin, start, none, []⟩ d ∧ d.Sound g ∧ g.next? mode d = none ∧
      d.Ends g r t ∧ g.runFrom mode start s = conclusion r t := by
  have hsound := FlowPoint.sound_begin (g := g) hs hstart
  have hlimit : g.nodes.length < g.stepLimit + ([] : List NodeId).length := by
    rw [stepLimit, extraSteps]
    omega
  obtain ⟨d, r, t, hreached, hnone, hends, hwalk⟩ :=
    walk_ends hg hb mode g.stepLimit hsound hlimit
  refine ⟨d, r, t, hreached, FlowPoint.sound_of_reached hg hb hreached hsound, hnone, hends, ?_⟩
  have hwalk : g.walk mode g.stepLimit start none [] s.begin = (r, t) := hwalk
  have hpresent : g.hasNode start = true := hasNode_iff.mpr hstart
  rw [runFrom]
  simp only [get_bind_apply, hs, hpresent, List.isEmpty_nil, Bool.not_true, Bool.false_eq_true,
    if_false, modify_bind_apply]
  rw [bind_ok (forM_reset hb s.begin), bind_ok (outcome_apply _ _),
    bind_ok (clearStack_apply _), hwalk]
  cases r with
  | error e => rfl
  | ok report => rfl

end Graph

end Patchbay
