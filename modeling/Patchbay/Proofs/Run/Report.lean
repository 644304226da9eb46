import Patchbay.Proofs.Run.Provenance

/-!
# What a report tells

A run that comes to a report has taken the steps that the path of the report lists. A `Stride` is such a step,
with the states before and after it and the exit that its node had. **`Graph.runBy_tells`** says that the
report is true to them, whatever the types of the nodes are: each step follows from the one before through the
exit of the node (`Graph.Follows`), that exit is what the node has given (`Graph.Gave`), and the status says
how the last of them ended.

A walk comes with its strides (`Graph.Trail`), by induction on the bound on its steps. All that is told of
them is by induction on the trail; for the exits the invariant is that each one kept so far was given by an
execution that an earlier stride has set off (`Graph.Accounted`).
-/

namespace Patchbay

open Patchbay.Action RunM

/-- One step of flow. -/
structure Stride where
  node : Node
  /-- The pin through which flow enters the node, if any. -/
  entry : Option PinId
  /-- The state in which it does. -/
  before : RunState
  /-- The exit of the node. -/
  exit : Option PinId
  /-- The state in which flow leaves the node. -/
  after : RunState

/-- The execution of the node in the step. There is none if an exit has been kept for it. -/
def Stride.execution (depth : Nat) (x : Stride) : Execution :=
  ⟨x.node, x.entry, depth, x.before.push x.node.id⟩

namespace Graph

variable (g : Graph) (b : Behaviour) (depth : Nat)

/-- The step has been taken: the run had not been asked to stop, and entering the node came to its exit. -/
structure Takes (x : Stride) : Prop where
  running : x.before.stopped = false
  node : g.node? x.node.id = some x.node
  step : g.stepBy b depth x.node x.entry x.before = (.ok x.exit, x.after)

/-- The node of step `x`, which comes after the steps `earlier`, has given the exit. -/
inductive Gave (earlier : List Stride) (x : Stride) : Prop
  /-- It has given it in this step. -/
  | now (new : x.before.pulledExits.get? x.node.id = none)
      (gave : (g.outcomeOf b (x.execution depth)).1 = .ok x.exit)
  /-- It has given it when it was executed for its data, in an earlier step. -/
  | pulled {y : Stride} (kept : x.before.pulledExits.get? x.node.id = some x.exit) (mem : y ∈ earlier)
      (new : y.before.pulledExits.get? y.node.id = none)
      (called : g.Called b (y.execution depth) x.node.id x.exit)

/-- Flow goes on from step `x` to step `y`: the exit of `x` is an output flow pin of its node, and the first
link that leaves it leads to the node of `y`. -/
structure Follows (x y : Stride) : Prop where
  inner : x.node.isExit = false
  state : y.before = x.after
  exit : ∃ p ∈ x.node.pins, x.exit = some p.id ∧ p.isFlow = true ∧ p.direction = .output ∧
    ∃ l, (g.linksFrom p.id).head? = some l ∧ l.toNode = y.node.id ∧ y.entry = some l.toPin

/-- What the report of a run from node `start` in state `s` tells of its steps. -/
structure Tells (start : NodeId) (s : RunState) (xs : List Stride) (report : RunReport) : Prop where
  path : report.path = xs.map (·.node.id)
  takes : ∀ x ∈ xs, g.Takes b depth x
  /-- The first step is into the start node. -/
  begins : ∀ x ∈ xs.head?, x.node.id = start ∧ x.entry = none ∧ x.before = s
  gave : ∀ earlier x later, xs = earlier ++ x :: later → g.Gave b depth earlier x
  follows : xs.IsChain g.Follows
  /-- No step but the last one is into an exit node. -/
  inner : ∀ x ∈ xs.dropLast, x.node.isExit = false
  completed : report.status = .completed ↔ ∃ x ∈ xs.getLast?, x.node.isExit = true
  /-- A run halts where a node gives no exit or an unlinked one. -/
  halted : report.status = .halted → ∃ x ∈ xs.getLast?, ∀ p, x.exit = some p → g.linksFrom p = []
  reachable : ∀ x ∈ xs, Relation.ReflTransGen g.FlowLink start x.node.id

/-! ## The trail of a walk -/

/-- The step starts at a point of a walk. -/
structure Starts (c : FlowPoint) (x : Stride) : Prop where
  state : x.before = c.state
  node : x.node.id = c.node
  entry : x.entry = c.entry

/-- From a point on, a walk takes some steps and ends with a status. -/
inductive Trail : FlowPoint → List Stride → RunStatus → Prop
  /-- The run has been asked to stop. -/
  | stopped {c : FlowPoint} (raised : c.state.stopped = true) : Trail c [] .stopped
  /-- The node is an exit node. -/
  | completed {c : FlowPoint} {x : Stride} (starts : Starts c x) (takes : g.Takes b depth x)
      (outer : x.node.isExit = true) : Trail c [x] .completed
  /-- The node gives no exit or an unlinked one. -/
  | ended {c : FlowPoint} {x : Stride} (starts : Starts c x) (takes : g.Takes b depth x)
      (inner : x.node.isExit = false) (nowhere : ∀ p, x.exit = some p → g.linksFrom p = []) :
      Trail c [x] x.after.endStatus
  /-- Flow goes on. -/
  | onward {c : FlowPoint} {x : Stride} {p : Pin} {l : Link} {xs : List Stride} {status : RunStatus}
      (starts : Starts c x) (takes : g.Takes b depth x) (inner : x.node.isExit = false)
      (owned : p ∈ x.node.pins) (exit : x.exit = some p.id) (flow : p.isFlow = true)
      (output : p.direction = .output) (first : (g.linksFrom p.id).head? = some l)
      (rest : Trail ⟨x.after, l.toNode, some l.toPin, c.path ++ [c.node]⟩ xs status) :
      Trail c (x :: xs) status

/-- Exits that are kept in state `s` were given by executions that one of the steps has set off. -/
def Accounted (xs : List Stride) (s : RunState) : Prop :=
  ∀ n exit, s.pulledExits.get? n = some exit → ∃ y ∈ xs,
    y.before.pulledExits.get? y.node.id = none ∧ g.Called b (y.execution depth) n exit

variable {g b depth}

/-- Following an exit finds an output flow pin of the node, and its first link. -/
theorem follow_ok (hg : g.WellFormed) {n : Node} (hn : n ∈ g.nodes) {i : PinId}
    {next : Option (NodeId × PinId)} (h : g.follow n.id i = .ok next) :
    ∃ p ∈ n.pins, p.id = i ∧ p.isFlow = true ∧ p.direction = .output ∧
      next = (g.linksFrom i).head?.map fun l => (l.toNode, l.toPin) := by
  rw [follow] at h
  cases hpin : g.pin? i with
  | none => simp [hpin] at h
  | some p =>
    simp only [hpin] at h
    split_ifs at h with hvalid
    obtain ⟨howner, hflow, hout⟩ := hvalid
    obtain ⟨m, hm, howner', howns, hid⟩ := pin?_some hpin
    obtain rfl : m = n := hg.eq_of_id hm hn (Option.some.inj (howner'.symm.trans howner))
    exact ⟨p, howns, hid, hflow, hout, (Except.ok.inj h).symm⟩

/-- A step that comes to an exit takes the one that was kept, or has the node executed. -/
theorem stepBy_ok {n : Node} {entry exit : Option PinId} {s t : RunState}
    (h : g.stepBy b depth n entry s = (.ok exit, t)) :
    (s.pulledExits.get? n.id = some exit ∧ t.pulledExits = s.pulledExits) ∨
      s.pulledExits.get? n.id = none ∧ ∃ u,
        g.outcomeOf b ⟨n, entry, depth, s.push n.id⟩ = (.ok exit, u) ∧
          t.pulledExits = u.pulledExits := by
  have hmark : ∀ u : RunState, (u.mark n.id).pulledExits = u.pulledExits := by
    intro u
    rw [RunState.mark]
    split_ifs <;> rfl
  rw [stepBy] at h
  by_cases hidle : n.id ∈ s.stack
  · rw [bind_error (enter_of_mem n.id s hidle)] at h
    cases h
  rw [bind_ok (enter_of_not_mem n.id s hidle), get_bind_apply] at h
  have hpush : (s.push n.id).pulledExits = s.pulledExits := rfl
  rw [hpush] at h
  cases hkept : s.pulledExits.get? n.id with
  | some kept =>
    simp only [hkept] at h
    -- the call stack is emptied at an exit node, which the exits do not depend on
    cases hexit : n.isExit with
    | true =>
      rw [hexit] at h
      obtain ⟨hgiven, rfl⟩ := Prod.mk.inj h
      exact .inl ⟨congrArg some (Except.ok.inj hgiven), hmark _⟩
    | false =>
      rw [hexit] at h
      obtain ⟨hgiven, rfl⟩ := Prod.mk.inj h
      exact .inl ⟨congrArg some (Except.ok.inj hgiven), hmark _⟩
  | none =>
    refine .inr ⟨rfl, ?_⟩
    simp only [hkept] at h
    rcases hexecute : g.outcomeOf b ⟨n, entry, depth, s.push n.id⟩ with ⟨r, u⟩
    cases r with
    | error e =>
      rw [bind_error hexecute] at h
      cases h
    | ok given =>
      rw [bind_ok hexecute] at h
      obtain ⟨⟨⟩, rfl⟩ := Prod.mk.inj h
      exact ⟨u, rfl, hmark u⟩

section Aftermath

variable (hg : g.WellFormed) {c : FlowPoint} {n : Node} (hn : n ∈ g.nodes) (hid : n.id = c.node)
  {exit : Option PinId} {t : RunState}
include hg hn hid

/-- A walk that ends after a step ends at an exit node, or where there is no exit or an unlinked one. -/
theorem aftermath_ends {status : RunStatus} {path : List NodeId}
    (h : g.aftermath c n (.ok exit) t = .ends (.ok (status, path))) :
    path = c.path ++ [c.node] ∧ (n.isExit = true ∧ status = .completed ∨
      n.isExit = false ∧ status = t.endStatus ∧ ∀ p, exit = some p → g.linksFrom p = []) := by
  simp only [aftermath] at h
  cases hexit : n.isExit with
  | true =>
    simp only [hexit, if_true] at h
    split_ifs at h <;> cases h
    exact ⟨rfl, .inl ⟨rfl, rfl⟩⟩
  | false =>
    simp only [hexit, Bool.false_eq_true, if_false] at h
    cases exit with
    | none =>
      cases h
      exact ⟨rfl, .inr ⟨rfl, rfl, by simp⟩⟩
    | some p =>
      rcases hfollow : g.follow c.node p with e | _ | _
      · simp [hfollow] at h
      · simp only [hfollow] at h
        cases h
        obtain ⟨q, -, rfl, -, -, hnext⟩ := follow_ok hg hn (hid ▸ hfollow)
        refine ⟨rfl, .inr ⟨rfl, rfl, ?_⟩⟩
        rintro _ ⟨⟩
        exact List.head?_eq_none_iff.mp (Option.map_eq_none_iff.mp hnext.symm)
      · simp [hfollow] at h

/-- A walk that goes on after a step follows the first link of an output flow pin of the node. -/
theorem aftermath_onward {next : NodeId} {pin : PinId}
    (h : g.aftermath c n (.ok exit) t = .onward next pin) :
    n.isExit = false ∧ ∃ p ∈ n.pins, exit = some p.id ∧ p.isFlow = true ∧ p.direction = .output ∧
      ∃ l, (g.linksFrom p.id).head? = some l ∧ l.toNode = next ∧ l.toPin = pin := by
  obtain ⟨hexit, p, hr, hfollow⟩ := aftermath_eq_onward.mp h
  obtain ⟨q, hq, rfl, hflow, hout, hnext⟩ := follow_ok hg hn (hid ▸ hfollow)
  obtain ⟨l, hl, heq⟩ := Option.map_eq_some_iff.mp hnext.symm
  obtain ⟨rfl, rfl⟩ := Prod.mk.inj heq
  exact ⟨hexit, q, hq, Except.ok.inj hr, hflow, hout, l, hl, rfl, rfl⟩

end Aftermath

/-- **A walk that comes to an end leaves a trail.** -/
theorem walkBy_trail (hg : g.WellFormed) (k : Nat) {c : FlowPoint} {status : RunStatus}
    {path : List NodeId} {t : RunState}
    (h : g.walkBy (g.stepBy b depth) k c = (.ok (status, path), t)) :
    ∃ xs, g.Trail b depth c xs status ∧ path = c.path ++ xs.map (·.node.id) := by
  induction k generalizing c with
  | zero => cases h
  | succ k ih =>
    rw [walkBy] at h
    cases hstopped : c.state.stopped with
    | true =>
      rw [if_pos hstopped] at h
      cases h
      exact ⟨[], .stopped hstopped, (List.append_nil _).symm⟩
    | false =>
      rw [if_neg (by simp [hstopped])] at h
      cases hnode : g.node? c.node with
      | none => simp [hnode] at h
      | some n =>
        obtain ⟨hn, hid⟩ := node?_some hnode
        rcases hstep : g.stepBy b depth n c.entry c.state with ⟨r, u⟩
        simp only [hnode, hstep] at h
        cases r with
        | error e => cases h
        | ok exit =>
          let x : Stride := ⟨n, c.entry, c.state, exit, u⟩
          have hstarts : Starts c x := ⟨rfl, hid, rfl⟩
          have htakes : g.Takes b depth x := ⟨hstopped, hid ▸ hnode, hstep⟩
          cases hafter : g.aftermath c n (.ok exit) u with
          | ends out =>
            simp only [hafter, Prod.mk.injEq] at h
            obtain ⟨rfl, rfl⟩ := h
            obtain ⟨rfl, ⟨houter, rfl⟩ | ⟨hinner, rfl, hnowhere⟩⟩ := aftermath_ends hg hn hid hafter
            · exact ⟨[x], .completed hstarts htakes houter, by simp [x, hid]⟩
            · exact ⟨[x], .ended hstarts htakes hinner hnowhere, by simp [x, hid]⟩
          | onward next pin =>
            simp only [hafter] at h
            obtain ⟨hinner, q, hq, hexit, hflow, hout, l, hl, rfl, rfl⟩ :=
              aftermath_onward hg hn hid hafter
            obtain ⟨xs, htrail, hxs⟩ := ih h
            exact ⟨x :: xs, .onward hstarts htakes hinner hq hexit hflow hout hl htrail,
              by simp [hxs, x, hid]⟩

section Takes

variable {x : Stride} (h : g.Takes b depth x) {earlier : List Stride}
  (hearlier : g.Accounted b depth earlier x.before)
include h hearlier

theorem Takes.gave : g.Gave b depth earlier x := by
  rcases stepBy_ok h.step with ⟨hkept, -⟩ | ⟨hnew, u, hgave, -⟩
  · obtain ⟨y, hy, hnew, hcalled⟩ := hearlier _ _ hkept
    exact .pulled hkept hy hnew hcalled
  · exact .now hnew (congrArg Prod.fst hgave)

theorem Takes.accounted : g.Accounted b depth (earlier ++ [x]) x.after := by
  intro n exit hexit
  have hbefore : x.before.pulledExits.get? n = some exit → ∃ y ∈ earlier ++ [x],
      y.before.pulledExits.get? y.node.id = none ∧ g.Called b (y.execution depth) n exit := by
    intro hkept
    obtain ⟨y, hy, hcalled⟩ := hearlier n exit hkept
    exact ⟨y, List.mem_append_left _ hy, hcalled⟩
  rcases stepBy_ok h.step with ⟨-, heq⟩ | ⟨hnew, u, hgave, heq⟩
  · exact hbefore (heq ▸ hexit)
  · have hkept : (g.outcomeOf b (x.execution depth)).2.pulledExits.get? n = some exit := by
      rw [show g.outcomeOf b (x.execution depth) = (.ok x.exit, u) from hgave, ← heq, hexit]
    rcases kept_called _ hkept with hkept | hcalled
    · exact hbefore hkept
    · exact ⟨x, List.mem_append_right _ (List.mem_singleton_self x), hnew, hcalled⟩

end Takes

namespace Trail

variable {c : FlowPoint} {xs : List Stride} {status : RunStatus} (h : g.Trail b depth c xs status)
include h

theorem takes : ∀ x ∈ xs, g.Takes b depth x := by
  induction h with
  | stopped => simp
  | completed _ htakes | ended _ htakes => simpa using htakes
  | onward _ htakes _ _ _ _ _ _ _ ih => exact List.forall_mem_cons.mpr ⟨htakes, ih⟩

theorem starts : ∀ x ∈ xs.head?, Starts c x := by
  cases h with
  | stopped => simp
  | completed hstarts | ended hstarts | onward hstarts => simpa using hstarts

theorem follows : xs.IsChain g.Follows := by
  induction h with
  | stopped => exact .nil
  | completed | ended => exact .singleton _
  | onward _ _ hinner howned hexit hflow hout hfirst hrest ih =>
    refine List.isChain_cons.mpr ⟨fun y hy => ?_, ih⟩
    obtain ⟨hstate, hnode, hentry⟩ := hrest.starts y hy
    exact ⟨hinner, hstate, _, howned, hexit, hflow, hout, _, hfirst, hnode.symm, hentry⟩

theorem inner : ∀ x ∈ xs.dropLast, x.node.isExit = false := by
  induction h with
  | stopped | completed | ended => simp
  | @onward c x p l xs status _ _ hinner _ _ _ _ _ hrest ih =>
    cases xs with
    | nil => simp
    | cons y ys =>
      rw [List.dropLast_cons_cons]
      exact List.forall_mem_cons.mpr ⟨hinner, ih⟩

theorem completed_iff : status = .completed ↔ ∃ x ∈ xs.getLast?, x.node.isExit = true := by
  induction h with
  | stopped => simp
  | completed _ _ houter => simpa using houter
  | @ended c x _ _ hinner =>
    have hstatus : x.after.endStatus ≠ .completed := by
      rw [RunState.endStatus]
      split_ifs <;> exact RunStatus.noConfusion
    simp [hstatus, hinner]
  | @onward c x p l xs status _ _ hinner _ _ _ _ _ hrest ih =>
    cases xs with
    | nil =>
      cases hrest
      simp [hinner]
    | cons y ys => rwa [List.getLast?_cons_cons]

theorem halted (hstatus : status = .halted) :
    ∃ x ∈ xs.getLast?, ∀ p, x.exit = some p → g.linksFrom p = [] := by
  induction h with
  | stopped | completed => cases hstatus
  | @ended c x _ _ _ hnowhere => exact ⟨x, rfl, hnowhere⟩
  | @onward c x p l xs status _ _ _ _ _ _ _ _ hrest ih =>
    cases xs with
    | nil =>
      cases hrest
      cases hstatus
    | cons y ys =>
      rw [List.getLast?_cons_cons]
      exact ih hstatus

theorem reachable (hg : g.WellFormed) :
    ∀ x ∈ xs, Relation.ReflTransGen g.FlowLink c.node x.node.id := by
  induction h with
  | stopped => simp
  | completed hstarts | ended hstarts =>
    simp only [List.mem_singleton, forall_eq, hstarts.node]
    exact .refl
  | onward hstarts htakes _ howned _ hflow _ hfirst hrest ih =>
    have hlink := flowLink_of_linksFrom hg (node?_some htakes.node).1 howned hflow
      (List.mem_of_mem_head? hfirst)
    rw [hstarts.node] at hlink
    exact List.forall_mem_cons.mpr ⟨hstarts.node ▸ .refl, fun y hy => (ih y hy).head hlink⟩

theorem gave {earlier : List Stride} (hearlier : g.Accounted b depth earlier c.state) :
    ∀ before x later, xs = before ++ x :: later → g.Gave b depth (earlier ++ before) x := by
  have hsingle : ∀ {x y : Stride} {before later : List Stride}, [x] = before ++ y :: later →
      before = [] ∧ y = x := by
    intro x y before later heq
    cases before with
    | nil => exact ⟨rfl, (List.cons.inj heq).1.symm⟩
    | cons z zs => simp at heq
  induction h generalizing earlier with
  | stopped => simp
  | completed hstarts htakes | ended hstarts htakes =>
    intro before y later heq
    obtain ⟨rfl, rfl⟩ := hsingle heq
    rw [List.append_nil]
    exact htakes.gave (hstarts.state ▸ hearlier)
  | @onward c x p l xs status hstarts htakes _ _ _ _ _ _ hrest ih =>
    intro before y later heq
    have haccounted : g.Accounted b depth earlier x.before := hstarts.state ▸ hearlier
    cases before with
    | nil =>
      obtain ⟨rfl, -⟩ := List.cons.inj heq
      rw [List.append_nil]
      exact htakes.gave haccounted
    | cons z zs =>
      obtain ⟨rfl, htail⟩ := List.cons.inj heq
      rw [List.append_cons]
      exact ih (htakes.accounted haccounted) zs y later htail

end Trail

/-! ## Runs -/

/-- No exits are kept when a run takes its first step. -/
theorem accounted_opening (s : RunState) :
    g.Accounted b depth [] (g.opening (g.conductBy b depth) s) := by
  have hnone : ∀ (nodes : List Node) (t : RunState), Forgets t
      (nodes.foldl (fun u n => b.reset n u) t) := by
    intro nodes
    induction nodes with
    | nil => exact fun t _ _ hexit => hexit
    | cons n nodes ih => exact fun t m x hx => b.reset_forgets n t m x (ih _ m x hx)
  intro n exit hexit
  cases hnone g.nodes s.begin n exit hexit

/-- A run that is not refused walks from its start. -/
theorem runBy_ok {c : Conduct} {limit : Nat} {start : NodeId} {s t : RunState} {report : RunReport}
    (h : g.runBy c limit start s = (.ok report, t)) :
    ∃ u, g.walkBy c.step limit ⟨g.opening c s, start, none, []⟩ =
      (.ok (report.status, report.path), u) := by
  rw [runBy] at h
  by_cases hbusy : s.stack ≠ []
  · rw [if_pos hbusy] at h
    cases h
  rw [if_neg hbusy] at h
  cases hstart : g.hasNode start with
  | false => simp [hstart] at h
  | true =>
    rcases hwalk : g.walkBy c.step limit ⟨g.opening c s, start, none, []⟩ with ⟨r, u⟩
    rw [if_pos hstart, hwalk] at h
    cases r with
    | error e => cases h
    | ok outcome =>
      cases h
      exact ⟨u, rfl⟩

/-- **A report tells what happened**, whatever the nodes of a graph do. The runs of the program are runs over
what its nodes do; and a run over anything that nodes may do, within any bounds, has taken steps of which its
report tells. -/
theorem runBy_tells (hg : g.WellFormed) (start : NodeId) (s : RunState) :
    (∀ mode, g.runFrom mode start s =
      g.runBy (g.conductBy (g.behaviour mode) g.pullDepth) g.stepLimit start s) ∧
    ∀ b depth limit report, (g.runBy (g.conductBy b depth) limit start s).1 = .ok report →
      ∃ xs, g.Tells b depth start (g.opening (g.conductBy b depth) s) xs report := by
  refine ⟨fun mode => g.runFrom_eq_behaviour mode start s, fun b depth limit report hreport => ?_⟩
  obtain ⟨u, hwalk⟩ := runBy_ok (Prod.ext hreport rfl)
  obtain ⟨xs, htrail, hpath⟩ := walkBy_trail hg limit hwalk
  refine ⟨xs, hpath.trans (List.nil_append _), htrail.takes, fun x hx => ?_, ?_, htrail.follows,
    htrail.inner, htrail.completed_iff, htrail.halted, htrail.reachable hg⟩
  · obtain ⟨hstate, hnode, hentry⟩ := htrail.starts x hx
    exact ⟨hnode, hentry, hstate⟩
  · exact htrail.gave (accounted_opening s)

/-- Flow goes through the second transition of the example by the exit that it gave when it was executed for
its data. -/
theorem pullAhead_tells : ∃ report xs,
    (pullAhead.runFrom ⟨false, true⟩ ⟨Uuid.ofNat 1⟩ (.initial .empty)).1 = .ok report ∧
      report.path = [⟨Uuid.ofNat 1⟩, ⟨Uuid.ofNat 2⟩, ⟨Uuid.ofNat 3⟩, ⟨Uuid.ofNat 4⟩] ∧
      pullAhead.Tells (pullAhead.behaviour ⟨false, true⟩) pullAhead.pullDepth ⟨Uuid.ofNat 1⟩
        (pullAhead.opening (pullAhead.conductBy (pullAhead.behaviour ⟨false, true⟩) pullAhead.pullDepth)
          (.initial .empty)) xs report := by
  obtain ⟨hprogram, htells⟩ := runBy_tells pullAhead_wellFormed ⟨Uuid.ofNat 1⟩ (.initial .empty)
  have hpath : (pullAhead.runFrom ⟨false, true⟩ ⟨Uuid.ofNat 1⟩ (.initial .empty)).1.toOption.map
      RunReport.path = some [⟨Uuid.ofNat 1⟩, ⟨Uuid.ofNat 2⟩, ⟨Uuid.ofNat 3⟩, ⟨Uuid.ofNat 4⟩] := by
    decide +kernel
  cases hrun : (pullAhead.runFrom ⟨false, true⟩ ⟨Uuid.ofNat 1⟩ (.initial .empty)).1 with
  | error e =>
    rw [hrun] at hpath
    cases hpath
  | ok report =>
    rw [hrun] at hpath
    obtain ⟨xs, hxs⟩ := htells _ _ _ report (by rw [← hprogram, hrun])
    exact ⟨report, xs, rfl, Option.some.inj hpath, hxs⟩

end Graph

end Patchbay
