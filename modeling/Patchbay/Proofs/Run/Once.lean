import Patchbay.Proofs.Run.Walk

/-!
# Runs end, and do everything once

`Graph.runFrom_once` is about all runs over well-formed graphs of built-in nodes, with cycles or
without. A run comes to an end by itself. No node is executed twice, whether flow comes to it, data is
asked of it, or both. No node is on the path twice, and no node fails twice.
-/

namespace Patchbay

namespace Graph

variable {g : Graph}

/-! ## Errors -/

/-- Asking for data can only fail at a node that is on the call stack. -/
theorem Pulls.error_eq {s t : RunState} {ps : List Pin} {r : Except RunError (List Value)}
    (h : g.Pulls s ps r t) : ∀ e, r = .error e → ∃ n stack, e = .cyclic n stack := by
  induction h with
  | nothing s =>
    rintro _ ⟨⟩
  | @known s t p ps v r answer rest ih =>
    intro e he
    cases r with
    | error e' => exact ih e he
    | ok vs => cases he
  | cyclic awaits busy =>
    rintro _ ⟨⟩
    exact ⟨_, _, rfl⟩
  | failing awaits idle reads ih =>
    rintro _ ⟨⟩
    exact ih _ rfl
  | supplied awaits idle reads conclude rest ih ih' => exact ih'

theorem Enters.error_eq {n : Node} {s t : RunState} {e : RunError}
    (h : g.Enters n s (.error e) t) : ∃ m stack, e = .cyclic m stack := by
  cases h with
  | busy mem => exact ⟨_, _, rfl⟩
  | failing idle new executes =>
    cases executes with
    | failing reads => exact reads.error_eq e rfl

end Graph

/-! ## The end of a walk -/

/-- What holds at the end of a walk. -/
structure FlowPoint.Tallied (r : Except RunError (RunStatus × List NodeId)) (t : RunState) :
    Prop where
  log_nodup : t.log.Nodup
  failures_nodup : (t.failures.map NodeFailure.node).Nodup
  path_nodup : ∀ status path, r = .ok (status, path) → path.Nodup
  error_eq : ∀ e, r = .error e → ∃ n stack, e = .cyclic n stack

namespace FlowPoint

variable {g : Graph} (hg : g.WellFormed) (hb : g.IsBuiltin) {c : FlowPoint} {t : RunState}
include hg hb

/-- The path is one longer, and still without repetition, once a node has been entered. -/
theorem Sound.tallied_ok (hc : c.Sound g) {n : Node} (hn : n ∈ g.nodes) (hid : n.id = c.node)
    {exit : Option PinId} (h : g.Enters n c.state (.ok exit) t) (status : RunStatus) :
    Tallied (.ok (status, c.path ++ [c.node])) t := by
  have hentered := hc.entered hg hb hn h
  refine ⟨hentered.orderly.log_nodup, hentered.orderly.failures_nodup, ?_, fun e he => (by cases he)⟩
  rintro _ _ ⟨⟩
  have hpath : c.path.Nodup := hc.stack ▸ hc.orderly.stack_nodup
  rw [← List.concat_eq_append, ← hid]
  exact hpath.concat hentered.new

/-- **However a walk ends**, nothing has been done twice. -/
theorem Ends.tallied {r : Except RunError (RunStatus × List NodeId)} (h : c.Ends g r t)
    (hc : c.Sound g) : Tallied r t := by
  cases h with
  | stopped raised =>
    refine ⟨hc.orderly.log_nodup, hc.orderly.failures_nodup, ?_, fun e he => (by cases he)⟩
    rintro _ _ ⟨⟩
    exact hc.stack ▸ hc.orderly.stack_nodup
  | @failed n t e hn hid running henters =>
    have horderly : g.Orderly t := by
      cases henters with
      | busy mem => exact hc.orderly
      | failing idle new executes =>
        exact executes.orderly_of_error hg hb hc.orderly (hc.due hn idle new)
    refine ⟨horderly.log_nodup, horderly.failures_nodup, fun _ _ h => (by cases h), ?_⟩
    rintro _ ⟨⟩
    exact henters.error_eq
  | completed hn hid outer running henters => exact hc.tallied_ok hg hb hn hid henters _
  | halted hn hid inner running henters nowhere => exact hc.tallied_ok hg hb hn hid henters _

end FlowPoint

namespace Graph

/-- A run from a node that is not there is refused. -/
theorem runFrom_absent (g : Graph) (mode : RunMode) {start : NodeId} {s : RunState}
    (hs : s.stack = []) (h : g.hasNode start = false) :
    g.runFrom mode start s = (.error (.nodeNotFound start), s) := by
  simp [runFrom, hs, h]

/-- **Runs end, and do everything once.** A run from a node of the graph clears the log and comes to an
end by itself: it fails only over a cycle, never over the bounds on depth and steps. No node is
executed twice, no node fails twice, and no node is on the path twice. A run from anywhere else is
refused and changes nothing. -/
theorem runFrom_once {g : Graph} (hg : g.WellFormed) (hb : g.IsBuiltin) (mode : RunMode)
    (start : NodeId) {s : RunState} (hs : s.stack = []) :
    if g.hasNode start then
      (∀ e, (g.runFrom mode start s).1 = .error e → ∃ n stack, e = .cyclic n stack) ∧
      (∀ n, (g.runFrom mode start s).2.log.count n ≤ 1) ∧
      ((g.runFrom mode start s).2.failures.map NodeFailure.node).Nodup ∧
      ∀ report, (g.runFrom mode start s).1 = .ok report →
        report.path.Nodup ∧ (report.failures.map NodeFailure.node).Nodup
    else g.runFrom mode start s = (.error (.nodeNotFound start), s) := by
  split_ifs with hstart
  · obtain ⟨d, r, t, -, hsound, -, hends, hrun⟩ :=
      runFrom_spec hg hb mode (hasNode_iff.mp hstart) hs
    have htallied := hends.tallied hg hb hsound
    rw [hrun]
    cases r with
    | error e =>
      obtain ⟨n, stack, rfl⟩ := htallied.error_eq e rfl
      refine ⟨?_, List.nodup_iff_count_le_one.mp htallied.log_nodup, htallied.failures_nodup, ?_⟩
      · rintro _ ⟨⟩
        exact ⟨n, stack, rfl⟩
      · rintro report ⟨⟩
    | ok outcome =>
      obtain ⟨status, path⟩ := outcome
      refine ⟨?_, List.nodup_iff_count_le_one.mp htallied.log_nodup, List.nodup_nil, ?_⟩
      · rintro e ⟨⟩
      · rintro report ⟨⟩
        exact ⟨htallied.path_nodup status path rfl, htallied.failures_nodup⟩
  · exact runFrom_absent g mode hs (by simpa using hstart)

/-! ## A graph in which flow comes to a node that has been asked for data -/

/-- A node of the example. -/
def exampleNode (k : Nat) (body : Body) : Node :=
  { id := ⟨Uuid.ofNat k⟩, name := "", position := .zero, enabled := true, body }

/-- The pins of a transition of the example. -/
def examplePins (k : Nat) : TransitionPins :=
  { enter := ⟨Uuid.ofNat k⟩, first := ⟨Uuid.ofNat (k + 1)⟩, second := ⟨Uuid.ofNat (k + 2)⟩
    pos := ⟨Uuid.ofNat (k + 3)⟩, exit := ⟨Uuid.ofNat (k + 4)⟩, out := ⟨Uuid.ofNat (k + 5)⟩ }

/-- A link of the example. -/
def exampleLink (k a i b j : Nat) (flow : Bool) : Link :=
  ⟨⟨Uuid.ofNat k⟩, ⟨Uuid.ofNat a⟩, ⟨Uuid.ofNat i⟩, ⟨Uuid.ofNat b⟩, ⟨Uuid.ofNat j⟩, flow⟩

/-- Flow runs from a start node through two transitions to an end node. The first transition takes its
first picture from the second one, so the second one is executed before flow comes to it. A constant
sets how far the first one has come. -/
def pullAhead : Graph :=
  let nodes := [exampleNode 1 (.start ⟨Uuid.ofNat 11⟩),
    exampleNode 2 (.transition (examplePins 20) .standard),
    exampleNode 3 (.transition (examplePins 30) .standard),
    exampleNode 4 (.finish ⟨⟨Uuid.ofNat 41⟩, ⟨Uuid.ofNat 42⟩⟩),
    exampleNode 5 (.constant ⟨Uuid.ofNat 51⟩ 1)]
  { name := "pull ahead", nodes, owners := indexOf nodes
    links := [exampleLink 61 1 11 2 20 true, exampleLink 62 2 24 3 30 true,
      exampleLink 63 3 34 4 41 true, exampleLink 64 3 35 2 21 false,
      exampleLink 65 2 25 4 42 false, exampleLink 66 5 51 2 23 false] }

theorem pullAhead_wellFormed : pullAhead.WellFormed := by
  refine wellFormed_of_indexOf rfl (by decide) (by decide) (fun l hl => ?_) (by decide)
  simp only [pullAhead, List.mem_cons, List.not_mem_nil, or_false] at hl
  rcases hl with rfl | rfl | rfl | rfl | rfl | rfl
  · exact joins_of_getElem? (i := 0) (j := 1) (k := 0) (m := 0) rfl rfl rfl rfl rfl (by decide) rfl
  · exact joins_of_getElem? (i := 1) (j := 2) (k := 4) (m := 0) rfl rfl rfl rfl rfl (by decide) rfl
  · exact joins_of_getElem? (i := 2) (j := 3) (k := 4) (m := 0) rfl rfl rfl rfl rfl (by decide) rfl
  · exact joins_of_getElem? (i := 2) (j := 1) (k := 5) (m := 1) rfl rfl rfl rfl rfl (by decide) rfl
  · exact joins_of_getElem? (i := 1) (j := 3) (k := 5) (m := 1) rfl rfl rfl rfl rfl (by decide) rfl
  · exact joins_of_getElem? (i := 4) (j := 1) (k := 0) (m := 3) rfl rfl rfl rfl rfl (by decide) rfl

theorem pullAhead_isBuiltin : pullAhead.IsBuiltin := by
  intro n hn
  simp only [pullAhead, List.mem_cons, List.not_mem_nil, or_false] at hn
  rcases hn with rfl | rfl | rfl | rfl | rfl <;> rfl

/-- Each node of the example is executed once, the second transition before flow comes to it. -/
example : (pullAhead.runFrom ⟨false, true⟩ ⟨Uuid.ofNat 1⟩ (.initial .empty)).2.log =
    [⟨Uuid.ofNat 1⟩, ⟨Uuid.ofNat 2⟩, ⟨Uuid.ofNat 3⟩, ⟨Uuid.ofNat 5⟩, ⟨Uuid.ofNat 4⟩] := by
  decide +kernel

/-- The second transition of the example is executed once. -/
theorem pullAhead_once :
    (pullAhead.runFrom ⟨false, true⟩ ⟨Uuid.ofNat 1⟩ (.initial .empty)).2.log.count
      ⟨Uuid.ofNat 3⟩ ≤ 1 := by
  have h := runFrom_once pullAhead_wellFormed pullAhead_isBuiltin ⟨false, true⟩ ⟨Uuid.ofNat 1⟩
    (s := .initial .empty) rfl
  rw [if_pos (by decide)] at h
  exact h.2.1 _

end Graph

end Patchbay
