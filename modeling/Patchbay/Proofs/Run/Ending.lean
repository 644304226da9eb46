import Patchbay.Proofs.Run.Once

/-!
# Where runs complete

While a run is under way it has executed no end node: those publish nothing, so nobody asks for their
data, and flow does not go on from them. `Graph.Underway` is this invariant. A run therefore executes one
end node at most, and it does so exactly if it completes there; the frame that it was given is then stored
on the node. That is **`Graph.runFrom_finish`**.
-/

namespace Patchbay

namespace Graph

variable {g : Graph}

/-- No end node has been executed yet. -/
def Underway (g : Graph) (s : RunState) : Prop :=
  ∀ n ∈ g.nodes, n.isExit = true → n.id ∉ s.executed

/-! ## Steps that keep a run under way -/

section Steps

variable (hg : g.WellFormed) {s t : RunState}
include hg

/-- Another node than an end node has been executed. -/
theorem Underway.executed_inner (h : g.Underway s) {n : Node} (hn : n ∈ g.nodes)
    (hinner : n.isExit = false) (ht : ∀ m ∈ t.executed, m ∈ s.executed ∨ m = n.id) :
    g.Underway t := by
  intro m hm hexit hmem
  rcases ht m.id hmem with hmem | heq
  · exact h m hm hexit hmem
  · rw [hg.eq_of_id hm hn heq, hinner] at hexit
    cases hexit

variable (hb : g.IsBuiltin)
include hb

/-- **Asking for data executes no end node**, whether it succeeds or not. -/
theorem Pulls.underway {ps : List Pin} {r : Except RunError (List Value)} (h : g.Pulls s ps r t)
    (hs : g.Underway s) : g.Underway t := by
  induction h with
  | nothing s => exact hs
  | known answer rest ih => exact ih hs
  | cyclic awaits busy => exact hs
  | @failing s t p ps n e awaits idle reads ih =>
    refine (ih hs).executed_inner hg awaits.mem (awaits.not_isExit hb) fun m hm => ?_
    rw [((awaits.due idle).busy (reads.grows hb)).ended_eq] at hm
    simpa using hm
  | @supplied s t u w p ps n vs exit r awaits idle reads conclude rest ih ih' =>
    have hdue := awaits.due idle
    have hinner := awaits.not_isExit hb
    obtain ⟨-, hc⟩ := Node.concludes_of_eq (hb n hdue.mem) (reads.length_eq vs rfl) conclude
    have hbusy := (hdue.busy (reads.grows hb)).conclude hc hinner
    refine ih' ((ih hs).executed_inner hg hdue.mem hinner fun m hm => ?_)
    simpa [RunState.keepExit, hbusy.ended_eq, hc.executed] using hm

/-- Executing a node is recorded only after it. -/
theorem Executes.underway {n : Node} (hn : n ∈ g.nodes) {r : Except RunError (Option PinId)}
    (h : g.Executes n s r t) (hs : g.Underway s) : g.Underway t := by
  cases h with
  | failing reads => exact reads.underway hg hb hs
  | concluding reads conclude =>
    obtain ⟨-, hc⟩ := Node.concludes_of_eq (hb n hn) (reads.length_eq _ rfl) conclude
    intro m hm hexit
    rw [hc.executed]
    exact reads.underway hg hb hs m hm hexit

/-- A node that cannot be entered leaves the run under way. -/
theorem Enters.underway_of_error {n : Node} (hn : n ∈ g.nodes) {e : RunError}
    (h : g.Enters n s (.error e) t) (hs : g.Underway s) : g.Underway t := by
  cases h with
  | busy mem => exact hs
  | failing idle new executes => exact executes.underway hg hb hn hs

/-- Entering a node executes no end node but itself. -/
theorem Enters.executed_of_ok {n : Node} (hn : n ∈ g.nodes) {exit : Option PinId}
    (h : g.Enters n s (.ok exit) t) (hs : g.Underway s) {m : Node} (hm : m ∈ g.nodes)
    (hexit : m.isExit = true) (hmem : m.id ∈ t.executed) : m.id = n.id := by
  cases h with
  | again idle kept => exact (RunState.mem_mark.mp hmem).resolve_left (hs m hm hexit)
  | executing idle new executes =>
    exact (RunState.mem_mark.mp hmem).resolve_left (executes.underway hg hb hn hs m hm hexit)

/-- A node that is no end node leaves the run under way. -/
theorem Enters.underway_of_inner {n : Node} (hn : n ∈ g.nodes) (hinner : n.isExit = false)
    {exit : Option PinId} (h : g.Enters n s (.ok exit) t) (hs : g.Underway s) : g.Underway t := by
  intro m hm hexit hmem
  rw [hg.eq_of_id hm hn (h.executed_of_ok hg hb hn hs hm hexit hmem), hinner] at hexit
  cases hexit

end Steps

end Graph

/-! ## The end of a walk -/

namespace FlowPoint

variable {g : Graph} (hg : g.WellFormed) (hb : g.IsBuiltin) {c : FlowPoint} {n : Node}
include hg hb

/-- Flow goes on while the run is under way. -/
theorem underway_of_reached {mode : RunMode} {start : NodeId} (hstart : start ∈ g.nodeIds)
    {s : RunState} (hs : s.stack = []) (h : g.Reached mode ⟨s.begin, start, none, []⟩ c) :
    g.Underway c.state := by
  have hbegin : g.Underway s.begin := fun n hn hexit hmem => by simp [RunState.begin] at hmem
  have hsound := sound_begin (g := g) hs hstart
  induction h with
  | refl => exact hbegin
  | tail hreached hstep ih =>
    cases goes_of_next? hg hb (sound_of_reached hg hb hreached hsound) hstep with
    | onward hn hid hinner hrunning henters hfirst =>
      exact henters.underway_of_inner hg hb hn hinner ih

omit hg in
/-- Entering an end node stores a frame on it. -/
theorem Sound.stored_of_enters (hc : c.Sound g) (hn : n ∈ g.nodes) {pins : FinishPins}
    (hbody : n.body = .finish pins) {exit : Option PinId} {t : RunState}
    (h : g.Enters n c.state (.ok exit) t) : (t.memory.values.get? pins.frame).isSome := by
  have hexit : n.isExit = true := (Node.isExit_iff (hb n hn)).mpr ⟨pins, hbody⟩
  cases h with
  | again idle kept =>
    -- no exit is kept for an end node
    have hinner := (hc.orderly.exits_accounted n hn _ kept).1
    rw [hexit] at hinner
    cases hinner
  | @executing t _ idle new executes =>
    cases executes with
    | @concluding u _ vs _ reads conclude =>
      have hlen := reads.length_eq vs rfl
      simp only [Node.reads, hbody, List.length_singleton] at hlen
      obtain ⟨frame, rfl⟩ := List.length_eq_one_iff.mp hlen
      simp only [Node.conclude, hbody] at conclude
      obtain ⟨-, rfl⟩ := Prod.mk.inj conclude
      rw [RunState.mark]
      split_ifs <;> simp [Memory.store]

/-- **A walk executes an end node exactly if it completes there**, and stores a frame on it. -/
theorem Ends.finish {r : Except RunError (RunStatus × List NodeId)} {t : RunState}
    (h : c.Ends g r t) (hc : c.Sound g) (hunder : g.Underway c.state) (hn : n ∈ g.nodes)
    {pins : FinishPins} (hbody : n.body = .finish pins) :
    (n.id ∈ t.executed ↔ ∃ path, r = .ok (.completed, path ++ [n.id])) ∧
      (n.id ∈ t.executed → (t.memory.values.get? pins.frame).isSome) := by
  have hexit : n.isExit = true := (Node.isExit_iff (hb n hn)).mpr ⟨pins, hbody⟩
  have hno : g.Underway t → (∀ path, r ≠ .ok (.completed, path ++ [n.id])) →
      (n.id ∈ t.executed ↔ ∃ path, r = .ok (.completed, path ++ [n.id])) ∧
        (n.id ∈ t.executed → (t.memory.values.get? pins.frame).isSome) := fun hu hr =>
    ⟨iff_of_false (hu n hn hexit) fun ⟨path, hpath⟩ => hr path hpath,
      fun hmem => absurd hmem (hu n hn hexit)⟩
  cases h with
  | stopped raised => exact hno hunder fun path hr => by simp at hr
  | failed hm hid running enters =>
    exact hno (enters.underway_of_error hg hb hm hunder) fun path hr => by cases hr
  | halted hm hid inner running enters nowhere =>
    exact hno (enters.underway_of_inner hg hb hm inner hunder) fun path hr => by simp at hr
  | @completed m t exit hm hid outer running enters =>
    have hsame : n.id ∈ t.executed → n = m := fun hmem =>
      hg.eq_of_id hn hm (enters.executed_of_ok hg hb hm hunder hn hexit hmem)
    refine ⟨⟨fun hmem => ⟨c.path, by rw [hsame hmem, hid]⟩, ?_⟩, fun hmem => ?_⟩
    · rintro ⟨path, hpath⟩
      obtain ⟨-, hpath⟩ := Prod.mk.inj (Except.ok.inj hpath)
      have hlast : c.node = n.id := by simpa using congrArg List.getLast? hpath
      obtain rfl := hg.eq_of_id hn hm (hlast.symm.trans hid.symm)
      exact (hc.entered hg hb hm enters).executed (List.mem_append_right _ List.mem_cons_self)
    · obtain rfl := hsame hmem
      exact hc.stored_of_enters hb hn hbody enters

end FlowPoint

namespace Graph

variable {g : Graph}

/-! ## Runs -/

/-- **A run executes an end node exactly if it completes there**, and then a frame is stored on it. -/
theorem runFrom_finish (hg : g.WellFormed) (hb : g.IsBuiltin) (mode : RunMode) {start : NodeId}
    (hstart : start ∈ g.nodeIds) {s : RunState} (hs : s.stack = []) {n : Node} (hn : n ∈ g.nodes)
    {pins : FinishPins} (hbody : n.body = .finish pins) :
    (n.id ∈ (g.runFrom mode start s).2.executed ↔
      ∃ report, (g.runFrom mode start s).1 = .ok report ∧ report.status = .completed ∧
        report.path.getLast? = some n.id) ∧
    (n.id ∈ (g.runFrom mode start s).2.executed →
      ((g.runFrom mode start s).2.memory.values.get? pins.frame).isSome) := by
  obtain ⟨d, r, t, hreached, hsound, -, hends, hrun⟩ := runFrom_spec hg hb mode hstart hs
  have hunder := FlowPoint.underway_of_reached hg hb hstart hs hreached
  obtain ⟨hiff, hstored⟩ := hends.finish hg hb hsound hunder hn hbody
  rw [hrun]
  cases r with
  | error e => exact ⟨hiff.trans (by simp [conclusion]), hstored⟩
  | ok outcome =>
    obtain ⟨status, path⟩ := outcome
    refine ⟨hiff.trans ?_, hstored⟩
    simp [conclusion, List.getLast?_eq_some_iff]

end Graph

end Patchbay
