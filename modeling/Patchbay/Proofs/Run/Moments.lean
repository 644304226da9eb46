import Patchbay.Proofs.Run.Acts
import Patchbay.Proofs.Run.Errors

/-!
# The moments of a run

`Graph.Moment` tells which states a run passes through: those in which flow is about to step into a node,
those in which a node at work asks for its data, however deeply nested, those that a demand in vain leaves,
and the state at the end.

`Moment.courses` is about each of them: a course without requests to stop leads from the beginning of the run
to it, and another one on to the end.
-/

namespace Patchbay

open Patchbay.Action RunM

namespace Graph

variable {g : Graph} {mode : RunMode} {c d : FlowPoint}

/-! ## From point to point -/

/-- Flow gets from one point to the next by a step of the walk. -/
theorem steps_iff_next? : g.Steps (g.stepInto mode) c d ↔ g.next? mode c = some d := by
  constructor
  · rintro ⟨running, node, steps, goes⟩
    obtain ⟨hexit, p, rfl, hfollow⟩ := aftermath_eq_onward.mp goes
    simp [next?, running, node, steps, hexit, hfollow]
  · intro h
    cases hstopped : c.state.stopped with
    | true => simp [next?, hstopped] at h
    | false =>
      cases hnode : g.node? c.node with
      | none => simp [next?, hstopped, hnode] at h
      | some n =>
        rcases hstep : g.stepInto mode n c.entry c.state with ⟨e | _ | p, t⟩
        · simp [next?, hstopped, hnode, hstep] at h
        · simp [next?, hstopped, hnode, hstep] at h
        · cases hexit : n.isExit with
          | true => simp [next?, hstopped, hnode, hstep, hexit] at h
          | false =>
            rcases hfollow : g.follow c.node p with e | _ | ⟨m, q⟩
            · simp [next?, hstopped, hnode, hstep, hexit, hfollow] at h
            · simp [next?, hstopped, hnode, hstep, hexit, hfollow] at h
            · simp only [next?, hstopped, hnode, hstep, hexit, hfollow, Bool.false_eq_true, if_false,
                Option.some.injEq] at h
              subst h
              exact .onward hstopped hnode hstep (aftermath_eq_onward.mpr ⟨hexit, p, rfl, hfollow⟩)

/-- Flow comes from one point to another by steps of the walk. -/
theorem Reached.comes (h : g.Reached mode c d) : g.Comes (g.stepInto mode) c d := by
  induction h with
  | refl => exact .refl
  | tail _ hstep ih => exact .tail ih (steps_iff_next?.mpr hstep)

/-- A walk ends after its first step or goes on from the next point. -/
theorem walkBy_after {n : Node} {r : Except RunError (Option PinId)} {t : RunState}
    (hrunning : c.state.stopped = false) (hnode : g.node? c.node = some n)
    (hstep : g.stepInto mode n c.entry c.state = (r, t)) (k : Nat) :
    (g.walkBy (g.stepInto mode) (k + 1) c).2 = t ∨ ∃ d, g.next? mode c = some d ∧ d.state = t ∧
      g.walkBy (g.stepInto mode) (k + 1) c = g.walkBy (g.stepInto mode) k d := by
  rw [walkBy]
  simp only [hrunning, hnode, hstep, Bool.false_eq_true, if_false]
  cases haftermath : g.aftermath c n r t with
  | ends r => exact .inl rfl
  | onward next pin =>
    exact .inr ⟨_, steps_iff_next?.mp (.onward hrunning hnode hstep haftermath), rfl, rfl⟩

variable (hg : g.WellFormed) (hb : g.IsBuiltin)
include hg hb

/-- **A walk is a course**, as far as it goes. -/
theorem walkBy_course (k : Nat) (hc : c.Sound g) :
    g.Course c.state false (g.walkBy (g.stepInto mode) k c).2 := by
  induction k generalizing c with
  | zero => exact .here
  | succ k ih =>
    cases hrunning : c.state.stopped with
    | true =>
      rw [walkBy_of_stopped hrunning]
      exact .here
    | false =>
      obtain ⟨n, hn, hid⟩ := mem_nodeIds.mp hc.present
      obtain ⟨r, t, hstep, henters⟩ := stepInto_enters hg hb mode hc.orderly hn hc.accounted c.entry
      have hcourse := henters.course hb hc hn
      rcases walkBy_after hrunning (hid ▸ hg.node?_of_mem hn) hstep k with hend | ⟨d, hnext, rfl, hrest⟩
      · exact hend ▸ hcourse
      · rw [hrest]
        exact hcourse.trans (ih ((FlowPoint.goes_of_next? hg hb hc hnext).sound hg hb hc))

/-- What follows a step of a walk is a course. -/
theorem walkBy_course_after (hc : c.Sound g) {n : Node} {r : Except RunError (Option PinId)} {t : RunState}
    (hrunning : c.state.stopped = false) (hnode : g.node? c.node = some n)
    (hstep : g.stepInto mode n c.entry c.state = (r, t)) (k : Nat) :
    g.Course t false (g.walkBy (g.stepInto mode) (k + 1) c).2 := by
  rcases walkBy_after hrunning hnode hstep k with hend | ⟨d, hnext, rfl, hrest⟩
  · exact hend ▸ .here
  · rw [hrest]
    exact walkBy_course hg hb k ((FlowPoint.goes_of_next? hg hb hc hnext).sound hg hb hc)

/-! ## Demands -/

/-- Once a node has asked for its data, the rest of a demand for a pin that waits for it is a course. -/
theorem course_of_gathers {depth : Nat} {s t : RunState} {p : Pin} {n : Node} (hawaits : g.Awaits s p n)
    (hidle : n.id ∉ s.stack) {r : Except RunError (List Value)}
    (hgathers : n.Gathers (g.pull mode depth) (s.push n.id) r t)
    (hpulls : g.Pulls (s.begun n.id) n.reads r t) :
    g.Course t false (g.pull mode (depth + 1) p s).2 := by
  have hbuiltin := hb n hawaits.mem
  have hbusy := (hawaits.due hidle).busy (hpulls.grows hb)
  rw [pull]
  cases r with
  | error e =>
    rw [pullWith_failing (fun n => n.execute g mode (g.pull mode depth) none) hg hawaits hidle
      (hgathers.execute_error g mode hbuiltin none)]
    exact Course.here.acts (.abandons hbusy)
  | ok vs =>
    have hlen := hpulls.length_eq vs rfl
    obtain ⟨exit, u, hconclude, -, -⟩ := Node.conclude_spec g hbuiltin hlen t
    obtain ⟨v, -, hpull⟩ := pullWith_supplied (fun n => n.execute g mode (g.pull mode depth) none) hg
      hawaits hidle ((hgathers.execute_ok g mode hbuiltin none).trans hconclude)
    rw [hpull]
    exact Course.here.acts (.supplies hbusy (hawaits.not_isExit hb) hlen hconclude)

omit hg in
/-- The same holds of a node that flow has entered. -/
theorem stepInto_course_of_gathers (hc : c.Sound g) {n : Node} (hn : n ∈ g.nodes)
    (hidle : n.id ∉ c.state.stack) (hnew : c.state.pulledExits.get? n.id = none)
    {r : Except RunError (List Value)} {t : RunState}
    (hgathers : n.Gathers (g.pull mode g.pullDepth) (c.state.push n.id) r t)
    (hpulls : g.Pulls (c.state.begun n.id) n.reads r t) :
    g.Course t false (g.stepInto mode n c.entry c.state).2 := by
  have hpush : (c.state.push n.id).pulledExits.get? n.id = none := hnew
  rw [stepInto, bind_ok (enter_of_not_mem n.id c.state hidle), get_bind_apply]
  simp only [hpush]
  cases r with
  | error e =>
    have hfails : g.executeNode mode n c.entry (c.state.push n.id) = (.error e, t) :=
      hgathers.execute_error g mode (hb n hn) c.entry
    rw [bind_error hfails]
    exact .here
  | ok vs =>
    obtain ⟨exit, u, hconclude, -, -⟩ := Node.conclude_spec g (hb n hn) (hpulls.length_eq vs rfl) t
    have hexecute : g.executeNode mode n c.entry (c.state.push n.id) = (.ok exit, u) :=
      (hgathers.execute_ok g mode (hb n hn) c.entry).trans hconclude
    rw [bind_ok hexecute]
    exact Course.here.acts (Pulls.act_concludes hb hc hn hidle hnew hpulls hconclude)

section Answerable

variable (mode) {depth : Nat} {s : RunState} {p : Pin} {ps : List Pin}

/-- **A demand is a course.** -/
theorem Answerable.course (h : g.Answerable depth s ps) :
    g.Course s false (ps.mapM (g.pull mode depth) s).2 := by
  obtain ⟨r, t, hr, hpulls⟩ := mapM_pull hg hb mode depth s ps h.subset h.nodup h.stack_subset h.room
  rw [hr]
  exact hpulls.course hb

theorem Answerable.course_head (h : g.Answerable depth s (p :: ps)) :
    g.Course s false (g.pull mode depth p s).2 :=
  (h.pulls hg hb mode).course hb

omit hg hb in
/-- Once the first pin has its value, the others are asked for. -/
theorem mapM_cons_snd {α β : Type} {f : α → RunM β} {a : α} {as : List α} {s t : RunState} {b : β}
    (h : f a s = (.ok b, t)) : ((a :: as).mapM f s).2 = (as.mapM f t).2 := by
  rw [List.mapM_cons, bind_ok h]
  rcases hrest : as.mapM f t with ⟨e | bs, u⟩
  · rw [bind_error hrest]
  · rw [bind_ok hrest]
    rfl

/-- What follows the demand for the first pin is a course. -/
theorem Answerable.course_tail (h : g.Answerable depth s (p :: ps)) :
    g.Course (g.pull mode depth p s).2 false ((p :: ps).mapM (g.pull mode depth) s).2 := by
  rcases hpull : g.pull mode depth p s with ⟨e | v, t⟩
  · rw [List.mapM_cons, bind_error hpull]
    exact .here
  · rw [mapM_cons_snd hpull]
    exact (h.next hg hb mode hpull).course mode hg hb

end Answerable

/-! ## Moments -/

omit hg hb

/-- A state that the run from `start` that begins in state `s` passes through. -/
inductive Moment (g : Graph) (mode : RunMode) (start : NodeId) (s : RunState) : RunState → Prop
  /-- Flow is about to step into a node. -/
  | flow {c : FlowPoint} (reached : g.Reached mode ⟨s.begin, start, none, []⟩ c) :
      Moment g mode start s c.state
  /-- A node at work is about to ask for a pin, or has asked for all of its pins. -/
  | asking {depth : Nat} {t : RunState} {ps : List Pin} (asks : g.Asks mode start s depth t ps) :
      Moment g mode start s t
  /-- A pin has been asked for in vain. -/
  | refused {depth : Nat} {t u : RunState} {p : Pin} {ps : List Pin} {e : RunError}
      (asks : g.Asks mode start s depth t (p :: ps)) (fails : g.pull mode depth p t = (.error e, u)) :
      Moment g mode start s u
  /-- The run is over. -/
  | ended : Moment g mode start s (g.runFrom mode start s).2

/-- The walk of the run from `start` that begins in state `s` leaves off in state `t`. -/
def LeavesOff (g : Graph) (mode : RunMode) (start : NodeId) (s t : RunState) : Prop :=
  (g.walkBy (g.stepInto mode) g.stepLimit ⟨s.begin, start, none, []⟩).2 = t

section Moments

variable {start : NodeId} (hstart : start ∈ g.nodeIds) {s : RunState} (hs : s.stack = [])
include hb hstart hs

/-- Where its walk leaves off, a run changes the bookkeeping alone. -/
theorem exists_leavesOff (mode : RunMode) :
    ∃ w, g.LeavesOff mode start s w ∧ w.SameValues (g.runFrom mode start s).2 := by
  have hopening : g.opening (g.conduct mode) s = s.begin :=
    (Prod.mk.inj ((forM_reset_eq g.nodes s.begin).symm.trans (forM_reset hb s.begin))).2
  rcases hwalk : g.walkBy (g.stepInto mode) g.stepLimit ⟨s.begin, start, none, []⟩ with ⟨r, w⟩
  refine ⟨w, by rw [LeavesOff, hwalk], ?_⟩
  rw [runFrom_eq_runBy, runBy_eq g _ _ hs (hasNode_iff.mpr hstart), hopening,
    show (g.conduct mode).step = g.stepInto mode from rfl, hwalk]
  cases r <;> exact ⟨rfl, rfl, rfl⟩

variable {w : RunState} (hw : g.LeavesOff mode start s w)
include hg hw

/-- At every point that flow reaches, there is room for another step of the walk. -/
theorem LeavesOff.of_reached (h : g.Reached mode ⟨s.begin, start, none, []⟩ c) :
    ∃ k, (g.walkBy (g.stepInto mode) (k + 1) c).2 = w := by
  obtain ⟨j, hlength, hwalk⟩ := (Reached.comes h).walkBy_add
  have hpath := (FlowPoint.sound_of_reached hg hb h (FlowPoint.sound_begin hs hstart)).length_path_le
  have hlimit : g.stepLimit = (g.nodes.length - j + (extraSteps - 1) + 1) + j := by
    simp only [List.length_nil, Nat.zero_add] at hlength
    rw [stepLimit, extraSteps]
    omega
  rw [LeavesOff, hlimit, hwalk] at hw
  exact ⟨_, hw⟩

/-- **Courses lead to every point that flow reaches**, and on to the end. -/
theorem courses_of_reached (h : g.Reached mode ⟨s.begin, start, none, []⟩ c) :
    g.Course s.begin false c.state ∧ g.Course c.state false w := by
  have hbegin := FlowPoint.sound_begin (g := g) hs hstart
  have hsound := FlowPoint.sound_of_reached hg hb h hbegin
  obtain ⟨j, -, hwalk⟩ := (Reached.comes h).walkBy_add
  obtain ⟨k, hend⟩ := hw.of_reached hg hb hstart hs h
  refine ⟨?_, hend ▸ walkBy_course hg hb _ hsound⟩
  have hstate : (g.walkBy (g.stepInto mode) (0 + j) ⟨s.begin, start, none, []⟩).2 = c.state := by
    rw [hwalk 0]
    rfl
  exact hstate ▸ walkBy_course hg hb (0 + j) hbegin

/-- **Courses lead to every demand of a run**, and from where it has been met to the end. -/
theorem Asks.courses {depth : Nat} {t : RunState} {ps : List Pin} (h : g.Asks mode start s depth t ps) :
    g.Course s.begin false t ∧
      g.Course (ps.mapM (g.pull mode depth) t).2 false w := by
  induction h with
  | @entered c n reached running found idle new =>
    obtain ⟨hn, hid⟩ := node?_some found
    have hc := FlowPoint.sound_of_reached hg hb reached (FlowPoint.sound_begin hs hstart)
    have hanswerable := (Asks.entered reached running found idle new).answerable hg hb mode hstart hs
    obtain ⟨r, t, hr, hpulls⟩ := mapM_pull hg hb mode g.pullDepth _ _ hanswerable.subset hanswerable.nodup
      hanswerable.stack_subset hanswerable.room
    have hfirst := (courses_of_reached hg hb hstart hs hw reached).1
    refine ⟨hfirst.acts (.begins (hc.due hn idle new)), ?_⟩
    obtain ⟨k, hend⟩ := hw.of_reached hg hb hstart hs reached
    rw [hr, ← hend]
    exact (stepInto_course_of_gathers hb hc hn idle new hr hpulls).trans
      (walkBy_course_after hg hb hc running found rfl k)
  | @next depth t u p ps v asks value ih =>
    obtain ⟨hfirst, hlast⟩ := ih
    have hhead := (asks.answerable hg hb mode hstart hs).course_head mode hg hb
    rw [value] at hhead
    rw [mapM_cons_snd value] at hlast
    exact ⟨hfirst.trans hhead, hlast⟩
  | @nested depth t p ps i n asks source unpublished owner found idle unexecuted ih =>
    obtain ⟨hfirst, hlast⟩ := ih
    have hanswerable := asks.answerable hg hb mode hstart hs
    have hn := (node?_some found).1
    obtain ⟨m, q, hsupplies, rfl⟩ :=
      hg.supplies_of_sourceOf? (hanswerable.subset List.mem_cons_self) source
    obtain rfl : m = n := by
      rw [hg.owner?_of_mem hsupplies.mem hsupplies.owns, Option.some.injEq] at owner
      exact hg.eq_of_id hsupplies.mem hn owner
    have hdue : g.Due t m := ⟨hn, idle, unexecuted⟩
    have hinner := hanswerable.nested hdue
    obtain ⟨r, u, hr, hpulls⟩ := mapM_pull hg hb mode depth _ _ hinner.subset hinner.nodup
      hinner.stack_subset hinner.room
    refine ⟨hfirst.acts (.begins hdue), ?_⟩
    rw [hr]
    have hpull := course_of_gathers hg hb ⟨q, hsupplies, unpublished, unexecuted⟩ idle hr hpulls
    exact (hpull.trans (hanswerable.course_tail mode hg hb)).trans hlast

omit hw in
/-- **Courses lead to every moment of a run**, and on to its end. -/
theorem Moment.courses {u : RunState} (h : g.Moment mode start s u) :
    ∃ v w, v.SameValues u ∧ w.SameValues (g.runFrom mode start s).2 ∧ g.Course s.begin false v ∧
      g.Course v false w := by
  obtain ⟨w, hw, hsame⟩ := exists_leavesOff hb hstart hs mode
  cases h with
  | flow reached => exact ⟨_, w, .refl _, hsame, courses_of_reached hg hb hstart hs hw reached⟩
  | asking asks =>
    obtain ⟨hfirst, hlast⟩ := asks.courses hg hb hstart hs hw
    exact ⟨_, w, .refl _, hsame, hfirst,
      ((asks.answerable hg hb mode hstart hs).course mode hg hb).trans hlast⟩
  | @refused depth t _ p ps e asks fails =>
    obtain ⟨hfirst, hlast⟩ := asks.courses hg hb hstart hs hw
    have hanswerable := asks.answerable hg hb mode hstart hs
    have hhead := hanswerable.course_head mode hg hb
    have htail := hanswerable.course_tail mode hg hb
    rw [fails] at hhead htail
    exact ⟨u, w, .refl _, hsame, hfirst.trans hhead, htail.trans hlast⟩
  | ended => exact ⟨w, w, hsame, hsame, (courses_of_reached hg hb hstart hs hw .refl).2, .here⟩

end Moments

end Graph

end Patchbay
