import Patchbay.Proofs.Run.Transition

/-!
# The acts of a run

Whatever the graph, a run over nodes of the built-in kinds does five things to its state: it begins a node,
gives up one whose data cannot be had, ends one that was executed for its data, ends one that flow entered,
and passes one that has been executed already. `Graph.Act` lists them. A host may ask the run to stop at any
time in between, and each node is then told of it: `Graph.Course` is any sequence of acts with such requests
anywhere among them.

What holds of all courses is shown for one act at a time. An act stores one value at most
(`Act.writes`), and it does so for a node that is at work, on a pin that this node writes. Since a node is at
work once only, no published value is ever replaced (`Course.retains`).

The runs of the program are courses in which nobody is told to stop (`Pulls.course`, `Enters.course`).
-/

namespace Patchbay

open Patchbay.Action RunM

/-! ## Values and bookkeeping -/

namespace RunState

/-- Whatever has been published in state `s` is published in state `t`. -/
def Retains (s t : RunState) : Prop := ∀ i v, s.cache.get? i = some v → t.cache.get? i = some v

/-- The same values are stored and published, and the same nodes have been logged. -/
structure SameValues (s t : RunState) : Prop where
  memory : t.memory = s.memory
  cache : t.cache = s.cache
  log : t.log = s.log

theorem SameValues.refl (s : RunState) : s.SameValues s := ⟨rfl, rfl, rfl⟩

theorem SameValues.trans {s t u : RunState} (h : s.SameValues t) (h' : t.SameValues u) : s.SameValues u :=
  ⟨h'.memory.trans h.memory, h'.cache.trans h.cache, h'.log.trans h.log⟩

theorem sameValues_mark (s : RunState) (n : NodeId) : s.SameValues (s.mark n) := by
  rw [mark]
  split_ifs <;> exact ⟨rfl, rfl, rfl⟩

theorem sameValues_ended (s : RunState) (n : NodeId) : s.SameValues (s.ended n) := by
  have hpop : s.SameValues (s.pop n) := by
    rw [pop]
    split_ifs <;> exact ⟨rfl, rfl, rfl⟩
  exact hpop.trans (sameValues_mark _ n)

theorem sameValues_keepExit (s : RunState) (n : NodeId) (exit : Option PinId) :
    s.SameValues (s.keepExit n exit) := ⟨rfl, rfl, rfl⟩

theorem SameValues.written {ps : List Pin} {s t u : RunState} (h : t.SameValues u)
    (hw : Written ps s t) : Written ps s u := by
  cases hw with
  | nothing values cache => exact .nothing (h.memory ▸ values) (h.cache ▸ cache)
  | stored mem values cache => exact .stored mem (h.memory ▸ values) (h.cache ▸ cache)

end RunState

namespace Node

/-- A node that is told of a stop stores nothing unless it is a transition, which empties its picture. -/
theorem onStop_cases {n : Node} (hn : n.body.isBuiltin = true) (s : RunState) : (n.onStop s).2 = s ∨
    ∃ pins settings, n.body = .transition pins settings ∧
      (n.onStop s).2 = s.stored pins.out (.frame .empty) := by
  rw [onStop]
  cases hbody : n.body with
  | transition pins settings => exact .inr ⟨pins, settings, rfl, rfl⟩
  | scripted type ins outs => simp [hbody, Body.isBuiltin] at hn
  | _ => exact .inl rfl

end Node

/-! ## Acts and courses -/

namespace Graph

/-- One act of a run over nodes of the built-in kinds. -/
inductive Act (g : Graph) (s : RunState) : RunState → Prop
  /-- A node is put onto the call stack, and its execution begins. -/
  | begins {n : Node} (due : g.Due s n) : Act g s (s.begun n.id)
  /-- A node whose data cannot be had is taken off the call stack again. -/
  | abandons {below : List NodeId} {n : Node} (busy : g.Busy below s n) : Act g s (s.ended n.id)
  /-- A node that was executed for its data concludes. -/
  | supplies {below : List NodeId} {n : Node} {vs : List Value} {exit : Option PinId} {t : RunState}
      (busy : g.Busy below s n) (inner : n.isExit = false) (length : vs.length = n.reads.length)
      (concludes : n.conclude g vs s = (.ok exit, t)) : Act g s ((t.ended n.id).keepExit n.id exit)
  /-- A node that flow has entered concludes. If it is an end node, all nodes below it have been executed. -/
  | concludes {below : List NodeId} {n : Node} {vs : List Value} {exit : Option PinId} {t : RunState}
      (busy : g.Busy below s n) (finished : n.isExit = true → below ⊆ s.executed)
      (length : vs.length = n.reads.length) (concludes : n.conclude g vs s = (.ok exit, t)) :
      Act g s (t.mark n.id)
  /-- Flow passes a node that has been executed already. -/
  | passes {n : Node} (mem : n ∈ g.nodes) (idle : n.id ∉ s.stack) (executed : n.id ∈ s.executed) :
      Act g s (s.push n.id)

/-- What a run may do from state `s` on while its host asks it to stop whenever it likes. The flag tells
whether a node has been told of a stop. A node is told before or after it concludes, never in between, because
a transition does not give up its slot while it concludes and other nodes do nothing when they are told. -/
inductive Course (g : Graph) (s : RunState) : Bool → RunState → Prop
  | here : Course g s false s
  | acts {told : Bool} {t u : RunState} (course : Course g s told t) (act : g.Act t u) : Course g s told u
  /-- The host raises the request to stop or takes it back. -/
  | asks {told : Bool} {t : RunState} (course : Course g s told t) (stopped : Bool) :
      Course g s told { t with stopped }
  /-- The host tells a node that the run is being stopped. -/
  | tells {told : Bool} {t : RunState} {n : Node} (course : Course g s told t) (mem : n ∈ g.nodes) :
      Course g s true (n.onStop t).2

theorem Course.trans {g : Graph} {s t u : RunState} {told told' : Bool} (h : g.Course s told t)
    (h' : g.Course t told' u) : g.Course s (told || told') u := by
  induction h' with
  | here => simpa using h
  | acts _ act ih => exact ih.acts act
  | asks _ stopped ih => exact ih.asks stopped
  | tells _ mem ih => simpa using ih.tells mem

/-! ## What courses keep -/

/-- The books are in order, and every node on the call stack has been executed or is at work. -/
structure Tidy (g : Graph) (s : RunState) : Prop extends g.Orderly s where
  working : ∀ n ∈ s.stack, n ∈ s.executed ∨ n ∈ s.log

theorem tidy_begin (g : Graph) {s : RunState} (h : s.stack = []) : g.Tidy s.begin where
  toOrderly := orderly_begin g h
  working _ hn := by simp [RunState.begin, h] at hn

variable {g : Graph} {s t : RunState}

/-- A node that is at work has been logged. -/
theorem Tidy.logged_of_busy {below : List NodeId} {n : Node} (hs : g.Tidy s) (h : g.Busy below s n) :
    n.id ∈ s.log :=
  (hs.working n.id (h.stack ▸ List.mem_append_right _ List.mem_cons_self)).resolve_left h.fresh

section Acts

variable (hb : g.IsBuiltin)
include hb

/-- **Acts keep the books tidy.** -/
theorem Act.tidy (hg : g.WellFormed) (h : g.Act s t) (hs : g.Tidy s) : g.Tidy t := by
  cases h with
  | @begins n due =>
    refine ⟨hs.begun due, fun m hm => ?_⟩
    rcases List.mem_append.mp hm with hm | hm
    · exact (hs.working m hm).imp_right (List.mem_append_left _)
    · exact Or.inr (List.mem_append_right _ hm)
  | @abandons below n busy =>
    refine ⟨busy.orderly_ended (hs.mark n.id), ?_⟩
    rw [busy.ended_eq]
    intro m hm
    exact (hs.working m (busy.stack ▸ List.mem_append_left _ hm)).imp_left (List.mem_append_left _)
  | @supplies below n vs exit u busy inner length concludes =>
    obtain ⟨-, hc⟩ := Node.concludes_of_eq (hb n busy.mem) length concludes
    refine ⟨busy.orderly_supplied hg hb hs.toOrderly inner length concludes, ?_⟩
    rw [(busy.conclude hc inner).ended_eq]
    intro m hm
    refine (hs.working m (busy.stack ▸ List.mem_append_left _ hm)).imp (fun hex => ?_) fun hlog => ?_
    · exact List.mem_append_left _ (hc.executed.symm ▸ hex)
    · exact hc.log.symm ▸ hlog
  | @concludes below n vs exit u busy finished length concludes =>
    obtain ⟨-, hc⟩ := Node.concludes_of_eq (hb n busy.mem) length concludes
    refine ⟨hs.conclude busy finished hc, ?_⟩
    rw [RunState.mark_eq (hc.executed.symm ▸ busy.fresh)]
    intro m hm
    have hm : m ∈ s.stack := by
      rw [hc.stack] at hm
      split_ifs at hm
      · cases hm
      · exact hm
    refine (hs.working m hm).imp (fun hex => ?_) fun hlog => ?_
    · exact List.mem_append_left _ (hc.executed.symm ▸ hex)
    · exact hc.log.symm ▸ hlog
  | @passes n mem idle executed =>
    refine ⟨hs.push mem idle, fun m hm => ?_⟩
    rcases List.mem_append.mp hm with hm | hm
    · exact hs.working m hm
    · exact Or.inl (List.mem_singleton.mp hm ▸ executed)

/-- What an act may do to the values in state `s`: nothing, or it stores a value on a pin that a node at work
writes, and publishes it if that is an output. Nothing has been published there before. -/
inductive Writes (g : Graph) (s t : RunState) : Prop
  | nothing (values : t.memory.values = s.memory.values) (cache : t.cache = s.cache)
  | stored {n : Node} {p : Pin} {v : Value} (mem : n ∈ g.nodes) (logged : n.id ∈ s.log)
      (writes : p ∈ n.writes) (new : s.cache.get? p.id = none)
      (values : t.memory.values = s.memory.values.set p.id v)
      (cache : t.cache = if p.direction = .output then s.cache.set p.id v else s.cache)

variable (hg : g.WellFormed)
include hg

/-- What concluding a node that is at work does to values, whatever bookkeeping follows. -/
theorem Busy.writes {below : List NodeId} {n : Node} {vs : List Value} {exit : Option PinId} {u : RunState}
    (h : g.Busy below s n) (hs : g.Tidy s) (hlen : vs.length = n.reads.length)
    (hconclude : n.conclude g vs s = (.ok exit, u)) (hu : u.SameValues t) :
    s.log ⊆ t.log ∧ g.Writes s t := by
  obtain ⟨-, hc⟩ := Node.concludes_of_eq (hb n h.mem) hlen hconclude
  have hwritten := n.conclude_written g (hb n h.mem) vs s
  rw [hconclude] at hwritten
  refine ⟨(hu.log.trans hc.log) ▸ List.Subset.refl _, ?_⟩
  cases hu.written hwritten with
  | nothing values cache => exact .nothing values cache
  | @stored p v mem values cache =>
    have hnew : s.cache.get? p.id = none := Option.eq_none_iff_forall_ne_some.mpr fun w hw =>
      h.fresh (hs.executed_of_cache hg h.mem (n.writes_subset mem) hw).1
    exact .stored h.mem (hs.logged_of_busy h) mem hnew values cache

/-- **An act stores one value at most, for a node that is at work.** It takes nothing from the log. -/
theorem Act.writes (h : g.Act s t) (hs : g.Tidy s) : s.log ⊆ t.log ∧ g.Writes s t := by
  cases h with
  | begins => exact ⟨List.subset_append_left _ _, .nothing rfl rfl⟩
  | abandons busy =>
    rw [busy.ended_eq]
    exact ⟨List.Subset.refl _, .nothing rfl rfl⟩
  | @supplies below n vs exit u busy inner length concludes =>
    exact busy.writes hb hg hs length concludes
      ((u.sameValues_ended n.id).trans (RunState.sameValues_keepExit _ n.id exit))
  | @concludes below n vs exit u busy finished length concludes =>
    exact busy.writes hb hg hs length concludes (u.sameValues_mark n.id)
  | passes => exact ⟨List.Subset.refl _, .nothing rfl rfl⟩

/-- **Acts replace no published value.** -/
theorem Act.retains (h : g.Act s t) (hs : g.Tidy s) : s.Retains t := by
  intro i v hv
  cases (h.writes hb hg hs).2 with
  | nothing values cache => rw [cache, hv]
  | @stored n p w mem logged writes new values cache =>
    have hne : p.id ≠ i := by
      rintro rfl
      rw [new] at hv
      cases hv
    rw [cache]
    split_ifs
    · rw [Table.get?_set, if_neg hne, hv]
    · exact hv

/-- **Courses keep the books tidy.** -/
theorem Course.tidy {told : Bool} (h : g.Course s told t) (hs : g.Tidy s) : g.Tidy t := by
  induction h with
  | here => exact hs
  | acts _ act ih => exact act.tidy hb hg ih
  | asks _ stopped ih => exact { ih with }
  | @tells _ u n _ mem ih =>
    rcases n.onStop_cases (hb n mem) u with heq | ⟨pins, settings, -, heq⟩
    · rwa [heq]
    · rw [heq]
      exact { ih with }

/-- **Courses replace no published value.** -/
theorem Course.retains {told : Bool} (h : g.Course s told t) (hs : g.Tidy s) : s.Retains t := by
  induction h with
  | here => exact fun _ _ hv => hv
  | acts course act ih =>
    exact fun i v hv => act.retains hb hg (course.tidy hb hg hs) i v (ih i v hv)
  | asks _ stopped ih => exact ih
  | @tells _ u n _ mem ih =>
    rcases n.onStop_cases (hb n mem) u with heq | ⟨pins, settings, -, heq⟩
    · rwa [heq]
    · rw [heq]
      exact ih

/-! ## Runs are courses -/

omit hg in
/-- **Asking for data** is a course. -/
theorem Pulls.course {ps : List Pin} {r : Except RunError (List Value)} (h : g.Pulls s ps r t) :
    g.Course s false t :=
  h.invariant hb (fun _ _ hs hdue => hs.acts (.begins hdue)) (fun _ _ _ hs hbusy => hs.acts (.abandons hbusy))
    (fun _ _ _ _ _ _ hs hbusy hinner hlen hconclude => hs.acts (.supplies hbusy hinner hlen hconclude)) .here

variable {c : FlowPoint} (hc : c.Sound g) {n : Node}
include hc

omit hg in
/-- A node that flow has entered concludes by an act, once its data has come. -/
theorem Pulls.act_concludes (hn : n ∈ g.nodes) (hidle : n.id ∉ c.state.stack)
    (hnew : c.state.pulledExits.get? n.id = none) {vs : List Value} {u : RunState}
    (hreads : g.Pulls (c.state.begun n.id) n.reads (.ok vs) u) {exit : Option PinId}
    (hconclude : n.conclude g vs u = (.ok exit, t)) : g.Act u (t.mark n.id) := by
  have hgrows := hreads.grows hb
  have hfinished : c.state.stack ⊆ u.executed :=
    hc.stack ▸ List.Subset.trans hc.executed hgrows.executed.subset
  exact .concludes ((hc.due hn hidle hnew).busy hgrows) (fun _ => hfinished) (hreads.length_eq vs rfl)
    hconclude

omit hg in
/-- **Entering a node** is a course. -/
theorem Enters.course (hn : n ∈ g.nodes) {r : Except RunError (Option PinId)}
    (h : g.Enters n c.state r t) : g.Course c.state false t := by
  have hbegun : ∀ {vs u}, n.id ∉ c.state.stack → c.state.pulledExits.get? n.id = none →
      g.Pulls (c.state.begun n.id) n.reads vs u → g.Course c.state false u := fun hidle hnew hreads =>
    (Course.here.acts (.begins (hc.due hn hidle hnew))).trans (hreads.course hb)
  cases h with
  | busy => exact .here
  | @again exit idle kept =>
    have hex := (hc.orderly.exits_accounted n hn exit kept).2.2
    have hmark : (c.state.push n.id).mark n.id = c.state.push n.id := by
      simp [RunState.mark, RunState.push, hex]
    rw [hmark]
    exact Course.here.acts (.passes hn idle hex)
  | failing idle new executes =>
    cases executes with
    | failing reads => exact hbegun idle new reads
  | executing idle new executes =>
    cases executes with
    | concluding reads conclude =>
      exact (hbegun idle new reads).acts (Pulls.act_concludes hb hc hn idle new reads conclude)

end Acts

end Graph

end Patchbay
