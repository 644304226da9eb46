import Patchbay.Proofs.Session.Operations

/-!
# How edits answer

An edit that succeeds is told to the observer, and on its answer the graph may be wired or run. Up to then
the edit has changed the graph, but nothing that is stored on pins; `Session.setInput` alone stores a value.
`Session.Answers` says so of an edit as a whole. So what an edit does to stored values is what the run does
to them that it ends with, if it ends with one.
-/

namespace Patchbay

open Patchbay.Action

/-- The report of the run that followed an edit, if one did and came to an end. -/
def Reaction.report? : Reaction → Option RunReport
  | .ran r => some r
  | _ => none

namespace Session

variable {α β : Type}

/-- What the edit `x` of `s` comes to, as far as pin `p` is concerned. The answer `a` of an edit that succeeds
contains the reaction `react a`. -/
inductive Answers (p : Pin) (react : α → Reaction) (x : SessionM α) (s : Session) : Prop
  | failing {e : SessionError} {t : Session} (apply : x s = (.error e, t))
      (value : t.memory.value p = s.memory.value p)
  /-- The graph is not run. -/
  | quietly {a : α} {t : Session} (apply : x s = (.ok a, t)) (silent : (react a).report? = none)
      (value : t.memory.value p = s.memory.value p)
  /-- The last thing that is done is to run the graph. -/
  | running {a : α} {u : Session} (apply : x s = (.ok a, u.runGraph.2))
      (report : (react a).report? = u.runGraph.1.toOption)
      (value : u.memory.value p = s.memory.value p) : Answers p react x s

variable {p : Pin} {s t : Session}

/-- Only what an edit comes to matters, and what the pin has. -/
theorem Answers.of_eq {react : α → Reaction} {x y : SessionM α} (h : Answers p react x t)
    (happly : y s = x t) (hvalue : t.memory.value p = s.memory.value p) : Answers p react y s := by
  cases h with
  | failing apply value => exact .failing (happly.trans apply) (value.trans hvalue)
  | quietly apply silent value => exact .quietly (happly.trans apply) silent (value.trans hvalue)
  | running apply report value => exact .running (happly.trans apply) report (value.trans hvalue)

/-- An edit that begins by looking at the session. -/
theorem Answers.get_bind {react : α → Reaction} {f : Session → SessionM α}
    (h : Answers p react (f s) s) : Answers p react (get >>= f) s := h.of_eq rfl rfl

/-- An edit that goes on from another session. -/
theorem Answers.set_bind {react : α → Reaction} {x : SessionM α} (h : Answers p react x t)
    (ht : t.memory.value p = s.memory.value p) : Answers p react (set t >>= fun _ => x) s :=
  h.of_eq rfl ht

/-- An edit that adds something to its answer. -/
theorem Answers.map {react : α → Reaction} {x : SessionM α} (h : Answers p react x s) {f : α → β}
    {react' : β → Reaction} (hf : ∀ a, react' (f a) = react a) :
    Answers p react' (x >>= fun a => pure (f a)) s := by
  cases h with
  | failing apply value => exact .failing (bind_error apply) value
  | quietly apply silent value => exact .quietly (bind_ok apply) (hf _ ▸ silent) value
  | running apply report value => exact .running (bind_ok apply) (hf _ ▸ report) value

/-- An edit that is refused. -/
theorem Answers.throw {react : α → Reaction} (e : SessionError) : Answers p react (throw e) s :=
  .failing (throw_apply e s) rfl

@[simp] theorem wire_memory (s : Session) (m : NodeId) : (s.wire m).2.memory = s.memory := by
  rw [wire]
  split <;> rfl

/-- **What telling the observer comes to.** Wiring stores nothing on pins, and a run is the last thing that
is done. -/
theorem Answers.telling {x : SessionM Reaction} {u : Session} {notice : Notice}
    (apply : x s = (.ok (u.tell notice).1, (u.tell notice).2))
    (value : u.memory.value p = s.memory.value p) : Answers p id x s := by
  set told := if u.observer.isSome then { u with notices := u.notices ++ [notice] } else u
    with htold
  have hvalue : told.memory.value p = s.memory.value p := by
    rw [htold]
    split <;> exact value
  simp only [tell, ← htold] at apply
  split at apply
  · exact .quietly apply rfl hvalue
  · have hwired := told.wire_memory notice.node
    split at apply
    all_goals
      rename_i heq
      rw [heq] at hwired
      exact .quietly apply rfl (hwired ▸ hvalue)
  · split at apply
    all_goals
      rename_i heq
      exact .running (u := told) (by rw [apply, heq]) (by rw [heq]; rfl) hvalue

/-! ## Edits -/

section Edits

variable (p s)

theorem announce_answers (kind : ChangeKind) (m : NodeId) : Answers p id (announce kind m) s :=
  .telling rfl rfl

theorem addNode_answers (kind : ChangeKind) (typeName : String) (position : Point) :
    Answers p Prod.snd (addNode kind typeName position) s := by
  refine .get_bind ?_
  simp only
  split
  · exact .throw _
  · split
    · exact .throw _
    · exact .set_bind ((announce_answers p _ kind _).map fun _ => rfl) rfl

theorem deleteNode_answers (m : NodeId) : Answers p id (deleteNode m) s := by
  refine .get_bind ?_
  split
  · exact .throw _
  · exact .telling rfl rfl

theorem link_answers (source target : PinId) : Answers p Prod.snd (link source target) s := by
  refine .get_bind ?_
  simp only
  split
  · exact .throw _
  · refine .set_bind ?_ rfl
    split
    · exact (announce_answers p _ .link _).map fun _ => rfl
    · exact .quietly rfl rfl rfl

/-- Looking up a pin by its name. -/
theorem namedPin_cases (m : NodeId) (name : String) (direction : Direction) :
    (∃ q, s.graph.findPin? m direction name = some q ∧ namedPin m name direction s = (.ok q, s)) ∨
      ∃ e, namedPin m name direction s = (.error e, s) := by
  simp only [namedPin, get_bind_apply, Graph.findPin?]
  cases hnode : s.graph.node? m with
  | none => exact .inr ⟨_, rfl⟩
  | some n =>
    cases hpin : n.findPin? direction name with
    | none => exact .inr ⟨_, by simp only [hpin]; rfl⟩
    | some q => exact .inl ⟨q, hpin, by simp only [hpin]; rfl⟩

/-- An edit that begins by looking up a pin. -/
theorem Answers.namedPin_bind {react : α → Reaction} {m : NodeId} {name : String}
    {direction : Direction} {f : Pin → SessionM α}
    (h : ∀ q, namedPin m name direction s = (.ok q, s) → Answers p react (f q) s) :
    Answers p react (namedPin m name direction >>= f) s := by
  rcases namedPin_cases s m name direction with ⟨q, -, hq⟩ | ⟨e, he⟩
  · exact (h q hq).of_eq (bind_ok hq) rfl
  · exact .failing (bind_error he) rfl

theorem linkByName_answers (source target : NodeId × String) :
    Answers p Prod.snd (linkByName source target) s :=
  .namedPin_bind _ _ fun _ _ => .namedPin_bind _ _ fun _ _ => link_answers p s _ _

theorem unlink_answers (l : LinkId) : Answers p id (unlink l) s := by
  refine .get_bind ?_
  split
  · exact .throw _
  · exact .set_bind (announce_answers p _ .unlink _) rfl

/-- Setting an input stores a value on one pin, and no other has another value after it. -/
theorem setInput_answers {m : NodeId} {name : String} (value : Value)
    (h : ∀ q, namedPin m name .input s = (.ok q, s) → q.id ≠ p.id) :
    Answers p id (setInput m name value) s := by
  refine .namedPin_bind _ _ fun q hq => ?_
  have hvalue : (s.memory.store q.id value).value p = s.memory.value p := by
    rw [Memory.value, Memory.store, Table.get?_set, if_neg (h q hq)]
    rfl
  exact .telling rfl hvalue

theorem change_answers (kind : ChangeKind) (expected : NodeClass) (m : NodeId)
    (changes : List NodeChange) : Answers p id (change kind expected m changes) s := by
  refine .get_bind ?_
  split
  · exact .throw _
  · split
    · exact .set_bind (announce_answers p _ kind m) rfl
    · exact .throw _

end Edits

end Session

end Patchbay
