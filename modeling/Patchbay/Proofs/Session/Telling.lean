import Patchbay.Proofs.Session.Reactions

/-!
# Edits are told once or not at all

An edit either is refused, and then the session is what it was before, or it succeeds. In that case the
observer is told of it once, with the kind of the edit and the node that it concerns, and the session does
what the observer answers and nothing else: nothing at all, wire that node, or run the graph. What reads or
replaces the graph as a whole tells nobody.

`Edit.Makes` is what each edit does to the graph and to stored values, `Edit.Concerns` which node it
concerns, and `Session.Follows` what the session does after the answer. **`Edit.perform_told`** ties them
together, and `Edit.performAll_heard` is what the observer has heard after a list of edits: the kinds of those
that have succeeded, in order.
-/

namespace Patchbay

open Patchbay.Action

/-! ## Edits -/

/-- An edit that a host asks of a session. -/
inductive Edit where
  | insertNode (typeName : String) (position : Point)
  | appendNode (typeName : String) (position : Point)
  | deleteNode (n : NodeId)
  | link (source target : PinId)
  | linkByName (source target : NodeId × String)
  | unlink (l : LinkId)
  | setInput (n : NodeId) (name : String) (value : Value)
  | editNode (expected : NodeClass) (n : NodeId) (changes : List NodeChange)
  | changeSetting (expected : NodeClass) (n : NodeId) (changes : List NodeChange)

namespace Edit

/-- Performs an edit; of what it answers, only the reaction is of interest here. -/
def perform : Edit → SessionM Reaction
  | insertNode typeName position => do return (← Session.insertNode typeName position).2
  | appendNode typeName position => do return (← Session.appendNode typeName position).2
  | deleteNode n => Session.deleteNode n
  | link source target => do return (← Session.link source target).2
  | linkByName source target => do return (← Session.linkByName source target).2
  | unlink l => Session.unlink l
  | setInput n name value => Session.setInput n name value
  | editNode expected n changes => Session.editNode expected n changes
  | changeSetting expected n changes => Session.changeSetting expected n changes

def kind : Edit → ChangeKind
  | insertNode _ _ => .nodeInserted
  | appendNode _ _ => .nodeAppended
  | deleteNode _ => .nodeDeleted
  | link _ _ | linkByName _ _ => .link
  | unlink _ => .unlink
  | setInput _ _ _ | editNode _ _ _ => .paramChanged
  | changeSetting _ _ _ => .settingChanged

/-- The session `t` is `s` after the edit itself, before anybody has been told. -/
inductive Makes (s : Session) : Edit → Session → Prop
  | added {e : Edit} {typeName : String} {position : Point} {m : Node} {supply : Supply}
    {graph : Graph} (edit : e = .insertNode typeName position ∨ e = .appendNode typeName position)
    (create : s.catalog.create? typeName s.supply.takeNode.1 s.supply.takeNode.2 = some (m, supply))
    (add : s.graph.addNode (m.apply (.position position)) = .ok graph) :
    Makes s e { s with graph, supply }
  | deleted {n : NodeId} (found : n ∈ s.graph.nodeIds) :
    Makes s (.deleteNode n) { s with graph := s.graph.removeNode n, memory := s.memory.release n }
  | linked {source target : PinId} {graph : Graph}
    (link : s.graph.link s.supply.takeLink.1 source target = .ok graph) :
    Makes s (.link source target) { s with graph, supply := s.supply.takeLink.2 }
  | linkedByName {source target : NodeId × String} {p q : Pin} {graph : Graph}
    (exit : s.graph.findPin? source.1 .output source.2 = some p)
    (entrance : s.graph.findPin? target.1 .input target.2 = some q)
    (link : s.graph.link s.supply.takeLink.1 p.id q.id = .ok graph) :
    Makes s (.linkByName source target) { s with graph, supply := s.supply.takeLink.2 }
  | unlinked {l : LinkId} (found : (s.graph.link? l).isSome) :
    Makes s (.unlink l) { s with graph := s.graph.unlink l }
  | stored {n : NodeId} {name : String} {p : Pin} (value : Value)
    (found : s.graph.findPin? n .input name = some p) :
    Makes s (.setInput n name value) { s with memory := s.memory.store p.id value }
  | assigned {e : Edit} {expected : NodeClass} {n : NodeId} {changes : List NodeChange} {m : Node}
    (edit : e = .editNode expected n changes ∨ e = .changeSetting expected n changes)
    (found : s.graph.node? n = some m) (sort : m.body.nodeClass = expected) :
    Makes s e { s with graph := s.graph.updateNode n fun m => m.applyAll changes }

/-- The node that an edit concerns: the new one, the one that is edited, or the one that the link goes
to. -/
def Concerns (s : Session) (n : NodeId) : Edit → Prop
  | insertNode _ _ | appendNode _ _ => n = s.supply.takeNode.1
  | deleteNode m | setInput m _ _ | editNode _ m _ | changeSetting _ m _ => n = m
  | link _ target => s.graph.owner? target = some n
  | linkByName _ target => ∃ q, s.graph.findPin? target.1 .input target.2 = some q ∧
      s.graph.owner? q.id = some n
  | unlink l => ∃ k, s.graph.link? l = some k ∧ k.toNode = n

/-- What an observer is told of an edit that leads from `s` to `t`. The name is the one that the node has
then, or the one that it had if it is deleted. -/
def notice (e : Edit) (s t : Session) (n : NodeId) : Notice :=
  let named := match e with
    | deleteNode _ => s.graph.node? n
    | _ => t.graph.node? n
  ⟨e.kind, (named.map Node.name).getD "", n⟩

end Edit

/-! ## After the answer -/

namespace Session

/-- The session after its observer has been told something, if it has one. -/
def informed (s : Session) (notice : Notice) : Session :=
  if s.observer.isSome then { s with notices := s.notices ++ [notice] } else s

/-- What the session does about node `n` when it has an answer, how it reacts and where that leads. -/
inductive Follows (s : Session) (n : NodeId) : Directive → Reaction → Session → Prop
  | nothing : Follows s n .nothing .nothing s
  | wired {w : Graph.Wired} (wire : s.graph.autoLink n s.supply = .ok w) :
    Follows s n .autoLink (.autoLinked w.wiring) { s with graph := w.graph, supply := w.supply }
  /-- The node is gone, so nothing is done. -/
  | gone (gone : s.graph.node? n = none) : Follows s n .autoLink .nothing s
  | ran {r : RunReport} {t : RunState}
    (run : s.graph.run runMode (.initial s.memory) = (.ok r, t)) :
    Follows s n .runAgain (.ran r) { s with memory := t.memory, notes := s.notes ++ t.notes }
  | failed {e : RunError} {t : RunState}
    (run : s.graph.run runMode (.initial s.memory) = (.error e, t)) :
    Follows s n .runAgain (.runFailed e) { s with memory := t.memory, notes := s.notes ++ t.notes }

/-- **What telling the observer comes to.** -/
theorem tell_follows (s : Session) (notice : Notice) :
    (s.informed notice).Follows notice.node (Observer.answer s.observer notice) (s.tell notice).1
      (s.tell notice).2 := by
  simp only [tell, informed]
  generalize (if s.observer.isSome then { s with notices := s.notices ++ [notice] } else s) = told
  cases Observer.answer s.observer notice with
  | nothing => exact .nothing
  | autoLink =>
    simp only [wire]
    cases hwire : told.graph.autoLink notice.node told.supply with
    | ok w => exact .wired hwire
    | error e =>
      refine .gone ?_
      rw [Graph.autoLink] at hwire
      split at hwire
      · rename_i hnone
        exact hnone
      · cases hwire
  | runAgain =>
    simp only [runGraph, performRun]
    rcases hrun : told.graph.run runMode (.initial told.memory) with ⟨e | r, t⟩
    · exact .failed hrun
    · exact .ran hrun

end Session

namespace Edit

/-! ## What an edit comes to -/

/-- The identity that the next link gets is new to the graph. -/
def LinkIsNew (s : Session) : Prop := ∀ l ∈ s.graph.links, l.id ≠ s.supply.takeLink.1

/-- The action `x` of `s` refuses the edit, or makes it and tells of it. -/
def Performs (e : Edit) (s : Session) (x : SessionM Reaction) : Prop :=
  (∃ refusal, x s = (.error refusal, s)) ∨
    ∃ t n, e.Makes s t ∧ (LinkIsNew s → e.Concerns s n) ∧
      x s = (.ok (t.tell (e.notice s t n)).1, (t.tell (e.notice s t n)).2)

variable {s : Session}

/-- An edit of which only the reaction is taken. -/
theorem performs_map {α : Type} {e : Edit} {x : SessionM (α × Reaction)}
    (h : (∃ refusal, x s = (.error refusal, s)) ∨
      ∃ t n a, e.Makes s t ∧ (LinkIsNew s → e.Concerns s n) ∧
        x s = (.ok (a, (t.tell (e.notice s t n)).1), (t.tell (e.notice s t n)).2)) :
    e.Performs s (x >>= fun a => pure a.2) := by
  rcases h with ⟨refusal, hx⟩ | ⟨t, n, a, hmakes, hconcerns, hx⟩
  · exact .inl ⟨refusal, bind_error hx⟩
  · exact .inr ⟨t, n, hmakes, hconcerns, bind_ok hx⟩

/-- Adding a node. -/
theorem performs_added {e : Edit} {typeName : String} {position : Point}
    (he : e = .insertNode typeName position ∨ e = .appendNode typeName position) :
    e.Performs s (Session.addNode e.kind typeName position >>= fun a => pure a.2) := by
  refine performs_map ?_
  simp only [Session.addNode, get_bind_apply]
  cases hcreate : s.catalog.create? typeName s.supply.takeNode.1 s.supply.takeNode.2 with
  | none => exact .inl ⟨_, rfl⟩
  | some created =>
    obtain ⟨m, supply⟩ := created
    dsimp only
    cases hadd : s.graph.addNode (m.apply (.position position)) with
    | error refusal => exact .inl ⟨_, rfl⟩
    | ok graph =>
      refine .inr ⟨_, s.supply.takeNode.1, s.supply.takeNode.1, .added he hcreate hadd, ?_, ?_⟩
      · rcases he with rfl | rfl <;> exact fun _ => rfl
      · rcases he with rfl | rfl <;> rfl

theorem performs_deleted (n : NodeId) : (deleteNode n).Performs s (Session.deleteNode n) := by
  simp only [Performs, Session.deleteNode, get_bind_apply]
  cases htake : s.graph.takeNode? n with
  | none => exact .inl ⟨_, rfl⟩
  | some taken =>
    obtain ⟨m, graph⟩ := taken
    obtain ⟨hfound, rfl⟩ := Graph.takeNode?_some htake
    refine .inr ⟨_, n, .deleted (Graph.mem_nodeIds.mpr ⟨m, Graph.node?_some hfound⟩),
      fun _ => rfl, ?_⟩
    simp only [notice, hfound]
    rfl

/-- Linking two pins, whichever edit has asked for it. -/
theorem performs_linked {e : Edit} {source target : PinId}
    (hkind : e.notice = (link source target).notice)
    (hmakes : ∀ graph, s.graph.link s.supply.takeLink.1 source target = .ok graph →
      e.Makes s { s with graph, supply := s.supply.takeLink.2 })
    (hconcerns : ∀ n, s.graph.owner? target = some n → e.Concerns s n) :
    (∃ refusal, Session.link source target s = (.error refusal, s)) ∨
      ∃ t n a, e.Makes s t ∧ (LinkIsNew s → e.Concerns s n) ∧
        Session.link source target s =
          (.ok (a, (t.tell (e.notice s t n)).1), (t.tell (e.notice s t n)).2) := by
  simp only [Session.link, get_bind_apply]
  cases hlink : s.graph.link s.supply.takeLink.1 source target with
  | error refusal => exact .inl ⟨_, rfl⟩
  | ok graph =>
    obtain ⟨l, hid, -, howner, hgraph⟩ := Graph.link_owners hlink
    -- the new link is found under its identity, or one that has had the identity before
    obtain ⟨k, hk, hsame⟩ : ∃ k, graph.link? s.supply.takeLink.1 = some k ∧
        (LinkIsNew s → k = l) := by
      rw [hgraph, Graph.link?, List.find?_append]
      cases hold : s.graph.links.find? fun k => k.id == s.supply.takeLink.1 with
      | some k =>
        refine ⟨k, rfl, fun hnew => absurd ?_ (hnew k (List.mem_of_find?_eq_some hold))⟩
        simpa using List.find?_some hold
      | none => exact ⟨l, by simp [hid], fun _ => rfl⟩
    refine .inr ⟨_, k.toNode, s.supply.takeLink.1, hmakes graph hlink,
      fun hnew => hconcerns _ (hsame hnew ▸ howner), ?_⟩
    rw [hkind]
    simp only [set_bind_apply, hk]
    rfl

theorem performs_linkedByName (source target : NodeId × String) :
    (linkByName source target).Performs s ((linkByName source target).perform) := by
  refine performs_map ?_
  simp only [Session.linkByName]
  rcases Session.namedPin_cases s source.1 source.2 .output with ⟨p, hp, hfirst⟩ | ⟨refusal, hfirst⟩
  · rw [bind_ok hfirst]
    rcases Session.namedPin_cases s target.1 target.2 .input with ⟨q, hq, hsecond⟩ | ⟨refusal, hsecond⟩
    · rw [bind_ok hsecond]
      exact performs_linked rfl (fun graph hlink => .linkedByName hp hq hlink)
        fun n hn => ⟨q, hq, hn⟩
    · exact .inl ⟨refusal, bind_error hsecond⟩
  · exact .inl ⟨refusal, bind_error hfirst⟩

theorem performs_unlinked (l : LinkId) : (unlink l).Performs s (Session.unlink l) := by
  simp only [Performs, Session.unlink, get_bind_apply]
  cases hfound : s.graph.link? l with
  | none => exact .inl ⟨_, rfl⟩
  | some k =>
    exact .inr ⟨_, k.toNode, .unlinked (by rw [hfound]; rfl), fun _ => ⟨k, hfound, rfl⟩, rfl⟩

theorem performs_stored (n : NodeId) (name : String) (value : Value) :
    (setInput n name value).Performs s (Session.setInput n name value) := by
  simp only [Performs, Session.setInput]
  rcases Session.namedPin_cases s n name .input with ⟨p, hp, hnamed⟩ | ⟨refusal, hnamed⟩
  · rw [bind_ok hnamed]
    exact .inr ⟨_, n, .stored value hp, fun _ => rfl, rfl⟩
  · exact .inl ⟨refusal, bind_error hnamed⟩

/-- Assigning to fields of a node. -/
theorem performs_assigned {e : Edit} {expected : NodeClass} {n : NodeId} {changes : List NodeChange}
    (he : e = .editNode expected n changes ∨ e = .changeSetting expected n changes) :
    e.Performs s (Session.change e.kind expected n changes) := by
  simp only [Performs, Session.change, get_bind_apply]
  cases hfound : s.graph.node? n with
  | none => exact .inl ⟨_, rfl⟩
  | some m =>
    by_cases hsort : m.body.nodeClass = expected
    · refine .inr ⟨_, n, .assigned he hfound hsort, ?_, ?_⟩
      · rcases he with rfl | rfl <;> exact fun _ => rfl
      · simp only [if_pos hsort]
        rcases he with rfl | rfl <;> rfl
    · exact .inl ⟨.wrongNodeType n, by simp only [if_neg hsort]; rfl⟩

/-- Setting an input stores a value and changes nothing else. -/
theorem Makes.of_setInput {n : NodeId} {name : String} {value : Value} {t : Session}
    (h : (setInput n name value).Makes s t) : ∃ p, s.graph.findPin? n .input name = some p ∧
      t = { s with memory := s.memory.store p.id value } := by
  cases h with
  | stored _ found => exact ⟨_, found, rfl⟩
  | added edit => rcases edit with h | h <;> cases h
  | assigned edit => rcases edit with h | h <;> cases h

/-- Every edit is refused, or made and told. -/
theorem perform_performs (e : Edit) (s : Session) : e.Performs s e.perform := by
  cases e with
  | insertNode typeName position => exact performs_added (.inl rfl)
  | appendNode typeName position => exact performs_added (.inr rfl)
  | deleteNode n => exact performs_deleted n
  | link source target =>
    exact performs_map (performs_linked rfl (fun _ hlink => .linked hlink) fun _ hn => hn)
  | linkByName source target => exact performs_linkedByName source target
  | unlink l => exact performs_unlinked l
  | setInput n name value => exact performs_stored n name value
  | editNode expected n changes => exact performs_assigned (.inl rfl)
  | changeSetting expected n changes => exact performs_assigned (.inr rfl)

/-- The edit itself tells nobody. -/
theorem Makes.untold {e : Edit} {t : Session} (h : e.Makes s t) :
    t.notices = s.notices ∧ t.observer = s.observer := by
  cases h <;> exact ⟨rfl, rfl⟩

end Edit

namespace Session

variable {s u : Session}

theorem informed_notices (s : Session) (notice : Notice) :
    (s.informed notice).notices = s.notices ++ if s.observer.isSome then [notice] else [] := by
  rw [informed]
  split
  · rfl
  · exact (List.append_nil _).symm

/-- Nobody is told of what follows. -/
theorem Follows.untold {n : NodeId} {d : Directive} {r : Reaction} (h : s.Follows n d r u) :
    u.notices = s.notices := by
  cases h <;> rfl

/-- Nobody is told of the action, and if it is refused the session is what it was before. -/
def Quiet {α : Type} (x : SessionM α) (s : Session) : Prop :=
  (x s).2.notices = s.notices ∧ ∀ e, (x s).1 = .error e → (x s).2 = s

theorem adopt_quiet (s : Session) (memory : Memory) (loading : Except LoadError Loading) :
    Quiet (adopt memory loading) s := by
  cases loading with
  | error e => exact ⟨rfl, fun _ _ => rfl⟩
  | ok st => exact ⟨rfl, fun e he => nomatch he⟩

end Session

namespace Edit

/-- **Edits are told once or not at all.** An edit that is refused leaves the session as it was, in every
respect. One that succeeds is told once if there is an observer, with its kind and with the node that it
concerns, and then the session does what the observer answers. Documents that are refused leave the session
as it was as well, and nobody is told of loading, merging, saving or running. -/
theorem perform_told (s : Session) (hnew : LinkIsNew s) :
    (∀ e : Edit, (∃ refusal, e.perform s = (.error refusal, s)) ∨
      ∃ t n r u, e.perform s = (.ok r, u) ∧ e.Makes s t ∧ e.Concerns s n ∧
        u.notices = s.notices ++ (if s.observer.isSome then [e.notice s t n] else []) ∧
        (t.informed (e.notice s t n)).Follows n (Observer.answer s.observer (e.notice s t n)) r u) ∧
      (∀ doc, Session.Quiet (Session.load doc) s) ∧
      (∀ text, Session.Quiet (Session.loadText text) s) ∧
      (∀ doc, Session.Quiet (Session.merge doc) s) ∧
      Session.save s = (.ok (s.graph.save []), s) ∧
      (Session.run s).2.graph = s.graph ∧ (Session.run s).2.notices = s.notices := by
  refine ⟨fun e => (perform_performs e s).imp_right ?_, fun _ => Session.adopt_quiet _ _ _,
    fun _ => Session.adopt_quiet _ _ _, fun _ => Session.adopt_quiet _ _ _, rfl, rfl, rfl⟩
  rintro ⟨t, n, hmakes, hconcerns, hperform⟩
  obtain ⟨hnotices, hobserver⟩ := hmakes.untold
  have hfollows := Session.tell_follows t (e.notice s t n)
  refine ⟨t, n, _, _, hperform, hmakes, hconcerns hnew, ?_, hobserver ▸ hfollows⟩
  rw [hfollows.untold, Session.informed_notices, hnotices, hobserver]

/-- A start node, and an end node whose frame pin is linked to a source. The graph is run after every edit. -/
def rerunning : Session :=
  let setup : SessionM Reaction := do
    let (_, _) ← Session.appendNode "Start" .zero
    let (finish, _) ← Session.appendNode "End" .zero
    let (source, _) ← Session.appendNode "Mat Source" .zero
    return (← Session.linkByName (source, "Out") (finish, "In")).2
  { (setup (.new .builtin (.countingFrom 0))).2 with observer := some fun _ => .runAgain }

/-- The start node is linked to the end node. -/
def joining : Edit :=
  .linkByName (⟨(Supply.countingFrom 0).draw 0⟩, "Start")
    (⟨(Supply.countingFrom 0).draw 2⟩, "End")

theorem rerunning_told : LinkIsNew rerunning ∧ ∃ n r u, joining.perform rerunning = (.ok r, u) ∧
    joining.Concerns rerunning n ∧ r.report?.map RunReport.status = some .completed ∧
      u.notices.map (fun told => (told.kind, told.node)) = [(.link, n)] := by
  have hnew : LinkIsNew rerunning := by
    unfold LinkIsNew
    decide +kernel
  have hran : ((joining.perform rerunning).1.toOption.bind Reaction.report?).map RunReport.status =
      some .completed := by
    decide +kernel
  rcases (perform_told rerunning hnew).1 joining with ⟨refusal, hrefused⟩ |
      ⟨t, n, r, u, hperform, -, hconcerns, hnotices, -⟩
  · rw [hrefused] at hran
    cases hran
  · rw [hperform] at hran
    refine ⟨hnew, n, r, u, hperform, hconcerns, hran, ?_⟩
    rw [hnotices]
    rfl

/-! ## One edit after another -/

/-- The session after edits, each of which is told to an observer of its own. -/
def performAll (s : Session) (steps : List (Option Observer × Edit)) : Session :=
  steps.foldl (fun s step => (step.2.perform { s with observer := step.1 }).2) s

/-- The kinds of the edits that succeed while there is an observer, in order. -/
def heard : Session → List (Option Observer × Edit) → List ChangeKind
  | _, [] => []
  | s, (observer, e) :: rest =>
    let (r, t) := e.perform { s with observer }
    (if observer.isSome && r.toOption.isSome then [e.kind] else []) ++ heard t rest

/-- One edit, whatever comes before or after it. -/
theorem perform_heard (e : Edit) (s : Session) : (e.perform s).2.notices.map Notice.kind =
    s.notices.map Notice.kind ++
      if s.observer.isSome && (e.perform s).1.toOption.isSome then [e.kind] else [] := by
  rcases perform_performs e s with ⟨refusal, hperform⟩ | ⟨t, n, hmakes, -, hperform⟩
  · simp [hperform, Except.toOption]
  · obtain ⟨hnotices, hobserver⟩ := hmakes.untold
    have hfollows := Session.tell_follows t (e.notice s t n)
    rw [hperform, hfollows.untold, Session.informed_notices, hnotices, hobserver]
    cases s.observer <;> simp [Except.toOption, notice]

/-- **What observers have heard after a list of edits**: the kinds of those that have succeeded, in order. It
does not matter what they have answered, nor if that depends on what they have heard before. -/
theorem performAll_heard (s : Session) (steps : List (Option Observer × Edit)) :
    (performAll s steps).notices.map Notice.kind = s.notices.map Notice.kind ++ heard s steps := by
  induction steps generalizing s with
  | nil => exact (List.append_nil _).symm
  | cons step rest ih =>
    obtain ⟨observer, e⟩ := step
    show (performAll (e.perform { s with observer }).2 rest).notices.map Notice.kind = _
    rw [ih, perform_heard, heard, List.append_assoc]
    rfl

end Edit

end Patchbay
