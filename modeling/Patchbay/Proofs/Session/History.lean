import Patchbay.Proofs.Session.Reactions
import Patchbay.Proofs.Session.Reserved

/-!
# What an end node shows over a history

A host works on a session: it edits and runs, in any order, and whatever it does may succeed or fail. An end
node shows a frame all the while. `Session.delivered` is the frame that the last run has left that completed
at the end node while its frame pin was linked. **`Session.endFrame_afterAll`**: the end node shows that
frame, whatever else has happened since, and the frame that it showed at first if there was no such run.

In particular, unlinking the frame pin does not make the end node forget. A run that completes there
afterwards leaves the frame of the earlier run, for the node reads it back from its own pin and stores it
once more (`Session.endFrame_of_unlinked`).

The proof goes from event to event (`Session.value_after`). Loading a document empties the memory. But it
also puts new nodes in the place of all others, so an end node that is there in the end was not there
before, and nothing was kept on its pin (`Session.Blank`).
-/

namespace Patchbay

/-- What a host does to a session: an operation, or a run of its own over the graph. -/
inductive Event where
  | operation (op : Operation)
  | runFrom (mode : RunMode) (start : NodeId)

namespace Session

/-- The report of the run that an edit ends with, if it does and the run comes to an end. -/
def reportOf {α : Type} (s : Session) (react : α → Reaction) (x : SessionM α) : Option RunReport :=
  (x s).1.toOption.bind fun a => (react a).report?

/-- The report of the run that an event brings about, if it does and the run comes to an end. -/
def report? (s : Session) : Event → Option RunReport
  | .operation (.insertNode typeName position) => s.reportOf Prod.snd (insertNode typeName position)
  | .operation (.appendNode typeName position) => s.reportOf Prod.snd (appendNode typeName position)
  | .operation (.deleteNode m) => s.reportOf id (deleteNode m)
  | .operation (.link source target) => s.reportOf Prod.snd (link source target)
  | .operation (.linkByName source target) => s.reportOf Prod.snd (linkByName source target)
  | .operation (.unlink l) => s.reportOf id (unlink l)
  | .operation (.setInput m name value) => s.reportOf id (setInput m name value)
  | .operation (.editNode expected m changes) => s.reportOf id (editNode expected m changes)
  | .operation (.changeSetting expected m changes) => s.reportOf id (changeSetting expected m changes)
  | .operation .run => (run s).1.toOption
  | .operation _ => none
  | .runFrom mode start => (s.performRun (s.graph.runFrom mode start)).1.toOption

def after (s : Session) : Event → Session
  | .operation op => s.perform op
  | .runFrom mode start => (s.performRun (s.graph.runFrom mode start)).2

/-- The session after a history. -/
def afterAll (s : Session) (events : List Event) : Session := events.foldl after s

/-- The frame that an end node shows. -/
def endFrame (s : Session) (pins : FinishPins) : Frame := (s.memory.value pins.framePin).toFrame

/-- The event brings about a run that completes at the end node while its frame pin is linked. -/
def Delivers (s : Session) (pins : FinishPins) (e : Event) : Prop :=
  (∃ r ∈ s.report? e, r.EndsAt (s.after e).graph pins) ∧
    (s.after e).graph.isLinked pins.frame = true

instance (s : Session) (pins : FinishPins) (e : Event) : Decidable (s.Delivers pins e) :=
  inferInstanceAs (Decidable (_ ∧ _))

/-- The frame that the last of such runs in a history leaves, if there is one. -/
def delivered (pins : FinishPins) : Session → List Event → Option Frame
  | _, [] => none
  | s, e :: rest =>
    ((s.after e).delivered pins rest).or
      (if s.Delivers pins e then some ((s.after e).endFrame pins) else none)

end Session

/-! ## Histories that leave a pin alone -/

/-- The operation leaves the frame pin of an end node to runs: the host stores no value on it and gives it to
no node of its own, and it does not turn nodes into others. -/
def Operation.Spares (pins : FinishPins) (s : Session) : Operation → Prop
  | .setInput m name _ => ∀ q, Session.namedPin m name .input s = (.ok q, s) → q.id ≠ pins.frame
  | .perform x => (s.performRun x).2.memory.value pins.framePin = s.memory.value pins.framePin
  | .addToGraph m => m.body.isBuiltin = true ∧ ∀ p ∈ m.pins, p.id ≠ pins.frame
  | .updateInGraph _ f => ∀ a, (f a).body.nodeClass = a.body.nodeClass
  | _ => True

/-- The host does its part: it is careful with the graph and leaves the frame pin to runs. -/
def Event.Spares (n : Nat) (pins : FinishPins) (s : Session) : Event → Prop
  | .operation op => op.Careful n s ∧ op.Spares pins s
  | .runFrom _ _ => True

namespace Session

/-- The host does its part each time. -/
def Spares (n : Nat) (pins : FinishPins) : Session → List Event → Prop
  | _, [] => True
  | s, e :: rest => e.Spares n pins s ∧ (s.after e).Spares n pins rest

theorem spares_of_forall {n : Nat} {pins : FinishPins} {events : List Event}
    (h : ∀ e ∈ events, ∀ t, Event.Spares n pins t e) (s : Session) : s.Spares n pins events := by
  induction events generalizing s with
  | nil => trivial
  | cons e rest ih =>
    exact ⟨h e List.mem_cons_self s, ih (fun d hd => h d (List.mem_cons_of_mem _ hd)) _⟩

/-! ## One event -/

variable {n : Nat} {pins : FinishPins} {s : Session} {e : Event}

/-- A run leaves the frame of an end node alone unless it delivers one. -/
theorem runGraph_delivers (hg : s.graph.WellFormed) (hb : s.graph.IsBuiltin)
    (hpins : s.graph.Dedicates pins) :
    s.runGraph.2.memory.value pins.framePin = s.memory.value pins.framePin ∨
      (∃ r, s.runGraph.1 = .ok r ∧ r.EndsAt s.graph pins) ∧ s.graph.isLinked pins.frame = true :=
  (Graph.run_delivers hg hb hpins runMode (s := .initial s.memory) rfl).imp_right And.symm

/-- An edit leaves the frame of an end node alone unless it ends with a run that delivers one. -/
theorem Answers.delivers {α : Type} {react : α → Reaction} {x : SessionM α}
    (h : Answers pins.framePin react x s) (hg : (x s).2.graph.WellFormed)
    (hb : (x s).2.graph.IsBuiltin) (hpins : (x s).2.graph.Dedicates pins) :
    (x s).2.memory.value pins.framePin = s.memory.value pins.framePin ∨
      (∃ r ∈ s.reportOf react x, r.EndsAt (x s).2.graph pins) ∧
        (x s).2.graph.isLinked pins.frame = true := by
  rw [reportOf]
  cases h with
  | failing apply value | quietly apply silent value =>
    rw [apply]
    exact .inl value
  | @running a u apply report value =>
    rw [apply] at hg hb hpins ⊢
    refine (runGraph_delivers (s := u) hg hb hpins).imp (·.trans value) ?_
    rintro ⟨⟨r, hr, hends⟩, hlinked⟩
    exact ⟨⟨r, report.trans (congrArg Except.toOption hr), hends⟩, hlinked⟩

/-- The session has begun anew with the graph of a document. -/
structure Restarts (n : Nat) (pins : FinishPins) (s t : Session) : Prop where
  memory : t.memory = .empty
  /-- The pins of its nodes are new ones. -/
  lacks : s.supply.Passed n pins.frame → t.graph.Lacks n pins t.supply

variable (pins) in
/-- A document is refused, or the session begins anew. -/
theorem adopt_restarts (hs : s.Healthy n) {loading : Except LoadError Loading}
    (hloading : ∀ st, loading = .ok st → ∃ doc, Graph.load s.catalog s.supply doc = .ok st) :
    (adopt .empty loading s).2 = s ∨ s.Restarts n pins (adopt .empty loading s).2 := by
  cases loading with
  | error e => exact .inl rfl
  | ok st =>
    refine .inr ⟨rfl, fun hpassed => ?_⟩
    obtain ⟨doc, hload⟩ := hloading st rfl
    exact (Graph.merge_kept (Graph.lacks_keptByEdits n pins s.catalog)
      ⟨Graph.healthy_empty _ hs.distinct, hpassed, fun _ _ hm => absurd hm List.not_mem_nil⟩ hload).2

/-! Of what else a host can do, nothing stores a value. -/

theorem merge_memory (s : Session) (doc : Json) : (merge doc s).2.memory = s.memory := by
  show (adopt s.memory (s.graph.merge s.catalog s.supply doc) s).2.memory = s.memory
  cases s.graph.merge s.catalog s.supply doc <;> rfl

theorem addToGraph_memory (s : Session) (m : Node) :
    (s.perform (.addToGraph m)).memory = s.memory := by
  simp only [perform]
  split <;> rfl

theorem linkInGraph_memory (s : Session) (source target : PinId) :
    (s.perform (.linkInGraph source target)).memory = s.memory := by
  simp only [perform]
  split <;> rfl

/-- **An event leaves the frame of an end node alone** unless it delivers one, or the session begins anew. -/
theorem value_after (hs : s.Healthy n) (he : e.Spares n pins s) (hg : (s.after e).graph.WellFormed)
    (hb : (s.after e).graph.IsBuiltin) (hpins : (s.after e).graph.Dedicates pins) :
    (s.after e).memory.value pins.framePin = s.memory.value pins.framePin ∨
      s.Delivers pins e ∨ s.Restarts n pins (s.after e) := by
  have hquiet : (s.after e).memory = s.memory →
      (s.after e).memory.value pins.framePin = s.memory.value pins.framePin :=
    congrArg (Memory.value · pins.framePin)
  cases e with
  | runFrom mode start =>
    refine (Graph.runFrom_delivers hg hb hpins mode (s := .initial s.memory) rfl start).imp_right ?_
    rintro ⟨hlinked, r, hr, hends⟩
    exact .inl ⟨⟨r, congrArg Except.toOption hr, hends⟩, hlinked⟩
  | operation op =>
    obtain ⟨-, hspares⟩ := he
    cases op with
    | insertNode typeName position =>
      have hanswers := addNode_answers pins.framePin s .nodeInserted typeName position
      exact (hanswers.delivers hg hb hpins).imp_right .inl
    | appendNode typeName position =>
      have hanswers := addNode_answers pins.framePin s .nodeAppended typeName position
      exact (hanswers.delivers hg hb hpins).imp_right .inl
    | deleteNode m =>
      exact ((deleteNode_answers pins.framePin s m).delivers hg hb hpins).imp_right .inl
    | link source target =>
      exact ((link_answers pins.framePin s source target).delivers hg hb hpins).imp_right .inl
    | linkByName source target =>
      exact ((linkByName_answers pins.framePin s source target).delivers hg hb hpins).imp_right .inl
    | unlink l => exact ((unlink_answers pins.framePin s l).delivers hg hb hpins).imp_right .inl
    | setInput m name value =>
      exact ((setInput_answers pins.framePin s value hspares).delivers hg hb hpins).imp_right .inl
    | editNode expected m changes =>
      have hanswers := change_answers pins.framePin s .paramChanged expected m changes
      exact (hanswers.delivers hg hb hpins).imp_right .inl
    | changeSetting expected m changes =>
      have hanswers := change_answers pins.framePin s .settingChanged expected m changes
      exact (hanswers.delivers hg hb hpins).imp_right .inl
    | load doc =>
      have hload := adopt_restarts pins hs fun st hst => ⟨doc, hst⟩
      exact hload.elim (fun h => .inl (hquiet (congrArg Session.memory h))) (.inr ∘ .inr)
    | loadText text =>
      have hload : (loadText text s).2 = s ∨ s.Restarts n pins (loadText text s).2 :=
        adopt_restarts pins hs fun st hst => Graph.load_of_loadText hst
      exact hload.elim (fun h => .inl (hquiet (congrArg Session.memory h))) (.inr ∘ .inr)
    | run =>
      refine (runGraph_delivers (s := s) hg hb hpins).imp_right ?_
      rintro ⟨⟨r, hr, hends⟩, hlinked⟩
      refine .inl ⟨⟨r, ?_, hends⟩, hlinked⟩
      show (s.runGraph.1.mapError SessionError.run).toOption = some r
      rw [hr]
      rfl
    | perform x => exact .inl hspares
    | merge doc => exact .inl (hquiet (merge_memory s doc))
    | addToGraph m => exact .inl (hquiet (addToGraph_memory s m))
    | linkInGraph source target => exact .inl (hquiet (linkInGraph_memory s source target))
    | wire m => exact .inl (hquiet (wire_memory s m))
    | _ => exact .inl rfl

end Session

/-! ## What histories keep -/

namespace Graph

/-- Sparing histories keep it in healthy graphs. -/
structure KeptByHistory (n : Nat) (pins : FinishPins) (Q : Graph → Supply → Prop) : Prop where
  edits : KeptByEdits .builtin fun g s => g.Healthy n s ∧ Q g s
  /-- The host may bring nodes of its own. -/
  host : ∀ {g g' s} {m : Node}, m.body.isBuiltin = true → (∀ p ∈ m.pins, p.id ≠ pins.frame) →
    g.addNode m = .ok g' → Q g s → Q g' s

variable (n : Nat) (pins : FinishPins)

theorem reserves_keptByHistory : KeptByHistory n pins (Reserves n pins) where
  edits := reserves_keptByEdits n pins
  host hbuiltin hother hadd h := h.addNode hbuiltin hother hadd

theorem lacks_keptByHistory : KeptByHistory n pins (Lacks n pins) where
  edits := lacks_keptByEdits n pins .builtin
  host _ hother hadd h := h.addNode (fun _ => hother) hadd

/-- Identities are not given back. -/
theorem reaches_keptByHistory (s₀ : Supply) : KeptByHistory n pins fun _ s => s₀.Reaches s where
  edits := (healthy_keptByEdits n .builtin).and_of_nodes (fun k h => h.trans ⟨k, rfl⟩) (fun h _ => h)
    fun hcreate _ _ _ h => h.trans (Catalog.create?_spec hcreate).2.between.reaches
  host _ _ _ h := h

end Graph

namespace Session

variable {n : Nat} {pins : FinishPins} {s : Session} {Q : Graph → Supply → Prop}
  (hQ : Graph.KeptByHistory n pins Q) (hs : s.Upholds .builtin fun g u => g.Healthy n u ∧ Q g u)
include hQ hs

theorem after_upholds {e : Event} (he : e.Spares n pins s) :
    (s.after e).Upholds .builtin fun g u => g.Healthy n u ∧ Q g u := by
  cases e with
  | runFrom mode start => exact ⟨hs.catalog, hs.kept⟩
  | operation op =>
    obtain ⟨hcareful, hspares⟩ := he
    refine perform_upholds hQ.edits hs ?_ ?_
    · rintro m graph rfl hgraph
      have hhealthy : s.Healthy n := hs.kept.1
      exact ⟨hhealthy.addToGraph hcareful hgraph, hQ.host hspares.1 hspares.2 hgraph hs.kept.2⟩
    · rintro m f rfl
      exact hQ.edits.assign m (fun a => ⟨(hcareful a).1, (hcareful a).2, hspares a⟩) hs.kept

theorem afterAll_upholds {events : List Event} (hevents : s.Spares n pins events) :
    (s.afterAll events).Upholds .builtin fun g u => g.Healthy n u ∧ Q g u := by
  induction events generalizing s with
  | nil => exact hs
  | cons e rest ih => exact ih (after_upholds hQ hs hevents.1) hevents.2

end Session

/-! ## Histories -/

namespace Session

/-- If the frame pin is yet to be given to a node, nothing is kept on it. -/
def Blank (n : Nat) (pins : FinishPins) (s : Session) : Prop :=
  ¬s.supply.Passed n pins.frame → s.memory.value pins.framePin = .frame .empty

section Event

variable {n : Nat} {pins : FinishPins} {s : Session} {e : Event}
  (hs : s.Upholds .builtin fun g u => g.Healthy n u ∧ g.Reserves n pins u) (he : e.Spares n pins s)
include hs he

theorem reaches_after : s.supply.Reaches (s.after e).supply :=
  (after_upholds (Graph.reaches_keptByHistory n pins s.supply)
    ⟨hs.catalog, hs.kept.1, .refl _⟩ he).kept.2

/-- A pin that has been passed is passed for good. -/
theorem passed_after (hpassed : s.supply.Passed n pins.frame) :
    (s.after e).supply.Passed n pins.frame := by
  have hreaches := reaches_after hs he
  intro i hi hin
  rw [hreaches.draw_eq]
  exact hpassed i (hreaches.le.trans hi) hin

variable (hle : (s.after e).supply.next ≤ n)
  (hlacks : ¬(s.after e).graph.Lacks n pins (s.after e).supply) (hblank : s.Blank n pins)
include hle hlacks hblank

/-- While there may still be the end node, what it shows changes only if a frame is delivered. -/
theorem value_after_of_blank : (s.after e).memory.value pins.framePin = s.memory.value pins.framePin ∨
    s.Delivers pins e := by
  obtain ⟨-, hhealthy, hreserves⟩ := after_upholds (Graph.reserves_keptByHistory n pins) hs he
  have hpins := hreserves.settled.resolve_right hlacks hle
  have hvalue := value_after hs.kept.1 he (hhealthy.wellFormed hle) hreserves.builtin hpins
  rcases hvalue with hsame | hdelivers | hrestarts
  · exact .inl hsame
  · exact .inr hdelivers
  · -- a new graph does not have the end node unless its pins are new, so nothing was on them before
    refine .inl ?_
    rw [hrestarts.memory, hblank fun hpassed => hlacks (hrestarts.lacks hpassed)]
    rfl

theorem blank_after : (s.after e).Blank n pins := by
  intro hpassed
  obtain ⟨-, hhealthy, -⟩ := after_upholds (Graph.reserves_keptByHistory n pins) hs he
  refine ((value_after_of_blank hs he hle hlacks hblank).resolve_right ?_).trans
    (hblank fun h => hpassed (passed_after hs he h))
  -- nothing is delivered to an end node that is not there yet
  rintro ⟨⟨r, -, -, m, hm, hbody, -⟩, -⟩
  refine hpassed fun i hi hin heq => ?_
  have howner := (hhealthy.wellFormed hle).owner?_of_mem hm (Node.framePin_mem hbody)
  have hunused := hhealthy.unused i hi hin
  rw [← heq, show pins.frame = pins.framePin.id from rfl, howner] at hunused
  cases hunused

end Event

variable {n : Nat} {pins : FinishPins}

/-- **What an end node shows.** After any history, an end node shows the frame that was delivered to it last,
or the one that it showed at first if none was. It does not matter what else has happened, nor whether the
frame pin is still linked. -/
theorem endFrame_afterAll {s : Session} {events : List Event}
    (hs : s.Upholds .builtin fun g u => g.Healthy n u ∧ g.Reserves n pins u)
    (hblank : s.Blank n pins) (hevents : s.Spares n pins events)
    (hn : (s.afterAll events).supply.next ≤ n) {m : Node}
    (hm : m ∈ (s.afterAll events).graph.nodes) (hbody : m.body = .finish pins) :
    (s.afterAll events).endFrame pins = (s.delivered pins events).getD (s.endFrame pins) := by
  induction events generalizing s with
  | nil => rfl
  | cons e rest ih =>
    obtain ⟨he, hrest⟩ := hevents
    have hafter := after_upholds (Graph.reserves_keptByHistory n pins) hs he
    have hle : (s.after e).supply.next ≤ n :=
      (afterAll_upholds (Graph.reaches_keptByHistory n pins (s.after e).supply)
        ⟨hafter.catalog, hafter.kept.1, .refl _⟩ hrest).kept.2.le.trans hn
    -- the end node is there in the end
    have hlacks : ¬(s.after e).graph.Lacks n pins (s.after e).supply := fun hlacks =>
      (afterAll_upholds (Graph.lacks_keptByHistory n pins)
        ⟨hafter.catalog, hafter.kept.1, hlacks⟩ hrest).kept.2.absent hn m hm hbody
    have hvalue := value_after_of_blank hs he hle hlacks hblank
    have hlast : (s.afterAll (e :: rest)).endFrame pins =
        ((s.after e).delivered pins rest).getD ((s.after e).endFrame pins) :=
      ih hafter (blank_after hs he hle hlacks hblank) hrest hn hm
    rw [hlast, delivered]
    cases (s.after e).delivered pins rest with
    | some frame => rfl
    | none =>
      by_cases hdelivers : s.Delivers pins e
      · simp [hdelivers]
      · have hsame : (s.after e).endFrame pins = s.endFrame pins :=
          congrArg Value.toFrame (hvalue.resolve_right hdelivers)
        simp [hdelivers, hsame]

theorem afterAll_concat (s : Session) (events : List Event) (e : Event) :
    s.afterAll (events ++ [e]) = (s.afterAll events).after e := by
  rw [afterAll, List.foldl_concat, ← afterAll]

/-- A frame is delivered by the last event, or was before. -/
theorem delivered_concat (s : Session) (events : List Event) (e : Event) :
    s.delivered pins (events ++ [e]) =
      (if (s.afterAll events).Delivers pins e then some ((s.afterAll (events ++ [e])).endFrame pins)
        else none).or (s.delivered pins events) := by
  induction events generalizing s with
  | nil =>
    rw [List.nil_append, delivered, delivered, delivered, Option.none_or, Option.or_none]
    rfl
  | cons d rest ih =>
    rw [List.cons_append, delivered, ih, Option.or_assoc]
    rfl

/-- **What an end node shows after a run that delivers nothing.** In a session that begins with an empty
graph, whatever is done to it, let a run complete at an end node while its frame pin is unlinked. The node
then shows the frame that was delivered to it last, by an earlier run, and an empty frame only if there was
none or that frame was empty. -/
theorem endFrame_of_unlinked (supply : Supply) (pins : FinishPins) (events : List Event) (e : Event)
    (hdraws : ∀ i j, supply.next ≤ i → i < j →
      j < ((new .builtin supply).afterAll (events ++ [e])).supply.next → supply.draw i ≠ supply.draw j)
    (hevents : (new .builtin supply).Spares
      ((new .builtin supply).afterAll (events ++ [e])).supply.next pins (events ++ [e]))
    (hrun : ∃ r ∈ ((new .builtin supply).afterAll events).report? e,
      r.EndsAt ((new .builtin supply).afterAll (events ++ [e])).graph pins)
    (hunlinked : ((new .builtin supply).afterAll (events ++ [e])).graph.isLinked pins.frame = false) :
    ((new .builtin supply).afterAll (events ++ [e])).endFrame pins =
      ((new .builtin supply).delivered pins events).getD .empty := by
  obtain ⟨r, -, -, m, hm, hbody, -⟩ := hrun
  have hstart : Graph.Healthy _ _ _ := Graph.healthy_empty "Untitled" hdraws
  have hnone : (Graph.empty "Untitled").IsBuiltin := fun _ hm => absurd hm List.not_mem_nil
  have hreaches := afterAll_upholds (Graph.reaches_keptByHistory _ pins supply)
    (s := new .builtin supply) ⟨rfl, hstart, .refl _⟩ hevents
  have hreserves := hstart.reserves hreaches.kept.2.le hnone pins
  have hshows := endFrame_afterAll (s := new .builtin supply) ⟨rfl, hstart, hreserves⟩ (fun _ => rfl)
    hevents le_rfl hm hbody
  have hlast : ¬((new .builtin supply).afterAll events).Delivers pins e := by
    rintro ⟨-, hlinked⟩
    rw [← afterAll_concat, hunlinked] at hlinked
    cases hlinked
  rw [hshows, delivered_concat, if_neg hlast]
  rfl

/-! ## A frame from an earlier run -/

/-- The identity at a position of the supply of the example. -/
def exampleDraw (k : Nat) : Uuid := (Supply.countingFrom 0).draw k

/-- The pins of the end node of the example. -/
def exampleFinish : FinishPins := ⟨⟨exampleDraw 3⟩, ⟨exampleDraw 4⟩⟩

/-- A start node leads to an end node, whose frame pin is linked to a picture source of a single pixel. -/
def exampleSetup : List Event :=
  [.operation (.appendNode "Start" .zero), .operation (.appendNode "End" .zero),
    .operation (.appendNode "Mat Source" .zero),
    .operation (.editNode (.builtin .picture) ⟨exampleDraw 5⟩ [.width 1, .height 1]),
    .operation (.linkByName (⟨exampleDraw 0⟩, "Start") (⟨exampleDraw 2⟩, "End")),
    .operation (.linkByName (⟨exampleDraw 5⟩, "Out") (⟨exampleDraw 2⟩, "In"))]

/-- The link to the frame pin is taken out again. -/
def exampleUnlink : Event := .operation (.unlink ⟨exampleDraw 8⟩)

/-- The host stores no value in the example. -/
theorem example_spares {events : List Event}
    (h : events ⊆ exampleSetup ++ [.operation .run, exampleUnlink]) (n : Nat) (s : Session) :
    s.Spares n exampleFinish events := by
  refine spares_of_forall (fun e he t => ?_) s
  have hmem := h he
  simp only [exampleSetup, exampleUnlink, List.cons_append, List.nil_append, List.mem_cons,
    List.not_mem_nil, or_false] at hmem
  rcases hmem with rfl | rfl | rfl | rfl | rfl | rfl | rfl | rfl <;> exact ⟨trivial, trivial⟩

/-- If nothing has been delivered before the link is taken out, a run afterwards shows an empty frame. -/
theorem exampleSetup_empty :
    let s := new .builtin (.countingFrom 0)
    s.delivered exampleFinish (exampleSetup ++ [exampleUnlink]) = none ∧
      (s.afterAll (exampleSetup ++ [exampleUnlink] ++ [.operation .run])).endFrame exampleFinish =
        .empty := by
  have hnext : ((new .builtin (.countingFrom 0)).afterAll
      (exampleSetup ++ [exampleUnlink] ++ [.operation .run])).supply.next = 9 := by
    decide +kernel
  have hnone : (new .builtin (.countingFrom 0)).delivered exampleFinish
      (exampleSetup ++ [exampleUnlink]) = none := by
    decide +kernel
  refine ⟨hnone, (endFrame_of_unlinked (.countingFrom 0) exampleFinish
    (exampleSetup ++ [exampleUnlink]) (.operation .run) ?_ ?_ ?_ ?_).trans (by rw [hnone]; rfl)⟩
  · intro i j _ hij hj
    exact Supply.countingFrom_distinct hij (by omega)
  · exact example_spares (by simp) _ _
  · decide +kernel
  · decide +kernel

/-- If a frame has been delivered before, the run afterwards still shows it. The host has done no more to the
frame pin than to link and unlink it, and yet the pin does not go back to its default. -/
theorem exampleSetup_leftover :
    let s := new .builtin (.countingFrom 0)
    let t := s.afterAll (exampleSetup ++ [.operation .run, exampleUnlink])
    s.Spares 9 exampleFinish (exampleSetup ++ [.operation .run, exampleUnlink] ++ [.operation .run]) ∧
      (t.after (.operation .run)).graph.isLinked exampleFinish.frame = false ∧
      (∃ r ∈ t.report? (.operation .run), r.EndsAt (t.after (.operation .run)).graph exampleFinish) ∧
      ((t.after (.operation .run)).endFrame exampleFinish).isEmpty = false :=
  ⟨example_spares (by simp) _ _, by decide +kernel⟩

end Session

end Patchbay
