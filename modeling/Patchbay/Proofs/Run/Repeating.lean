import Patchbay.Proofs.Run.Cycles
import Patchbay.Proofs.Run.Errors

/-!
# Asking for the same value again

A demand for a value leaves behind what a second one needs, so the second one looks the value up and executes
nothing. `Graph.Demands` says what the first one comes to. If it gives a value, then the value is known from then
on. It is refused if the node that supplies the value is on the call stack. But if this node is executed and
fails, then it is recorded as executed all the same, and the default of its type stands in for what it has not
published (`Awaits.answer?_ended`).

Between the calls of a host the call stack is empty (`Graph.Resting`), and a node fails only over a cycle of data
links. **`Graph.pull_again_iff`** says that in any such state a demand that gives a value can be repeated, and
that one that fails cannot.
-/

namespace Patchbay

open Patchbay.Action RunM Relation

namespace Graph

/-! ## What a demand comes to -/

/-- What asking for the value of pin `p` comes to, with `execute` to execute the node that supplies it. -/
inductive Demands (g : Graph) (execute : Node → RunM (Option PinId)) (s : RunState) (p : Pin) :
    Except RunError Value → RunState → Prop
  /-- The value is given, and it is known from then on. -/
  | given {v : Value} {t : RunState} (answer : g.answer? t p = some v) : Demands g execute s p (.ok v) t
  /-- The node that supplies the value is on the call stack. -/
  | refused {n : Node} (awaits : g.Awaits s p n) (busy : n.id ∈ s.stack) :
      Demands g execute s p (.error (.cyclic n.id s.stack)) s
  /-- The node that supplies the value is executed and fails. -/
  | failed {n : Node} {e : RunError} {t : RunState} (awaits : g.Awaits s p n) (idle : n.id ∉ s.stack)
      (fails : execute n (s.push n.id) = (.error e, t)) : Demands g execute s p (.error e) (t.ended n.id)

section Demands

variable {g : Graph} (hg : g.WellFormed) {s t : RunState} {p : Pin}
include hg

/-- **Every demand comes to one of these.** -/
theorem demands_of_eq {execute : Node → RunM (Option PinId)} (hp : p ∈ g.pins) {r : Except RunError Value}
    (h : g.pullWith execute p s = (r, t)) : g.Demands execute s p r t := by
  cases hanswer : g.answer? s p with
  | some v =>
    obtain ⟨rfl, rfl⟩ := Prod.mk.inj ((pullWith_known execute hanswer).symm.trans h)
    exact .given hanswer
  | none =>
    obtain ⟨n, hawaits⟩ := hg.awaits_of_answer? hp hanswer
    by_cases hbusy : n.id ∈ s.stack
    · obtain ⟨rfl, rfl⟩ := Prod.mk.inj ((pullWith_busy execute hg hawaits hbusy).symm.trans h)
      exact .refused hawaits hbusy
    · rcases hexecute : execute n (s.push n.id) with ⟨e | exit, u⟩
      · obtain ⟨rfl, rfl⟩ :=
          Prod.mk.inj ((pullWith_failing execute hg hawaits hbusy hexecute).symm.trans h)
        exact .failed hawaits hbusy hexecute
      · obtain ⟨v, hv, hpull⟩ := pullWith_supplied execute hg hawaits hbusy hexecute
        obtain ⟨rfl, rfl⟩ := Prod.mk.inj (hpull.symm.trans h)
        exact .given hv

/-- Once a node has been executed, the value that was waiting for it is known, even if the node has failed: it is
what the node has published, or else the default of its type. -/
lemma Awaits.answer?_ended {n : Node} (h : g.Awaits s p n) (t : RunState) :
    ∃ q, g.Supplies p n q ∧ s.cache.get? q.id = none ∧
      g.answer? (t.ended n.id) p = some (((t.ended n.id).cache.get? q.id).getD q.type.defaultValue) := by
  obtain ⟨q, hs, hcache, -⟩ := h
  have hex : n.id ∈ (t.ended n.id).executed := RunState.mem_mark.mpr (.inr rfl)
  exact ⟨q, hs, hcache, hg.answer?_of_executed hs hex⟩

end Demands

/-! ## Demands that fail -/

section Failing

variable {g : Graph} (hg : g.WellFormed) (hb : g.IsBuiltin) {s t : RunState}
include hg hb

/-- While a node is on the call stack, asking for data publishes nothing on its pins. -/
theorem Pulls.unpublished {ps : List Pin} {r : Except RunError (List Value)} (h : g.Pulls s ps r t)
    {n : Node} (hn : n ∈ g.nodes) {q : Pin} (hq : q ∈ n.pins) :
    n.id ∈ s.stack → s.cache.get? q.id = none → t.cache.get? q.id = none := by
  induction h with
  | nothing s => exact fun _ hnone => hnone
  | known answer rest ih => exact ih
  | cyclic awaits busy => exact fun _ hnone => hnone
  | @failing s t p ps m e awaits idle reads ih =>
    intro hbusy hnone
    rw [((awaits.due idle).busy (reads.grows hb)).ended_eq]
    exact ih (List.mem_append_left _ hbusy) hnone
  | @supplied s t u w p ps m vs exit r awaits idle reads conclude rest ih ih' =>
    intro hbusy hnone
    have hdue := awaits.due idle
    have hgrows := reads.grows hb
    obtain ⟨-, hc⟩ := Node.concludes_of_eq (hb m hdue.mem) (reads.length_eq vs rfl) conclude
    have hended := ((hdue.busy hgrows).conclude hc (awaits.not_isExit hb)).ended_eq
    refine ih' ?_ ?_
    · rw [RunState.keepExit, hended]
      exact hbusy
    · rw [RunState.keepExit, hended]
      -- what is published now is on an output of another node, which was not on the stack
      refine Option.eq_none_iff_forall_ne_some.mpr fun v hv => ?_
      rcases hc.published q.id v hv with hv | ⟨q', hq', hid⟩
      · rw [ih (List.mem_append_left _ hbusy) hnone] at hv
        cases hv
      · obtain ⟨rfl, -⟩ := hg.eq_of_pin hdue.mem hn (List.mem_append_right _ hq') hq hid
        exact idle hbusy

/-- A node that fails on an empty call stack has published nothing, and it fails over a cycle of data links,
which the call stack shows. -/
theorem fails_over_dataLinks (mode : RunMode) {depth : Nat} (hroom : g.nodes.length ≤ depth + 1)
    (hs : s.stack = []) {n : Node} (hdue : g.Due s n) {e : RunError}
    (hfails : n.execute g mode (g.pull mode depth) none (s.push n.id) = (.error e, t)) :
    (∀ q ∈ n.pins, s.cache.get? q.id = none → (t.ended n.id).cache.get? q.id = none) ∧
      ∃ k before loop, e = .cyclic k (before ++ k :: loop) ∧ k ∉ before ∧
        List.IsChain g.DataLink (k :: loop ++ [k]) := by
  have hstack : (s.begun n.id).stack = [n.id] := by rw [RunState.begun_stack, hs, List.nil_append]
  have hreads : g.Pulls (s.begun n.id) n.reads (.error e) t := by
    obtain ⟨r, u, hmap, hpulls⟩ := mapM_pull hg hb mode depth (s.begun n.id) n.reads
      (reads_subset_pins hdue.mem) (by rw [hstack]; exact List.nodup_singleton _)
      (hdue.begun_subset (by rw [hs]; exact List.nil_subset _))
      (by rw [hstack, List.length_singleton]; omega)
    obtain ⟨r', u', hexecute, hruns⟩ := executes_of_pulls hb mode none hdue.mem hmap hpulls
    obtain ⟨rfl, rfl⟩ := Prod.mk.inj (hexecute.symm.trans hfails)
    cases hruns with
    | failing reads => exact reads
  constructor
  · intro q hq hnone
    rw [(hdue.busy (hreads.grows hb)).ended_eq]
    exact hreads.unpublished hg hb hdue.mem hq (by rw [hstack]; exact List.mem_singleton_self _) hnone
  · obtain ⟨k, stack, rfl⟩ := hreads.error_eq e rfl
    have hasking := asking_begun (s := s) hdue.mem (by rw [hs]; exact List.nil_subset _)
    have hshows := (hreads.shows hb hasking k stack rfl).mono fun _ _ hread => hread.dataLink hg hb
    obtain ⟨before, loop, rfl, hfirst, hchain⟩ := hshows.loop
    exact ⟨k, before, loop, rfl, hfirst, hchain⟩

end Failing

/-! ## Between the calls of a host -/

/-- A state that runs and demands for values lead to from a fresh one, whether they succeed or fail. -/
inductive Resting (g : Graph) (mode : RunMode) : RunState → Prop
  | fresh (memory : Memory) : Resting g mode (.initial memory)
  | run {s : RunState} (rests : Resting g mode s) : Resting g mode (g.run mode s).2
  | runFrom {s : RunState} (rests : Resting g mode s) (start : NodeId) :
      Resting g mode (g.runFrom mode start s).2
  | pull {s : RunState} (rests : Resting g mode s) {p : Pin} (mem : p ∈ g.pins) :
      Resting g mode (g.pull mode g.pullDepth p s).2

section Resting

variable {g : Graph} (hg : g.WellFormed) (hb : g.IsBuiltin) {mode : RunMode} {s t : RunState}
include hg hb

/-- The call stack is empty between calls. -/
theorem Resting.stack_eq (h : g.Resting mode s) : s.stack = [] := by
  induction h with
  | fresh memory => rfl
  | run rests ih =>
    rw [Graph.run]
    cases g.checkRunnable with
    | error reason => exact ih
    | ok entry => exact runFrom_stack hg hb mode entry ih
  | runFrom rests start ih => exact runFrom_stack hg hb mode start ih
  | @pull s rests p mem ih =>
    have hanswerable : g.Answerable g.pullDepth s [p] :=
      ⟨List.cons_subset.mpr ⟨mem, List.nil_subset _⟩, by rw [ih]; exact List.nodup_nil,
        by rw [ih]; exact List.nil_subset _, by rw [pullDepth]; omega⟩
    exact (hanswerable.pull hg hb mode).2.trans ih

/-- **Which demands can be repeated.** Between calls, a second demand for the value of a pin executes nothing
and changes nothing. Its outcome is that of the first demand if and only if the first one has given a value,
which it always does if no data links form a cycle. A demand that fails does so over such a cycle, which the call
stack shows, and after that the second one gives the default of the type of the pin that supplies the value. -/
theorem pull_again_iff (hs : g.Resting mode s) {p : Pin} (hp : p ∈ g.pins) {r : Except RunError Value}
    (h : g.pull mode g.pullDepth p s = (r, t)) :
    ∃ r', g.pull mode g.pullDepth p t = (r', t) ∧ (r' = r ↔ ∃ v, r = .ok v) ∧
      ((∀ k, ¬ TransGen g.DataLink k k) → ∃ v, r = .ok v) ∧
      ∀ e, r = .error e → (∃ n q, g.Supplies p n q ∧ r' = .ok q.type.defaultValue) ∧
        ∃ k before loop, e = .cyclic k (before ++ k :: loop) ∧ k ∉ before ∧
          List.IsChain g.DataLink (k :: loop ++ [k]) := by
  obtain ⟨depth, hdepth⟩ : ∃ depth, g.pullDepth = depth + 1 := ⟨g.nodes.length + 4095, rfl⟩
  have hroom : g.nodes.length ≤ depth + 1 := by rw [← hdepth, pullDepth]; omega
  rw [hdepth, pull] at h ⊢
  cases demands_of_eq hg hp h with
  | given answer =>
    refine ⟨_, pullWith_known _ answer, by simp, fun _ => ⟨_, rfl⟩, fun e he => ?_⟩
    cases he
  | refused awaits busy =>
    rw [hs.stack_eq hg hb] at busy
    cases busy
  | @failed n e t awaits idle fails =>
    obtain ⟨hnone, hcycle⟩ :=
      fails_over_dataLinks hg hb mode hroom (hs.stack_eq hg hb) (awaits.due idle) fails
    obtain ⟨q, hsup, hcache, hanswer⟩ := awaits.answer?_ended hg t
    rw [hnone q hsup.owns hcache] at hanswer
    refine ⟨_, pullWith_known _ hanswer, by simp, fun hacyclic => ?_, fun e' he => ?_⟩
    · obtain ⟨k, before, loop, -, -, hchain⟩ := hcycle
      exact absurd (transGen_of_isChain hchain) (hacyclic k)
    · obtain rfl := Except.error.inj he
      exact ⟨⟨n, q, hsup, rfl⟩, hcycle⟩

end Resting

/-- The first picture of the first transition of the loop is demanded twice from a fresh state. The first demand
finds the cycle. The second one gives an empty picture. -/
theorem dataLoop_pulled_twice : dataLoop.WellFormed ∧ dataLoop.IsBuiltin ∧
    (examplePins 20).firstPin ∈ dataLoop.pins ∧ ∃ t,
      dataLoop.pull ⟨false, true⟩ dataLoop.pullDepth (examplePins 20).firstPin (.initial .empty) =
        (.error (.cyclic ⟨Uuid.ofNat 3⟩ [⟨Uuid.ofNat 3⟩, ⟨Uuid.ofNat 2⟩]), t) ∧
      dataLoop.pull ⟨false, true⟩ dataLoop.pullDepth (examplePins 20).firstPin t =
        (.ok (.frame .empty), t) :=
  ⟨dataLoop_wellFormed, pullAhead_isBuiltin, by decide, _, rfl, rfl⟩

/-- After a run of the example without the loop, the first transition is told twice how far it has come. -/
theorem pullAhead_pulled_again : ∃ t,
    pullAhead.pull ⟨false, true⟩ pullAhead.pullDepth (examplePins 20).posPin
      (pullAhead.runFrom ⟨false, true⟩ ⟨Uuid.ofNat 1⟩ (.initial .empty)).2 = (.ok (.float 1), t) ∧
    pullAhead.pull ⟨false, true⟩ pullAhead.pullDepth (examplePins 20).posPin t = (.ok (.float 1), t) := by
  have hrests : pullAhead.Resting ⟨false, true⟩
      (pullAhead.runFrom ⟨false, true⟩ ⟨Uuid.ofNat 1⟩ (.initial .empty)).2 := .runFrom (.fresh .empty) _
  have hvalue : (pullAhead.pull ⟨false, true⟩ pullAhead.pullDepth (examplePins 20).posPin
      (pullAhead.runFrom ⟨false, true⟩ ⟨Uuid.ofNat 1⟩ (.initial .empty)).2).1 = .ok (.float 1) := by
    decide +kernel
  generalize (pullAhead.runFrom ⟨false, true⟩ ⟨Uuid.ofNat 1⟩ (.initial .empty)).2 = s at hrests hvalue ⊢
  have hfirst : pullAhead.pull ⟨false, true⟩ pullAhead.pullDepth (examplePins 20).posPin s =
      (.ok (.float 1), _) := Prod.ext hvalue rfl
  obtain ⟨r', hagain, hiff, -⟩ :=
    pull_again_iff pullAhead_wellFormed pullAhead_isBuiltin hrests (by decide) hfirst
  obtain rfl := hiff.mpr ⟨_, rfl⟩
  exact ⟨_, hfirst, hagain⟩

end Graph

end Patchbay
