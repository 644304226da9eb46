import Patchbay.Proofs.Run.Pulls

/-!
# The books of a run

`Graph.Orderly g s` is the invariant of the bookkeeping that flow and pulls share: the call stack,
the log, the nodes recorded as executed, the failures, the published values and the kept exits. It
says that every entry is accounted for, and that nothing is entered twice. A node is only executed
while it is neither on the stack nor recorded as executed, so it is new to the log.

`Pulls.invariant` packages the induction on derivations: what entering a node and leaving it keep,
asking for data keeps. `Orderly` is its first use.
-/

namespace Patchbay

namespace Graph

/-! ## Invariants of asking for data -/

namespace Pulls

variable {g : Graph} {s t : RunState} {ps : List Pin} {r : Except RunError (List Value)}

/-- **What entering and leaving nodes keeps, asking for data keeps.** -/
theorem invariant (hb : g.IsBuiltin) {I : RunState → Prop}
    (enter : ∀ s n, I s → g.Due s n → I (s.begun n.id))
    (abandon : ∀ below s n, I s → g.Busy below s n → I (s.ended n.id))
    (conclude : ∀ below s t n vs exit, I s → g.Busy below s n → n.isExit = false →
      vs.length = n.reads.length → n.conclude g vs s = (.ok exit, t) →
      I ((t.ended n.id).keepExit n.id exit))
    (h : g.Pulls s ps r t) (hs : I s) : I t := by
  induction h with
  | nothing s => exact hs
  | known answer rest ih => exact ih hs
  | cyclic awaits busy => exact hs
  | failing awaits idle reads ih =>
    have hdue := awaits.due idle
    exact abandon _ _ _ (ih (enter _ _ hs hdue)) (hdue.busy (reads.grows hb))
  | @supplied s t u w p ps n vs exit r awaits idle reads hconclude rest ih ih' =>
    have hdue := awaits.due idle
    refine ih' (conclude s.stack t u n vs exit (ih (enter _ _ hs hdue)) ?_ ?_ ?_ hconclude)
    · exact hdue.busy (reads.grows hb)
    · exact awaits.not_isExit hb
    · exact reads.length_eq vs rfl

/-- **What entering and leaving nodes keeps as long as nothing fails, asking for data keeps if it
succeeds.** Concluding may rely on what the values of its reads are known to satisfy. -/
theorem invariant_ok (hb : g.IsBuiltin) {I : RunState → Prop} {V : Pin → Value → Prop}
    (known : ∀ s p v, I s → p ∈ g.pins → g.answer? s p = some v → V p v)
    (enter : ∀ s n, I s → g.Due s n → I (s.begun n.id))
    (conclude : ∀ below s t n vs exit, I s → g.Busy below s n → n.isExit = false →
      List.Forall₂ V n.reads vs → n.conclude g vs s = (.ok exit, t) →
      I ((t.ended n.id).keepExit n.id exit))
    (h : g.Pulls s ps r t) (hs : I s) (hps : ps ⊆ g.pins) :
    ∀ vs, r = .ok vs → I t ∧ List.Forall₂ V ps vs := by
  induction h with
  | nothing s =>
    rintro _ ⟨⟩
    exact ⟨hs, .nil⟩
  | @known s t p ps v r answer rest ih =>
    intro vs hvs
    cases r with
    | error e => cases hvs
    | ok vs' =>
      obtain rfl := Except.ok.inj hvs
      obtain ⟨ht, hall⟩ := ih hs (List.subset_of_cons_subset hps) vs' rfl
      exact ⟨ht, .cons (known s p v hs (hps List.mem_cons_self) answer) hall⟩
  | cyclic awaits busy => rintro _ ⟨⟩
  | failing awaits idle reads ih => rintro _ ⟨⟩
  | @supplied s t u w p ps n vs exit r awaits idle reads hconclude rest ih ih' =>
    have hdue := awaits.due idle
    obtain ⟨ht, hreads⟩ := ih (enter _ _ hs hdue) (reads_subset_pins hdue.mem) vs rfl
    refine ih' (conclude s.stack t u n vs exit ht ?_ ?_ hreads hconclude) hps
    · exact hdue.busy (reads.grows hb)
    · exact awaits.not_isExit hb

end Pulls

/-! ## The invariant -/

/-- The books of a run are in order. -/
structure Orderly (g : Graph) (s : RunState) : Prop where
  /-- No node is on the call stack twice. -/
  stack_nodup : s.stack.Nodup
  stack_subset : s.stack ⊆ g.nodeIds
  /-- No node has been executed twice. -/
  log_nodup : s.log.Nodup
  log_accounted : ∀ n ∈ s.log, n ∈ s.executed ∨ n ∈ s.stack
  /-- No node has failed twice. -/
  failures_nodup : (s.failures.map NodeFailure.node).Nodup
  failures_accounted : ∀ f ∈ s.failures, f.node ∈ s.executed
  /-- Values are published on outputs of nodes that have been executed. -/
  cache_accounted : ∀ i v, s.cache.get? i = some v →
    ∃ n ∈ g.nodes, n.id ∈ s.executed ∧ ∃ p ∈ n.outputs, p.id = i
  /-- Exits are kept for nodes that have been executed and are no end nodes. -/
  exits_accounted : ∀ n ∈ g.nodes, ∀ exit, s.pulledExits.get? n.id = some exit →
    n.isExit = false ∧ n.MayExit exit ∧ n.id ∈ s.executed

/-- The books are in order when a run begins. -/
theorem orderly_begin (g : Graph) {s : RunState} (h : s.stack = []) : g.Orderly s.begin := by
  constructor <;> simp [RunState.begin, h]

namespace Orderly

variable {g : Graph} {s t : RunState} {n : Node} {below : List NodeId} (h : g.Orderly s)
include h

/-- Entering a node keeps the books in order. -/
theorem push (hn : n ∈ g.nodes) (hidle : n.id ∉ s.stack) : g.Orderly (s.push n.id) where
  stack_nodup := by
    show (s.stack ++ [n.id]).Nodup
    rw [← List.concat_eq_append]
    exact h.stack_nodup.concat hidle
  stack_subset := List.append_subset.mpr
    ⟨h.stack_subset, List.cons_subset.mpr ⟨List.mem_map_of_mem hn, List.nil_subset _⟩⟩
  log_nodup := h.log_nodup
  log_accounted m hm := (h.log_accounted m hm).imp_right (List.mem_append_left _)
  failures_nodup := h.failures_nodup
  failures_accounted := h.failures_accounted
  cache_accounted := h.cache_accounted
  exits_accounted := h.exits_accounted

/-- A published value is that of an output of an executed node. -/
theorem executed_of_cache (hg : g.WellFormed) (hn : n ∈ g.nodes) {p : Pin} (hp : p ∈ n.pins)
    {v : Value} (hv : s.cache.get? p.id = some v) : n.id ∈ s.executed ∧ p ∈ n.outputs := by
  obtain ⟨n', hn', hex, q, hq, hid⟩ := h.cache_accounted p.id v hv
  obtain ⟨rfl, rfl⟩ := hg.eq_of_pin hn hn' hp (List.mem_append_right _ hq) hid.symm
  exact ⟨hex, hq⟩

/-- Nothing is published on an unlinked input, so it is answered with what it keeps. -/
theorem answer?_of_unlinked (hg : g.WellFormed) (hb : g.IsBuiltin) {p : Pin} (hp : p ∈ g.pins)
    (hsource : g.sourceOf? p = none) : g.answer? s p = some (s.memory.value p) := by
  have hcache : s.cache.get? p.id = none := by
    cases hcache : s.cache.get? p.id with
    | none => rfl
    | some w =>
      obtain ⟨n, hn, hpn⟩ := List.mem_flatMap.mp hp
      have hout := (h.executed_of_cache hg hn hpn hcache).2
      simp [sourceOf?, Node.direction_of_mem_outputs (hb n hn) hout] at hsource
  rw [answer?, hsource]
  dsimp only
  rw [hcache, Option.getD_none]

/-- If the value of a pin is known, its supplier has been executed. -/
theorem executed_of_answer? (hg : g.WellFormed) {p q : Pin} (hs : g.Supplies p n q) {v : Value}
    (hv : g.answer? s p = some v) : n.id ∈ s.executed := by
  cases hcache : s.cache.get? q.id with
  | some w => exact (h.executed_of_cache hg hs.mem hs.owns hcache).1
  | none =>
    by_contra hex
    simp [answer?, hs.source, hcache, hg.pin?_of_mem hs.mem hs.owns,
      hg.owner?_of_mem hs.mem hs.owns, hex] at hv

/-- A node that is due is new to the log. -/
theorem not_mem_log (hdue : g.Due s n) : n.id ∉ s.log := fun hlog =>
  (h.log_accounted n.id hlog).elim hdue.fresh hdue.idle

/-- Beginning to execute a node that is due keeps the books in order. -/
theorem begun (hdue : g.Due s n) : g.Orderly (s.begun n.id) :=
  { h.push hdue.mem hdue.idle with
    log_nodup := by
      show (s.log ++ [n.id]).Nodup
      rw [← List.concat_eq_append]
      exact h.log_nodup.concat (h.not_mem_log hdue)
    log_accounted := by
      intro m hm
      rcases List.mem_append.mp hm with hm | hm
      · exact (h.log_accounted m hm).imp_right (List.mem_append_left _)
      · exact Or.inr (List.mem_append_right _ hm) }

/-- Recording a node as executed keeps the books in order. -/
theorem mark (n : NodeId) : g.Orderly (s.mark n) := by
  have hmark : ∀ {m}, m ∈ s.executed → m ∈ (s.mark n).executed :=
    fun hm => RunState.mem_mark.mpr (Or.inl hm)
  rw [RunState.mark] at hmark ⊢
  split_ifs at hmark ⊢
  · exact h
  · exact { h with
      log_accounted := fun m hm => (h.log_accounted m hm).imp_left hmark
      failures_accounted := fun f hf => hmark (h.failures_accounted f hf)
      cache_accounted := by
        intro i v hv
        obtain ⟨m, hm, hex, hp⟩ := h.cache_accounted i v hv
        exact ⟨m, hm, hmark hex, hp⟩
      exits_accounted := by
        intro m hm exit hexit
        obtain ⟨hinner, hmay, hex⟩ := h.exits_accounted m hm exit hexit
        exact ⟨hinner, hmay, hmark hex⟩ }

/-- Keeping an exit that the node may have keeps the books in order. -/
theorem keepExit (hg : g.WellFormed) (hn : n ∈ g.nodes) (hex : n.id ∈ s.executed)
    (hinner : n.isExit = false) {exit : Option PinId} (hmay : n.MayExit exit) :
    g.Orderly (s.keepExit n.id exit) :=
  { h with
    exits_accounted := by
      intro m hm e he
      simp only [RunState.keepExit, Table.get?_set] at he
      split_ifs at he with heq
      · obtain rfl := hg.eq_of_id hn hm heq
        exact ⟨hinner, Option.some.inj he ▸ hmay, hex⟩
      · exact h.exits_accounted m hm e he }

/-- Concluding the innermost node keeps the books in order once the node is recorded as executed. An
end node empties the call stack, so the nodes below it must have been executed. -/
theorem conclude (hbusy : g.Busy below s n) (hbelow : n.isExit = true → below ⊆ s.executed)
    (hc : n.Concludes s t) : g.Orderly (t.mark n.id) := by
  have hfresh : n.id ∉ t.executed := hc.executed.symm ▸ hbusy.fresh
  rw [RunState.mark_eq hfresh]
  have hgrow : ∀ {m}, m ∈ s.executed → m ∈ t.executed ++ [n.id] :=
    fun hm => List.mem_append_left _ (hc.executed.symm ▸ hm)
  have hself : n.id ∈ t.executed ++ [n.id] := List.mem_append_right _ List.mem_cons_self
  refine ⟨?_, ?_, hc.log.symm ▸ h.log_nodup, fun m hm => ?_, ?_, fun f hf => ?_,
    fun i v hv => ?_, fun m hm exit he => ?_⟩
  · rw [hc.stack]
    split_ifs
    · exact List.nodup_nil
    · exact h.stack_nodup
  · rw [hc.stack]
    split_ifs
    · exact List.nil_subset _
    · exact h.stack_subset
  · rcases h.log_accounted m (hc.log ▸ hm) with hm | hm
    · exact Or.inl (hgrow hm)
    rw [hc.stack]
    split_ifs with hexit
    · rcases List.mem_append.mp (hbusy.stack ▸ hm) with hm | hm
      · exact Or.inl (hgrow (hbelow hexit hm))
      · exact Or.inl (List.mem_singleton.mp hm ▸ hself)
    · exact Or.inr hm
  · exact hc.failures_nodup h.failures_nodup
      fun f hf heq => hbusy.fresh (heq ▸ h.failures_accounted f hf)
  · rcases hc.failures with heq | ⟨f', hnode, heq⟩
    · exact hgrow (h.failures_accounted f (heq ▸ hf))
    · rcases List.mem_append.mp (heq ▸ hf : f ∈ s.failures ++ [f']) with hf | hf
      · exact hgrow (h.failures_accounted f hf)
      · rw [List.mem_singleton.mp hf, hnode]
        exact hself
  · rcases hc.published i v hv with hv | ⟨p, hp, hpi⟩
    · obtain ⟨m, hm, hex, hp⟩ := h.cache_accounted i v hv
      exact ⟨m, hm, hgrow hex, hp⟩
    · exact ⟨n, hbusy.mem, hself, p, hp, hpi⟩
  · have he' : s.pulledExits.get? m.id = some exit := hc.pulledExits ▸ he
    obtain ⟨hinner, hmay, hex⟩ := h.exits_accounted m hm exit he'
    exact ⟨hinner, hmay, hgrow hex⟩

end Orderly

/-- Leaving the innermost node keeps the books in order once the node is recorded as executed. -/
theorem Busy.orderly_ended {g : Graph} {below : List NodeId} {s : RunState} {n : Node}
    (h : g.Busy below s n) (hs : g.Orderly (s.mark n.id)) : g.Orderly (s.ended n.id) := by
  rw [RunState.mark_eq h.fresh] at hs
  rw [h.ended_eq]
  exact { hs with
    stack_nodup := (List.nodup_append.mp (h.stack ▸ hs.stack_nodup)).1
    stack_subset := fun _ hm => hs.stack_subset (h.stack ▸ List.mem_append_left _ hm)
    log_accounted := by
      intro m hm
      rcases hs.log_accounted m hm with hm | hm
      · exact Or.inl hm
      rcases List.mem_append.mp (h.stack ▸ hm) with hm | hm
      · exact Or.inr hm
      · exact Or.inl (List.mem_append_right _ hm) }

/-- Concluding a node that was executed for its data keeps the books in order. -/
theorem Busy.orderly_supplied {g : Graph} (hg : g.WellFormed) (hb : g.IsBuiltin)
    {below : List NodeId} {s t : RunState} {n : Node} (h : g.Busy below s n) (hs : g.Orderly s)
    (hinner : n.isExit = false) {vs : List Value} (hlen : vs.length = n.reads.length)
    {exit : Option PinId} (hconclude : n.conclude g vs s = (.ok exit, t)) :
    g.Orderly ((t.ended n.id).keepExit n.id exit) := by
  obtain ⟨hmay, hc⟩ := Node.concludes_of_eq (hb n h.mem) hlen hconclude
  have hbusy := h.conclude hc hinner
  have hex : n.id ∈ (t.ended n.id).executed := by
    rw [hbusy.ended_eq]
    exact List.mem_append_right _ List.mem_cons_self
  have hmarked := hs.conclude h (by simp [hinner]) hc
  exact (hbusy.orderly_ended hmarked).keepExit hg h.mem hex hinner hmay

/-- **Asking for data keeps the books in order**, whether it succeeds or not. -/
theorem Pulls.orderly {g : Graph} (hg : g.WellFormed) (hb : g.IsBuiltin) {s t : RunState}
    {ps : List Pin} {r : Except RunError (List Value)} (h : g.Pulls s ps r t) (hs : g.Orderly s) :
    g.Orderly t :=
  h.invariant hb (fun _ _ hs hdue => hs.begun hdue)
    (fun _ _ n hs hbusy => hbusy.orderly_ended (hs.mark n.id))
    (fun _ _ _ _ _ _ hs hbusy hinner hlen hconclude =>
      hbusy.orderly_supplied hg hb hs hinner hlen hconclude) hs

/-- The nodes executed while data was asked for have their exits kept. -/
theorem Pulls.kept {g : Graph} (hb : g.IsBuiltin) {s t : RunState} {ps : List Pin}
    {vs : List Value} (h : g.Pulls s ps (.ok vs) t) (hps : ps ⊆ g.pins) :
    ∀ n ∈ t.executed, n ∈ s.executed ∨ (t.pulledExits.get? n).isSome := by
  refine (h.invariant_ok hb
    (I := fun u => ∀ n ∈ u.executed, n ∈ s.executed ∨ (u.pulledExits.get? n).isSome)
    (V := fun _ _ => True) (fun _ _ _ _ _ _ => trivial) (fun _ _ hu _ => hu) ?_
    (fun n hn => Or.inl hn) hps vs rfl).1
  intro below u w n us exit hu hbusy hexit hall hconclude m hm
  obtain ⟨-, hc⟩ := Node.concludes_of_eq (hb n hbusy.mem) hall.length_eq.symm hconclude
  simp only [(hbusy.conclude hc hexit).ended_eq, RunState.keepExit, Table.get?_set, hc.executed,
    hc.pulledExits, List.mem_append, List.mem_singleton] at hm ⊢
  rcases hm with hm | rfl
  · refine (hu m hm).imp_right fun hsome => ?_
    split_ifs
    · rfl
    · exact hsome
  · simp

/-! ## Executing a node -/

section Executes

variable {g : Graph} (hg : g.WellFormed) (hb : g.IsBuiltin) {s t : RunState} {n : Node}
  (hs : g.Orderly s) (hdue : g.Due s n)
include hg hb hs hdue

/-- The books are in order when executing a node fails. -/
theorem Executes.orderly_of_error {e : RunError} (h : g.Executes n (s.push n.id) (.error e) t) :
    g.Orderly t := by
  cases h with
  | failing reads => exact reads.orderly hg hb (hs.begun hdue)

/-- Executing a node is asking for its data, which keeps the books in order and comes back to the
node, and then concluding it. -/
theorem Executes.spec {exit : Option PinId} (h : g.Executes n (s.push n.id) (.ok exit) t) :
    ∃ u, g.Orderly u ∧ g.Busy s.stack u n ∧ (s.begun n.id).Extends u ∧ n.Concludes u t ∧
      n.MayExit exit ∧ ∀ m ∈ u.executed, m ∈ s.executed ∨ (u.pulledExits.get? m).isSome := by
  cases h with
  | @concluding u _ vs _ reads conclude =>
    obtain ⟨hmay, hc⟩ := Node.concludes_of_eq (hb n hdue.mem) (reads.length_eq vs rfl) conclude
    have hgrows := reads.grows hb
    exact ⟨u, reads.orderly hg hb (hs.begun hdue), hdue.busy hgrows, hgrows, hc, hmay,
      reads.kept hb (reads_subset_pins hdue.mem)⟩

end Executes

end Graph

end Patchbay
