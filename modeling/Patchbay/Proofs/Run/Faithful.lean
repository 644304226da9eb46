import Patchbay.Proofs.Run.Reference
import Patchbay.Proofs.Run.Once

/-!
# Runs compute what the reference computes

`Graph.Faithful g m s` says that everything a run has in state `s` agrees with the reference
evaluated in `m`, the memory before the run: what unlinked inputs keep, what executed nodes have
published and stored, and the exits kept for them. It is an invariant of pulls and of flow. So it does
not matter which of them comes to a node first, nor how often a value is used.

`Graph.runFrom_faithful` puts this together for runs that end with a report.
-/

namespace Patchbay

open Reference

namespace Graph

/-- What an executed node has left behind agrees with the reference, `vs` being what it has read. -/
structure Settled (g : Graph) (m : Memory) (s : RunState) (n : Node) (vs : List Value) : Prop where
  reads : List.Forall₂ (HasValue g m) n.reads vs
  published : ∀ p ∈ n.outputs, s.cache.get? p.id = (n.publishes vs).get? p.id
  stored : ∀ i v, (n.stores vs).get? i = some v → s.memory.values.get? i = some v
  exit : ∀ exit, s.pulledExits.get? n.id = some exit → exit = n.exitOn vs

/-- The state of a run agrees with the reference evaluated in memory `m`. -/
structure Faithful (g : Graph) (m : Memory) (s : RunState) : Prop where
  running : s.stopped = false
  coherent : s.memory.Coherent
  unlinked : ∀ p ∈ g.pins, g.sourceOf? p = none → s.memory.value p = m.value p
  settled : ∀ n ∈ g.nodes, n.id ∈ s.executed → ∃ vs, g.Settled m s n vs

/-- The state in which a run begins agrees with the reference. -/
theorem faithful_begin (g : Graph) {s : RunState} (hrunning : s.stopped = false)
    (hs : s.memory.Coherent) : g.Faithful s.memory s.begin where
  running := hrunning
  coherent := hs
  unlinked _ _ _ := rfl
  settled n _ hex := by simp [RunState.begin] at hex

/-! ## Values -/

section Values

variable {g : Graph} (hg : g.WellFormed) {m : Memory} {s : RunState} {p : Pin} {n : Node} {q : Pin}
include hg

/-- A supplied pin has what its supplier publishes, or a default. -/
theorem Supplies.hasValue (h : g.Supplies p n q) {vs : List Value}
    (hreads : List.Forall₂ (HasValue g m) n.reads vs) :
    HasValue g m p (((n.publishes vs).get? q.id).getD q.type.defaultValue) := by
  obtain ⟨depth, hdepth⟩ := exists_mapM_value hreads
  refine ⟨depth + 1, fun d hd => ?_⟩
  obtain ⟨d, rfl⟩ := Nat.exists_eq_add_of_le' (le_trans (Nat.le_add_left 1 depth) hd)
  simp [value, h.source, hg.pin?_of_mem h.mem h.owns, hg.owner?_of_mem h.mem h.owns,
    hg.node?_of_mem h.mem, hdepth d (Nat.le_of_succ_le_succ hd)]

/-- **Known values are reference values.** -/
theorem Faithful.hasValue_of_answer? (hb : g.IsBuiltin) (hf : g.Faithful m s) (hs : g.Orderly s)
    (hp : p ∈ g.pins) {v : Value} (h : g.answer? s p = some v) : HasValue g m p v := by
  cases hsource : g.sourceOf? p with
  | none =>
    rw [hs.answer?_of_unlinked hg hb hp hsource, hf.unlinked p hp hsource] at h
    exact Option.some.inj h ▸ hasValue_unlinked hsource
  | some i =>
    obtain ⟨n, q, hsup, rfl⟩ := hg.supplies_of_sourceOf? hp hsource
    have hq := Node.mem_outputs_of_direction (hb n hsup.mem) hsup.owns hsup.output
    have hex := hs.executed_of_answer? hg hsup h
    obtain ⟨vs, hvs⟩ := hf.settled n hsup.mem hex
    rw [hg.answer?_of_executed hsup hex, hvs.published q hq, Option.some.injEq] at h
    exact h ▸ hsup.hasValue hg hvs.reads

end Values

/-! ## One node -/

section Concluding

variable {g : Graph} (hg : g.WellFormed) (hb : g.IsBuiltin) {m : Memory} {s t u : RunState}
  {n : Node} {vs : List Value} {exit : Option PinId} {below : List NodeId}
include hg

/-- What a node stores does not concern the pins of other nodes. -/
lemma stores_apart {n' : Node} (hn : n ∈ g.nodes) (hn' : n' ∈ g.nodes) (hne : n' ≠ n) {p : Pin}
    (hp : p ∈ n'.pins) : (n.stores vs).get? p.id = none := by
  cases h : (n.stores vs).get? p.id with
  | none => rfl
  | some v =>
    obtain ⟨q, hq, hid⟩ := Node.mem_pins_of_stores h
    exact absurd (hg.eq_of_pin hn' hn hp hq hid.symm).1 hne

lemma publishes_apart {n' : Node} (hn : n ∈ g.nodes) (hn' : n' ∈ g.nodes) (hne : n' ≠ n) {p : Pin}
    (hp : p ∈ n'.pins) : (n.publishes vs).get? p.id = none := by
  cases h : (n.publishes vs).get? p.id with
  | none => rfl
  | some v =>
    obtain ⟨q, hq, hid⟩ := Node.mem_outputs_of_publishes h
    exact absurd (hg.eq_of_pin hn' hn hp (List.mem_append_right _ hq) hid.symm).1 hne

include hb

/-- An unlinked input keeps its value: only an end node stores on an input, and then what it has
read from there. -/
lemma Faithful.unlinked_conclude (hf : g.Faithful m s) (hn : n ∈ g.nodes)
    (hreads : List.Forall₂ (HasValue g m) n.reads vs) (h : n.Computes vs exit s t) {p : Pin}
    (hp : p ∈ g.pins) (hsource : g.sourceOf? p = none) : t.memory.value p = m.value p := by
  rw [Memory.value, h.values_eq]
  cases hstores : (n.stores vs).get? p.id with
  | none => exact hf.unlinked p hp hsource
  | some v =>
    obtain ⟨n', hn', hpn'⟩ := List.mem_flatMap.mp hp
    rcases Node.stores_cases hstores with ⟨q, hq, hid⟩ | ⟨q, hq, rfl, hid⟩
    · obtain ⟨rfl, rfl⟩ := hg.eq_of_pin hn' hn hpn' (List.mem_append_right _ hq) hid.symm
      simp [sourceOf?, Node.direction_of_mem_outputs (hb _ hn) hq] at hsource
    · have hqn : q ∈ n.pins :=
        List.mem_append_left _ (n.reads_subset (hq ▸ List.mem_singleton_self q))
      obtain ⟨-, rfl⟩ := hg.eq_of_pin hn' hn hpn' hqn hid.symm
      rw [hq] at hreads
      cases hreads with
      | cons hv _ => exact hv.unique (hasValue_unlinked hsource)

/-- **Concluding a node keeps the state faithful.** The state `u` is that after concluding, with the
node recorded as executed and perhaps its exit kept. -/
theorem Faithful.conclude (hf : g.Faithful m s) (hs : g.Orderly s) (hbusy : g.Busy below s n)
    (hreads : List.Forall₂ (HasValue g m) n.reads vs) (hc : n.Concludes s t)
    (h : n.Computes vs exit s t) (hmemory : u.memory = t.memory) (hcache : u.cache = t.cache)
    (hstopped : u.stopped = t.stopped) (hexecuted : u.executed = s.executed ++ [n.id])
    (hexits : ∀ i e, u.pulledExits.get? i = some e →
      s.pulledExits.get? i = some e ∨ i = n.id ∧ e = exit) : g.Faithful m u where
  running := hstopped.trans (hc.stopped.trans hf.running)
  coherent := hmemory ▸ hc.coherent hf.coherent
  unlinked p hp hsource := hmemory ▸ hf.unlinked_conclude hg hb hbusy.mem hreads h hp hsource
  settled n' hn' hex := by
    have hvalues : ∀ i, u.memory.values.get? i =
        ((n.stores vs).get? i).or (s.memory.values.get? i) := hmemory ▸ h.values_eq
    have hpublished : ∀ i, u.cache.get? i =
        ((n.publishes vs).get? i).or (s.cache.get? i) := hcache ▸ h.cache_eq
    by_cases heq : n' = n
    · subst heq
      refine ⟨vs, hreads, fun p hp => ?_, fun i v hv => by simp [hvalues, hv], fun e he => ?_⟩
      · have hnone : s.cache.get? p.id = none := by
          cases hsome : s.cache.get? p.id with
          | none => rfl
          | some w =>
            have hpn := List.mem_append_right n'.inputs hp
            exact absurd (hs.executed_of_cache hg hn' hpn hsome).1 hbusy.fresh
        simp [hpublished, hnone]
      · rcases hexits _ e he with he | ⟨-, rfl⟩
        · exact absurd (hs.exits_accounted n' hn' e he).2.2 hbusy.fresh
        · exact h.exit_eq
    · have hex' : n'.id ∈ s.executed := by
        rcases List.mem_append.mp (hexecuted ▸ hex) with hex | hid
        · exact hex
        · exact absurd (hg.eq_of_id hn' hbusy.mem (List.mem_singleton.mp hid)) heq
      obtain ⟨vs', hvs'⟩ := hf.settled n' hn' hex'
      refine ⟨vs', hvs'.reads, fun p hp => ?_, fun i v hv => ?_, fun e he => ?_⟩
      · have hpn := List.mem_append_right n'.inputs hp
        rw [hpublished, publishes_apart hg hbusy.mem hn' heq hpn]
        exact hvs'.published p hp
      · obtain ⟨p, hp, rfl⟩ := Node.mem_pins_of_stores hv
        rw [hvalues, stores_apart hg hbusy.mem hn' heq hp]
        exact hvs'.stored p.id v hv
      · rcases hexits _ e he with he | ⟨hid, -⟩
        · exact hvs'.exit e he
        · exact absurd (hg.eq_of_id hn' hbusy.mem hid) heq

end Concluding

/-! ## Asking for data -/

/-- Only memory and the records of values, executions and exits matter. -/
theorem Faithful.congr {g : Graph} {m : Memory} {s t : RunState} (h : g.Faithful m s)
    (hmemory : t.memory = s.memory) (hcache : t.cache = s.cache)
    (hexecuted : ∀ n, n ∈ t.executed → n ∈ s.executed) (hexits : t.pulledExits = s.pulledExits)
    (hstopped : t.stopped = s.stopped) : g.Faithful m t where
  running := hstopped.trans h.running
  coherent := hmemory ▸ h.coherent
  unlinked := hmemory ▸ h.unlinked
  settled n hn hex := by
    obtain ⟨vs, hvs⟩ := h.settled n hn (hexecuted n.id hex)
    exact ⟨vs, hvs.reads, hcache ▸ hvs.published, hmemory ▸ hvs.stored, hexits ▸ hvs.exit⟩

/-- In a faithful state, every end node that has been executed stores the reference value of the pin
it keeps its frame on. -/
theorem Faithful.stored_of_finish {g : Graph} {m : Memory} {s : RunState} (hf : g.Faithful m s)
    {n : Node} (hn : n ∈ g.nodes) {pins : FinishPins} (hbody : n.body = .finish pins)
    (hex : n.id ∈ s.executed) :
    ∃ v, HasValue g m pins.framePin v ∧ s.memory.values.get? pins.frame = some v := by
  obtain ⟨vs, hvs⟩ := hf.settled n hn hex
  have hreads := hvs.reads
  rw [Node.reads, hbody] at hreads
  cases hreads with
  | cons hv hrest =>
    cases hrest
    refine ⟨_, hv, hvs.stored pins.frame _ ?_⟩
    simp [Node.stores, hbody, Table.get?]

section Runs

variable {g : Graph} (hg : g.WellFormed) (hb : g.IsBuiltin) {m : Memory} {s t : RunState}
include hg hb

/-- **Asking for data gives reference values** and keeps the state faithful. -/
theorem Pulls.faithful {ps : List Pin} {vs : List Value} (h : g.Pulls s ps (.ok vs) t)
    (hs : g.Orderly s) (hf : g.Faithful m s) (hps : ps ⊆ g.pins) :
    (g.Orderly t ∧ g.Faithful m t) ∧ List.Forall₂ (HasValue g m) ps vs := by
  refine h.invariant_ok hb (I := fun s => g.Orderly s ∧ g.Faithful m s) (V := HasValue g m)
    (fun s p v hI hp hanswer => hI.2.hasValue_of_answer? hg hb hI.1 hp hanswer)
    (fun s n hI hdue => ⟨hI.1.begun hdue, hI.2.congr rfl rfl (fun _ h => h) rfl rfl⟩) ?_
    ⟨hs, hf⟩ hps vs rfl
  intro below s t n vs exit hI hbusy hinner hreads hconclude
  have hlen := hreads.length_eq.symm
  obtain ⟨-, hc⟩ := Node.concludes_of_eq (hb n hbusy.mem) hlen hconclude
  have hcomputes := Node.conclude_computes g (hb n hbusy.mem) hlen hI.2.running hI.2.coherent
    hconclude
  have heq := (hbusy.conclude hc hinner).ended_eq
  refine ⟨hbusy.orderly_supplied hg hb hI.1 hinner hlen hconclude,
    hI.2.conclude hg hb hI.1 hbusy hreads hc hcomputes ?_ ?_ ?_ ?_ fun i e he => ?_⟩
  · simp [RunState.keepExit, heq]
  · simp [RunState.keepExit, heq]
  · simp [RunState.keepExit, heq]
  · simp [RunState.keepExit, heq, hc.executed]
  · simp only [RunState.keepExit, heq, Table.get?_set, hc.pulledExits] at he
    split_ifs at he with hid
    · exact Or.inr ⟨hid.symm, (Option.some.inj he).symm⟩
    · exact Or.inl he

/-! ## Following flow -/

/-- **Entering a node gives its reference exit** and keeps the state faithful. -/
theorem Enters.faithful {c : FlowPoint} (hc : c.Sound g) (hf : g.Faithful m c.state) {n : Node}
    (hn : n ∈ g.nodes) {exit : Option PinId} (h : g.Enters n c.state (.ok exit) t) :
    g.Faithful m t ∧ ∃ vs, List.Forall₂ (HasValue g m) n.reads vs ∧ exit = n.exitOn vs := by
  cases h with
  | again hidle hkept =>
    have hex := (hc.orderly.exits_accounted n hn exit hkept).2.2
    obtain ⟨vs, hvs⟩ := hf.settled n hn hex
    have hmark : (c.state.push n.id).mark n.id = c.state.push n.id := by
      simp [RunState.mark, RunState.push, hex]
    rw [hmark]
    exact ⟨hf.congr rfl rfl (fun _ h => h) rfl rfl, vs, hvs.reads, hvs.exit exit hkept⟩
  | @executing t _ hidle hnew hexecutes =>
    have hdue := hc.due hn hidle hnew
    cases hexecutes with
    | @concluding u _ vs _ hpulls hconclude =>
      have hbegun : g.Faithful m (c.state.begun n.id) := hf.congr rfl rfl (fun _ h => h) rfl rfl
      obtain ⟨⟨hu, hfu⟩, hreads⟩ := Pulls.faithful hg hb hpulls (hc.orderly.begun hdue) hbegun
        (reads_subset_pins hn)
      have hlen := hreads.length_eq.symm
      have hbusy := hdue.busy (hpulls.grows hb)
      obtain ⟨-, hconcludes⟩ := Node.concludes_of_eq (hb n hn) hlen hconclude
      have hcomputes := Node.conclude_computes g (hb n hn) hlen hfu.running hfu.coherent hconclude
      have hfresh : n.id ∉ t.executed := hconcludes.executed.symm ▸ hbusy.fresh
      rw [RunState.mark_eq hfresh]
      refine ⟨hfu.conclude hg hb hu hbusy hreads hconcludes hcomputes rfl rfl rfl ?_ ?_, vs, hreads,
        hcomputes.exit_eq⟩
      · simp [hconcludes.executed]
      · intro i e he
        exact Or.inl (hconcludes.pulledExits ▸ he)

/-- **Steps of flow keep the state faithful**, and they are steps of the reference. -/
theorem goes_faithful {c d : FlowPoint} (hc : c.Sound g) (hf : g.Faithful m c.state)
    (h : c.Goes g d) : g.Faithful m d.state ∧ ∀ status path,
      HasFlow g m d.node d.path status path → HasFlow g m c.node c.path status path := by
  cases h with
  | @onward n t p l hn hid hinner hrunning henters hfirst =>
    obtain ⟨ht, vs, hreads, hexit⟩ := henters.faithful hg hb hc hf hn
    refine ⟨ht, fun status path hflow => ?_⟩
    have hlink : (n.exitOn vs).bind (fun p => (g.linksFrom p).head?) = some l := by
      rw [← hexit]
      exact hfirst
    rw [← hid] at hflow ⊢
    exact hasFlow_onward (hg.node?_of_mem hn) hreads hinner hlink hflow

/-- Where flow ends, the reference flow ends in the same way. -/
theorem ends_faithful {c : FlowPoint} (hc : c.Sound g) (hf : g.Faithful m c.state)
    {status : RunStatus} {path : List NodeId} (h : c.Ends g (.ok (status, path)) t) :
    g.Orderly t ∧ g.Faithful m t ∧ HasFlow g m c.node c.path status path := by
  cases h with
  | stopped hraised =>
    rw [hf.running] at hraised
    cases hraised
  | @completed n t exit hn hid houter hrunning henters =>
    obtain ⟨ht, vs, hreads, -⟩ := henters.faithful hg hb hc hf hn
    refine ⟨(hc.entered hg hb hn henters).orderly, ht, ?_⟩
    rw [← hid]
    exact hasFlow_completed (hg.node?_of_mem hn) hreads houter
  | @halted n t exit hn hid hinner hrunning henters hnowhere =>
    obtain ⟨ht, vs, hreads, hexit⟩ := henters.faithful hg hb hc hf hn
    refine ⟨(hc.entered hg hb hn henters).orderly, ht, ?_⟩
    have hnone : (n.exitOn vs).bind (fun p => (g.linksFrom p).head?) = none := by
      rw [Option.bind_eq_none_iff]
      exact fun p hp => hnowhere p (hexit.trans hp)
    rw [← hid]
    exact hasFlow_halted (hg.node?_of_mem hn) hreads hinner hnone

/-- **Walks are walks of the reference.** -/
theorem reached_faithful {mode : RunMode} {c d : FlowPoint} (h : g.Reached mode c d)
    (hc : c.Sound g) (hf : g.Faithful m c.state) : g.Faithful m d.state ∧ ∀ status path,
      HasFlow g m d.node d.path status path → HasFlow g m c.node c.path status path := by
  induction h using Relation.ReflTransGen.head_induction_on with
  | refl => exact ⟨hf, fun _ _ h => h⟩
  | head hstep _ ih =>
    have hgoes := FlowPoint.goes_of_next? hg hb hc hstep
    obtain ⟨hf', hback⟩ := goes_faithful hg hb hc hf hgoes
    obtain ⟨hfd, hback'⟩ := ih (hgoes.sound hg hb hc) hf'
    exact ⟨hfd, fun status path hflow => hback status path (hback' status path hflow)⟩

/-! ## Whole runs -/

/-- In a faithful state, every published value is the reference value of a pin. -/
theorem Faithful.hasValue_of_cache (hf : g.Faithful m s) (hs : g.Orderly s)
    {i : PinId} {v : Value} (h : s.cache.get? i = some v) :
    ∃ p ∈ g.pins, p.id = i ∧ HasValue g m p v := by
  obtain ⟨n, hn, -, p, hp, rfl⟩ := hs.cache_accounted i v h
  have hpn : p ∈ n.pins := List.mem_append_right _ hp
  have hmem : p ∈ g.pins := List.mem_flatMap.mpr ⟨n, hn, hpn⟩
  have hsource : g.sourceOf? p = some p.id := by
    simp [sourceOf?, Node.direction_of_mem_outputs (hb n hn) hp]
  refine ⟨p, hmem, rfl, hf.hasValue_of_answer? hg hb hs hmem ?_⟩
  simp [answer?, hsource, h]

/-- **Runs compute what the reference computes.** Take a run that is not asked to stop and ends with
a report. Its status and its path are those of the reference evaluated in the memory before the run.
Every value that it has published is the reference value of its pin. Every end node that it has
executed stores the reference value of its input. The memory is left coherent, so the same holds of
the next run. -/
theorem runFrom_faithful (mode : RunMode) {start : NodeId} {s t : RunState} {report : RunReport}
    (hstack : s.stack = []) (hrunning : s.stopped = false) (hcoherent : s.memory.Coherent)
    (hrun : g.runFrom mode start s = (.ok report, t)) :
    HasFlow g s.memory start [] report.status report.path ∧
    (∀ i v, t.cache.get? i = some v → ∃ p ∈ g.pins, p.id = i ∧ HasValue g s.memory p v) ∧
    (∀ n ∈ g.nodes, ∀ pins, n.body = .finish pins → n.id ∈ t.executed →
      ∃ v, HasValue g s.memory pins.framePin v ∧ t.memory.values.get? pins.frame = some v) ∧
    t.memory.Coherent := by
  have hkept : t.memory.Coherent := by
    have hleft := g.runFrom_coherent mode start s hcoherent
    rw [Action.Leaves, hrun] at hleft
    exact hleft
  cases hstart : g.hasNode start with
  | false =>
    rw [runFrom_absent g mode hstack hstart] at hrun
    cases hrun
  | true =>
    obtain ⟨d, r, u, hreached, hsound, -, hends, hconclusion⟩ :=
      runFrom_spec hg hb mode (hasNode_iff.mp hstart) hstack
    rw [hconclusion] at hrun
    cases r with
    | error e => cases hrun
    | ok outcome =>
      obtain ⟨status, path⟩ := outcome
      obtain ⟨hreport, rfl⟩ := Prod.mk.inj hrun
      obtain rfl := Except.ok.inj hreport
      have hbegin := FlowPoint.sound_begin (g := g) hstack (hasNode_iff.mp hstart)
      obtain ⟨hd, hback⟩ := reached_faithful hg hb hreached hbegin
        (faithful_begin g hrunning hcoherent)
      obtain ⟨hu, hf, hflow⟩ := ends_faithful hg hb hsound hd hends
      exact ⟨hback status path hflow, fun i v h => hf.hasValue_of_cache hg hb hu h,
        fun n hn pins hbody hex => hf.stored_of_finish hn hbody hex, hkept⟩

end Runs

/-- The run of the example is that of the reference: it completes along the flow links. -/
theorem pullAhead_hasFlow : HasFlow pullAhead .empty ⟨Uuid.ofNat 1⟩ [] .completed
    [⟨Uuid.ofNat 1⟩, ⟨Uuid.ofNat 2⟩, ⟨Uuid.ofNat 3⟩, ⟨Uuid.ofNat 4⟩] := by
  have hpath : ((pullAhead.runFrom ⟨false, true⟩ ⟨Uuid.ofNat 1⟩ (.initial .empty)).1.map fun r =>
      (r.status, r.path)) = .ok (.completed,
        [⟨Uuid.ofNat 1⟩, ⟨Uuid.ofNat 2⟩, ⟨Uuid.ofNat 3⟩, ⟨Uuid.ofNat 4⟩]) := by
    decide +kernel
  cases hrun : pullAhead.runFrom ⟨false, true⟩ ⟨Uuid.ofNat 1⟩ (.initial .empty) with
  | mk r t =>
    rw [hrun] at hpath
    cases r with
    | error e => cases hpath
    | ok report =>
      have h := runFrom_faithful pullAhead_wellFormed pullAhead_isBuiltin ⟨false, true⟩
        (s := .initial .empty) rfl rfl Memory.coherent_empty hrun
      simp only [Except.map, Except.ok.injEq, Prod.mk.injEq] at hpath
      obtain ⟨hstatus, hpath⟩ := hpath
      exact hstatus ▸ hpath ▸ h.1

end Graph

end Patchbay
