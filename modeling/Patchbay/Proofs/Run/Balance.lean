import Patchbay.Proofs.Run.Acts
import Patchbay.Proofs.Run.Repeating

/-!
# Demands leave the call stack as it was

A demand for a value may be made whatever is on the call stack and whatever has been published and executed
so far. The nodes that are executed to meet it are put onto the call stack one above the other, and each is taken
off it again whether it fails or not. `Graph.Amid` tells which demands are made on the way. At each of them, nodes
that were not on the call stack have been put on top of it, and nothing is missing (`Graph.Deepens`). Each of them
leaves the call stack as it found it (`RunState.Balanced`). **`Graph.pull_balanced`** is the main result.

That no value is replaced (`RunState.Lasts`) depends on what the demand is for. A node that makes data has one
output for it, so a node that is executed because nothing has been published there replaces nothing
(`Supplies.retains`). A demand for a flow pin could execute a node that has published its data already.

A demand comes to the same whatever bound there is on the nesting, as long as there is room for the nodes that
are not on the call stack (`pull_congr_depth`).
-/

namespace Patchbay

open Patchbay.Action RunM

/-! ## What lasts -/

/-- The nodes executed by state `s` are recorded in state `t`, and the values published by then stand. -/
structure RunState.Lasts (s t : RunState) : Prop where
  executed : s.executed <+: t.executed
  retains : s.Retains t

namespace RunState.Lasts

lemma refl (s : RunState) : s.Lasts s := ⟨List.prefix_refl _, fun _ _ hv => hv⟩

lemma trans {s t u : RunState} (h : s.Lasts t) (h' : t.Lasts u) : s.Lasts u :=
  ⟨h.executed.trans h'.executed, fun i v hv => h'.retains i v (h.retains i v hv)⟩

end RunState.Lasts

/-- Only a node that is not on the call stack can be entered. -/
lemma RunM.enter_eq_ok {n : NodeId} {s t : RunState} (h : enter n s = (.ok (), t)) :
    n ∉ s.stack ∧ t = s.push n := by
  by_cases hbusy : n ∈ s.stack
  · rw [enter_of_mem n s hbusy] at h
    cases h
  · rw [enter_of_not_mem n s hbusy] at h
    exact ⟨hbusy, (Prod.mk.inj h).2.symm⟩

/-- Taking a node off the call stack makes it one more that has been executed. -/
lemma Graph.Busy.lasts_ended {g : Graph} {below : List NodeId} {s : RunState} {n : Node}
    (h : g.Busy below s n) : s.Lasts (s.ended n.id) := by
  rw [h.ended_eq]
  exact ⟨List.prefix_append _ _, fun _ _ hv => hv⟩

/-! ## Data comes from data pins -/

/-- A node that makes data writes it on its only output for data. -/
lemma Node.eq_of_mem_writes {n : Node} (hn : n.body.isBuiltin = true) {p q : Pin} (hp : p ∈ n.writes)
    (hout : p.direction = .output) (hq : q ∈ n.outputs) (hdata : q.isFlow = false) : p = q := by
  rw [writes] at hp
  rw [outputs] at hq
  cases hbody : n.body with
  | finish pins =>
    rw [hbody] at hp
    rw [List.mem_singleton.mp hp] at hout
    cases hout
  | transition pins settings =>
    simp only [hbody, Body.outputs, List.mem_cons, List.not_mem_nil, or_false] at hp hq
    rcases hq with rfl | rfl
    · cases hdata
    · exact hp
  | scripted type ins outs => simp [hbody, Body.isBuiltin] at hn
  | _ => simp_all [Body.outputs]

namespace Graph

variable {g : Graph} (hg : g.WellFormed) {s t u : RunState} {p q : Pin} {ps : List Pin} {n m : Node}
  {vs : List Value} {exit : Option PinId}

section Suppliers

include hg

/-- What a data pin is supplied through is a data pin. -/
lemma Supplies.isFlow_eq (h : g.Supplies p n q) (hp : p ∈ g.pins) : q.isFlow = p.isFlow := by
  obtain ⟨a, ha, hpa⟩ := List.mem_flatMap.mp hp
  have hsource := h.source
  rw [sourceOf?] at hsource
  cases hdir : p.direction with
  | output =>
    simp only [hdir, Option.some.injEq] at hsource
    rw [(hg.eq_of_pin ha h.mem hpa h.owns hsource).2]
  | input =>
    simp only [hdir, Option.map_eq_some_iff] at hsource
    obtain ⟨l, hl, hfrom⟩ := hsource
    obtain ⟨-, hto, b, c, p', q', hj⟩ := hg.linkTo?_joins hl
    obtain ⟨-, rfl⟩ := hg.eq_of_pin hj.source h.mem hj.owns_source h.owns (hj.fromPin.symm.trans hfrom)
    obtain ⟨-, rfl⟩ := hg.eq_of_pin hj.target ha hj.owns_target hpa (hj.toPin.symm.trans hto)
    exact hj.isFlow_eq.1.trans hj.isFlow_eq.2.symm

/-- **Concluding a node replaces no published value** if nothing has been published on the pin through which it
supplies data. -/
lemma Supplies.retains (hb : g.IsBuiltin) (h : g.Supplies p n q) (hp : p ∈ g.pins) (hdata : p.isFlow = false)
    (hnone : t.cache.get? q.id = none) (hconclude : n.conclude g vs t = (.ok exit, u)) : t.Retains u := by
  intro i v hv
  have hwritten := n.conclude_written g (hb n h.mem) vs t
  rw [hconclude] at hwritten
  cases hwritten with
  | nothing _ cache => exact cache ▸ hv
  | @stored p' _ mem _ cache =>
    rw [cache]
    split_ifs with hout
    · have hq : q ∈ n.outputs := Node.mem_outputs_of_direction (hb n h.mem) h.owns h.output
      obtain rfl := Node.eq_of_mem_writes (hb n h.mem) mem hout hq ((h.isFlow_eq hg hp).trans hdata)
      rw [Table.get?_set, if_neg]
      · exact hv
      · rintro rfl
        cases hnone.symm.trans hv
    · exact hv

/-- A pin waits for the node that owns its source. -/
lemma awaits_of_owner (hp : p ∈ g.pins) {i : PinId} (hsource : g.sourceOf? p = some i)
    (hnone : s.cache.get? i = none) (howner : g.owner? i = some n.id) (hfound : g.node? n.id = some n)
    (hfresh : n.id ∉ s.executed) : g.Awaits s p n := by
  obtain ⟨m, q, hs, rfl⟩ := hg.supplies_of_sourceOf? hp hsource
  rw [hg.owner?_of_mem hs.mem hs.owns] at howner
  obtain rfl := hg.eq_of_id hs.mem (node?_some hfound).1 (Option.some.inj howner)
  exact ⟨q, hs, hnone, hfresh⟩

/-- The value of a pin that waits for a node is not known. -/
lemma Awaits.answer?_eq_none (h : g.Awaits s p n) : g.answer? s p = none := by
  obtain ⟨q, hs, hcache, hex⟩ := h
  simp [answer?, hs.source, hcache, hg.pin?_of_mem hs.mem hs.owns, hg.owner?_of_mem hs.mem hs.owns, hex]

/-- A pin waits for one node. -/
lemma Awaits.unique (h : g.Awaits s p n) (h' : g.Awaits s p m) : n = m := by
  obtain ⟨q, hs, -, -⟩ := h
  obtain ⟨q', hs', -, -⟩ := h'
  exact (hg.eq_of_pin hs.mem hs'.mem hs.owns hs'.owns (Option.some.inj (hs.source.symm.trans hs'.source))).1

end Suppliers

/-! ## What demands come to -/

section Pulls

variable {r r' : Except RunError (List Value)}

/-- Pins may be asked for after a pin that has got its value. -/
lemma Pulls.cons (h : g.Pulls s [p] (.ok vs) t) (h' : g.Pulls t ps r u) : ∃ r', g.Pulls s (p :: ps) r' u := by
  generalize hqs : [p] = qs at h
  generalize hres : (.ok vs : Except RunError (List Value)) = res at h
  induction h with
  | nothing s => cases hqs
  | known answer rest =>
    obtain ⟨rfl, rfl⟩ := List.cons.inj hqs
    cases rest
    exact ⟨_, .known answer h'⟩
  | cyclic awaits busy => cases hres
  | failing awaits idle reads => cases hres
  | supplied awaits idle reads conclude rest ih ih' =>
    obtain ⟨r', hrest⟩ := ih' h' hqs hres
    obtain ⟨rfl, -⟩ := List.cons.inj hqs
    exact ⟨r', .supplied awaits idle reads conclude hrest⟩

include hg

/-- **What asking for a pin that waits for a node comes to.** The node is on the call stack, or else it cannot have
what it asks for, or it concludes and the pin is asked for again. -/
lemma Pulls.of_awaits (h : g.Pulls s (p :: ps) r u) (hawaits : g.Awaits s p n) :
    (n.id ∈ s.stack ∧ r = .error (.cyclic n.id s.stack) ∧ u = s) ∨
    (n.id ∉ s.stack ∧ ∃ e t, g.Pulls (s.begun n.id) n.reads (.error e) t ∧ r = .error e ∧
      u = t.ended n.id) ∨
    (n.id ∉ s.stack ∧ ∃ vs t exit w, g.Pulls (s.begun n.id) n.reads (.ok vs) t ∧
      n.conclude g vs t = (.ok exit, w) ∧ g.Pulls ((w.ended n.id).keepExit n.id exit) (p :: ps) r u) := by
  cases h with
  | known answer => cases answer.symm.trans (hawaits.answer?_eq_none hg)
  | cyclic awaits busy =>
    obtain rfl := hawaits.unique hg awaits
    exact .inl ⟨busy, rfl, rfl⟩
  | failing awaits idle reads =>
    obtain rfl := hawaits.unique hg awaits
    exact .inr (.inl ⟨idle, _, _, reads, rfl, rfl⟩)
  | supplied awaits idle reads conclude rest =>
    obtain rfl := hawaits.unique hg awaits
    exact .inr (.inr ⟨idle, _, _, _, _, reads, conclude, rest⟩)

/-- **Asking for data comes to one thing only.** -/
theorem Pulls.unique (h : g.Pulls s ps r t) (h' : g.Pulls s ps r' u) : r = r' ∧ t = u := by
  induction h generalizing r' u with
  | nothing s =>
    cases h'
    exact ⟨rfl, rfl⟩
  | known answer rest ih =>
    cases h' with
    | known answer' rest' =>
      obtain ⟨rfl, rfl⟩ := ih rest'
      obtain rfl := Option.some.inj (answer.symm.trans answer')
      exact ⟨rfl, rfl⟩
    | cyclic awaits' | failing awaits' | supplied awaits' =>
      cases answer.symm.trans (awaits'.answer?_eq_none hg)
  | cyclic awaits busy =>
    rcases h'.of_awaits hg awaits with ⟨-, rfl, rfl⟩ | ⟨idle', -⟩ | ⟨idle', -⟩
    · exact ⟨rfl, rfl⟩
    · exact absurd busy idle'
    · exact absurd busy idle'
  | failing awaits idle reads ih =>
    rcases h'.of_awaits hg awaits with
      ⟨busy', -⟩ | ⟨-, e', t', reads', rfl, rfl⟩ | ⟨-, vs', t', exit', w', reads', -⟩
    · exact absurd busy' idle
    · obtain ⟨hr, rfl⟩ := ih reads'
      exact ⟨congrArg _ (Except.error.inj hr), rfl⟩
    · cases (ih reads').1
  | supplied awaits idle reads conclude rest ih ih' =>
    rcases h'.of_awaits hg awaits with
      ⟨busy', -⟩ | ⟨-, e', t', reads', -⟩ | ⟨-, vs', t', exit', w', reads', conclude', rest'⟩
    · exact absurd busy' idle
    · cases (ih reads').1
    · obtain ⟨hr, rfl⟩ := ih reads'
      obtain rfl := Except.ok.inj hr
      obtain ⟨hexit, rfl⟩ := Prod.mk.inj (conclude.symm.trans conclude')
      obtain rfl := Except.ok.inj hexit
      exact ih' rest'

variable (hb : g.IsBuiltin)
include hb

/-- When a node that a data pin waits for concludes, all that has been published stands. -/
lemma Awaits.lasts_conclude (h : g.Awaits s p n) (hidle : n.id ∉ s.stack) (hp : p ∈ g.pins)
    (hdata : p.isFlow = false) (hreads : g.Pulls (s.begun n.id) n.reads (.ok vs) t)
    (hconclude : n.conclude g vs t = (.ok exit, u)) : t.Lasts ((u.ended n.id).keepExit n.id exit) := by
  have hinner := h.not_isExit hb
  have hbusy := (h.due hidle).busy (hreads.grows hb)
  obtain ⟨-, hc⟩ := Node.concludes_of_eq (hb n h.mem) (hreads.length_eq vs rfl) hconclude
  obtain ⟨q, hs, hnone, -⟩ := h
  -- the node is on the call stack while it asks for data, so nobody has published on its pins meanwhile
  have hnone' := hreads.unpublished hg hb hs.mem hs.owns (by simp) hnone
  have hlasts : t.Lasts u := ⟨hc.executed ▸ List.prefix_refl _, hs.retains hg hb hp hdata hnone' hconclude⟩
  have hended := hlasts.trans (hbusy.conclude hc hinner).lasts_ended
  exact ⟨hended.executed, hended.retains⟩

/-- **While data is asked for, nothing is taken back**: neither what has been executed nor what has been
published. -/
theorem Pulls.lasts (h : g.Pulls s ps r t) (hps : ∀ p ∈ ps, p ∈ g.pins ∧ p.isFlow = false) : s.Lasts t := by
  have hreads : ∀ {n : Node}, n ∈ g.nodes → ∀ q ∈ n.reads, q ∈ g.pins ∧ q.isFlow = false :=
    fun hn q hq => ⟨reads_subset_pins hn hq, isFlow_of_mem_reads hq⟩
  induction h with
  | nothing s => exact .refl s
  | known answer rest ih => exact ih fun p hp => hps p (List.mem_cons_of_mem _ hp)
  | cyclic awaits busy => exact .refl _
  | @failing s t p ps n e awaits idle reads ih =>
    have hlasts := (ih (hreads awaits.mem)).trans ((awaits.due idle).busy (reads.grows hb)).lasts_ended
    exact ⟨hlasts.executed, hlasts.retains⟩
  | @supplied s t u w p ps n vs exit r awaits idle reads conclude rest ih ih' =>
    obtain ⟨hp, hdata⟩ := hps p List.mem_cons_self
    have hlasts := ((ih (hreads awaits.mem)).trans
      (awaits.lasts_conclude hg hb idle hp hdata reads conclude)).trans (ih' hps)
    exact ⟨hlasts.executed, hlasts.retains⟩

/-- What there is when a node has asked for its data lasts until the pin that waits for it has been met, and those
after it. -/
lemma Pulls.lasts_nested (h : g.Pulls s (p :: ps) r u) (hps : ∀ q ∈ p :: ps, q ∈ g.pins ∧ q.isFlow = false)
    (hawaits : g.Awaits s p n) (hidle : n.id ∉ s.stack) :
    ∃ r' t, g.Pulls (s.begun n.id) n.reads r' t ∧ t.Lasts u := by
  rcases h.of_awaits hg hawaits with
    ⟨busy, -⟩ | ⟨-, e, t, reads, -, rfl⟩ | ⟨-, vs, t, exit, w, reads, conclude, rest⟩
  · exact absurd busy hidle
  · exact ⟨_, t, reads, ((hawaits.due hidle).busy (reads.grows hb)).lasts_ended⟩
  · obtain ⟨hp, hdata⟩ := hps p List.mem_cons_self
    exact ⟨_, t, reads,
      (hawaits.lasts_conclude hg hb hidle hp hdata reads conclude).trans (rest.lasts hg hb hps)⟩

end Pulls

section Demands

variable (hb : g.IsBuiltin) (mode : RunMode) {depth : Nat}
include hg hb

/-- **The bound on nesting is never felt**, so a demand comes to the same with more room. -/
theorem pull_congr_depth (hp : p ∈ g.pins) {depth' : Nat} (hroom : g.idleCount s.stack ≤ depth)
    (hroom' : g.idleCount s.stack ≤ depth') : g.pull mode depth p s = g.pull mode depth' p s := by
  obtain ⟨hfst, hsnd⟩ :=
    (pulls_pull hg hb mode hp hroom).unique hg (pulls_pull hg hb mode hp hroom')
  refine Prod.ext ?_ hsnd
  cases hr : (g.pull mode depth p s).1 <;> cases hr' : (g.pull mode depth' p s).1 <;>
    simp_all [Except.map]

end Demands

end Graph

/-! ## Balance -/

/-- A demand made in state `s` comes to `r` and leaves state `t`, with the call stack as it was. -/
structure RunState.Balanced (s : RunState) (r : Except RunError Value) (t : RunState) : Prop
    extends s.Extends t where
  fails : FailsOverCycles r
  retains : s.Retains t
  /-- If the demand is met, the exits of the nodes that were executed for it are kept. -/
  kept : ∀ v, r = .ok v → ∀ n ∈ t.executed, n ∈ s.executed ∨ (t.pulledExits.get? n).isSome

namespace Graph

/-- From state `s` to state `t`, nodes that were not on the call stack have been put on top of it. -/
structure Deepens (g : Graph) (s t : RunState) : Prop extends s.Lasts t where
  stack : ∃ pushed, t.stack = s.stack ++ pushed ∧ pushed.Nodup ∧
    ∀ n ∈ pushed, n ∈ g.nodeIds ∧ n ∉ s.stack

namespace Deepens

variable {g : Graph} {s t u : RunState}

lemma refl (g : Graph) (s : RunState) : g.Deepens s s where
  toLasts := .refl s
  stack := ⟨[], (List.append_nil _).symm, List.nodup_nil, fun _ hn => nomatch hn⟩

/-- A demand leaves the nodes on the call stack that have been put there. -/
lemma balanced (h : g.Deepens s t) {r : Except RunError Value} (hr : t.Balanced r u) : g.Deepens s u where
  toLasts := h.toLasts.trans ⟨hr.executed, hr.retains⟩
  stack := hr.stack.symm ▸ h.stack

/-- Entering a node puts one more there. -/
lemma begun (h : g.Deepens s t) {n : Node} (hdue : g.Due t n) : g.Deepens s (t.begun n.id) where
  executed := h.executed
  retains := h.retains
  stack := by
    obtain ⟨pushed, hstack, hnd, hnew⟩ := h.stack
    have hidle : n.id ∉ s.stack ∧ n.id ∉ pushed := by
      rw [← not_or, ← List.mem_append, ← hstack]
      exact hdue.idle
    refine ⟨pushed ++ [n.id], ?_, ?_, fun m hm => ?_⟩
    · rw [RunState.begun_stack, hstack, List.append_assoc]
    · rw [← List.concat_eq_append]
      exact hnd.concat hidle.2
    · rcases List.mem_append.mp hm with hm | hm
      · exact hnew m hm
      · rw [List.mem_singleton.mp hm]
        exact ⟨List.mem_map_of_mem hdue.mem, hidle.1⟩

end Deepens

/-! ## The demands made on the way -/

/-- To meet the demand for pin `p` that was made in state `s`, with `depth` levels of nesting, pins are asked for
one after the other from a state on, with the levels that are left. -/
inductive Amid (g : Graph) (mode : RunMode) (depth : Nat) (s : RunState) (p : Pin) :
    Nat → RunState → List Pin → Prop
  | outset : Amid g mode depth s p depth s [p]
  /-- The first pin has got its value, and the others follow. -/
  | next {left : Nat} {t u : RunState} {q : Pin} {qs : List Pin} {v : Value}
      (amid : Amid g mode depth s p left t (q :: qs)) (value : g.pull mode left q t = (.ok v, u)) :
      Amid g mode depth s p left u qs
  /-- The first pin has no value yet. The node that owns its source is entered, and asks for its data. -/
  | nested {left : Nat} {t u : RunState} {q : Pin} {qs : List Pin} {i : PinId} {n : Node}
      (amid : Amid g mode depth s p (left + 1) t (q :: qs)) (source : g.sourceOf? q = some i)
      (unpublished : t.cache.get? i = none) (owner : g.owner? i = some n.id)
      (found : g.node? n.id = some n) (unexecuted : n.id ∉ t.executed)
      (enters : enter n.id t = (.ok (), u)) : Amid g mode depth s p left (u.logged n.id) n.reads

section Balance

variable {g : Graph} (hg : g.WellFormed) (hb : g.IsBuiltin) (mode : RunMode) {depth : Nat} {s t : RunState}
  {p : Pin}

include hg hb

/-- **A demand for data leaves the call stack as it was.** -/
lemma balanced_pull (hp : p ∈ g.pins) (hdata : p.isFlow = false) (hroom : g.idleCount s.stack ≤ depth) :
    s.Balanced (g.pull mode depth p s).1 (g.pull mode depth p s).2 := by
  have hpulls := pulls_pull hg hb mode hp hroom
  refine { hpulls.grows hb with
    fails := fun e he => hpulls.error_eq e (by rw [he]; rfl)
    retains := (hpulls.lasts hg hb fun q hq => List.mem_singleton.mp hq ▸ ⟨hp, hdata⟩).retains
    kept := fun v hv => ?_ }
  rw [hv] at hpulls
  exact hpulls.kept hb (List.cons_subset.mpr ⟨hp, List.nil_subset _⟩)

section Amid

variable (hp : p ∈ g.pins) (hdata : p.isFlow = false) (hroom : g.idleCount s.stack ≤ depth) {left : Nat}
  {qs : List Pin}
include hp hdata hroom

/-- **What holds of every demand made on the way**: it is made on top of what was there, it is for data, and
there is room for the nodes that are not on the call stack. -/
lemma Amid.deepens (h : g.Amid mode depth s p left t qs) :
    g.Deepens s t ∧ (∀ q ∈ qs, q ∈ g.pins ∧ q.isFlow = false) ∧ g.idleCount t.stack ≤ left := by
  induction h with
  | outset => exact ⟨.refl g s, fun q hq => List.mem_singleton.mp hq ▸ ⟨hp, hdata⟩, hroom⟩
  | @next left t u q qs v amid value ih =>
    obtain ⟨hdeep, hqs, hleft⟩ := ih
    obtain ⟨hq, hqdata⟩ := hqs q List.mem_cons_self
    have hbalanced := balanced_pull hg hb mode hq hqdata hleft
    rw [value] at hbalanced
    exact ⟨hdeep.balanced hbalanced, fun c hc => hqs c (List.mem_cons_of_mem q hc),
      hbalanced.stack.symm ▸ hleft⟩
  | @nested left t u q qs i n amid source unpublished owner found unexecuted enters ih =>
    obtain ⟨hdeep, -, hleft⟩ := ih
    obtain ⟨hidle, rfl⟩ := enter_eq_ok enters
    have hn := (node?_some found).1
    have hdue : g.Due t n := ⟨hn, hidle, unexecuted⟩
    refine ⟨hdeep.begun hdue, fun c hc => ⟨reads_subset_pins hn hc, isFlow_of_mem_reads hc⟩, ?_⟩
    exact Nat.le_of_lt_succ (hdue.idleCount_begun.trans_le hleft)

/-- **What there is on the way lasts to the end.** The pins that follow are asked for, and what there is then
lasts until the demand that they are needed for has come to its end. -/
lemma Amid.lasts (h : g.Amid mode depth s p left t qs) :
    ∃ r u, g.Pulls t qs r u ∧ u.Lasts (g.pull mode depth p s).2 := by
  induction h with
  | outset => exact ⟨_, _, pulls_pull hg hb mode hp hroom, .refl _⟩
  | @next left t u q qs v amid value ih =>
    obtain ⟨r, w, hall, hlasts⟩ := ih
    obtain ⟨-, hqs, hleft⟩ := amid.deepens hg hb mode hp hdata hroom
    obtain ⟨-, hrest, hroom'⟩ := (amid.next value).deepens hg hb mode hp hdata hroom
    have hfirst := pulls_pull hg hb mode (hqs q List.mem_cons_self).1 hleft
    rw [value] at hfirst
    obtain ⟨r', w', -, hpulls⟩ :=
      mapM_pull_of_idleCount hg hb mode left u qs (fun c hc => (hrest c hc).1) hroom'
    obtain ⟨_, hall'⟩ := hfirst.cons hpulls
    obtain ⟨-, rfl⟩ := hall.unique hg hall'
    exact ⟨r', w, hpulls, hlasts⟩
  | @nested left t u q qs i n amid source unpublished owner found unexecuted enters ih =>
    obtain ⟨r, w, hall, hlasts⟩ := ih
    obtain ⟨-, hqs, -⟩ := amid.deepens hg hb mode hp hdata hroom
    obtain ⟨hidle, rfl⟩ := enter_eq_ok enters
    have hawaits :=
      awaits_of_owner hg (hqs q List.mem_cons_self).1 source unpublished owner found unexecuted
    obtain ⟨r', w', hreads, hlasts'⟩ := hall.lasts_nested hg hb hqs hawaits hidle
    exact ⟨r', w', hreads, hlasts'.trans hlasts⟩

end Amid

/-- **Demands are balanced.** Whatever is on the call stack and whatever has been published and executed, a demand
for the value of a data pin is met or fails over a cycle, and it comes to the same for every bound on nesting that
has room for the nodes of the graph. It leaves the call stack as it was. The nodes executed so far stay recorded,
and every published value stays as it is. If the demand is met, the exits of the nodes executed for it are kept.

All this holds of the demands made on the way as well, however deep. When they are made, nodes of the graph that
were not on the call stack have been put on top of it, none of them twice, and what has been executed and published
by then lasts to the end. -/
theorem pull_balanced (s : RunState) (hp : p ∈ g.pins) (hdata : p.isFlow = false) :
    (∀ depth, g.nodes.length ≤ depth → g.pull mode depth p s = g.pull mode g.pullDepth p s) ∧
    s.Balanced (g.pull mode g.pullDepth p s).1 (g.pull mode g.pullDepth p s).2 ∧
    ∀ left t qs, g.Amid mode g.pullDepth s p left t qs →
      g.Deepens s t ∧ t.Lasts (g.pull mode g.pullDepth p s).2 ∧
      ∀ q ∈ qs.head?, t.Balanced (g.pull mode left q t).1 (g.pull mode left q t).2 := by
  have hall := g.idleCount_le_length s.stack
  have hroom : g.idleCount s.stack ≤ g.pullDepth := hall.trans (Nat.le_add_right _ _)
  refine ⟨fun depth hdepth => pull_congr_depth hg hb mode hp (hall.trans hdepth) hroom,
    balanced_pull hg hb mode hp hdata hroom, fun left t qs hamid => ?_⟩
  obtain ⟨hdeep, hqs, hleft⟩ := hamid.deepens hg hb mode hp hdata hroom
  obtain ⟨r, u, hpulls, hlasts⟩ := hamid.lasts hg hb mode hp hdata hroom
  refine ⟨hdeep, (hpulls.lasts hg hb hqs).trans hlasts, fun q hq => ?_⟩
  obtain ⟨hmem, hqdata⟩ := hqs q (List.mem_of_mem_head? hq)
  exact balanced_pull hg hb mode hmem hqdata hleft

end Balance

/-- The end node of the example asks for its picture on top of a node that is not of the graph. The transitions and
the constant are executed, and their exits are kept. If the transitions form a loop, the demand fails over it. Either
way the call stack is left as it was. -/
theorem pullAhead_balanced : ∃ s : RunState, s.stack = [⟨Uuid.ofNat 77⟩, ⟨Uuid.ofNat 4⟩] ∧
    (∃ v t, pullAhead.pull ⟨false, true⟩ pullAhead.pullDepth
        (FinishPins.mk ⟨Uuid.ofNat 41⟩ ⟨Uuid.ofNat 42⟩).framePin s = (.ok v, t) ∧
      t.stack = s.stack ∧ t.executed = [⟨Uuid.ofNat 3⟩, ⟨Uuid.ofNat 5⟩, ⟨Uuid.ofNat 2⟩] ∧
      ∀ n ∈ t.executed, (t.pulledExits.get? n).isSome) ∧
    ∃ t, dataLoop.pull ⟨false, true⟩ dataLoop.pullDepth
        (FinishPins.mk ⟨Uuid.ofNat 41⟩ ⟨Uuid.ofNat 42⟩).framePin s =
          (.error (.cyclic ⟨Uuid.ofNat 2⟩
            [⟨Uuid.ofNat 77⟩, ⟨Uuid.ofNat 4⟩, ⟨Uuid.ofNat 2⟩, ⟨Uuid.ofNat 3⟩]), t) ∧
      t.stack = s.stack := by
  let s := { RunState.initial .empty with stack := [⟨Uuid.ofNat 77⟩, ⟨Uuid.ofNat 4⟩] }
  obtain ⟨-, hmet, -⟩ := pull_balanced pullAhead_wellFormed pullAhead_isBuiltin ⟨false, true⟩ s
    (p := (FinishPins.mk ⟨Uuid.ofNat 41⟩ ⟨Uuid.ofNat 42⟩).framePin) (by decide) rfl
  obtain ⟨-, hfailed, -⟩ := pull_balanced dataLoop_wellFormed pullAhead_isBuiltin ⟨false, true⟩ s
    (p := (FinishPins.mk ⟨Uuid.ofNat 41⟩ ⟨Uuid.ofNat 42⟩).framePin) (by decide) rfl
  refine ⟨s, rfl, ⟨_, _, rfl, hmet.stack, by decide +kernel, fun n hn => ?_⟩, _, rfl, hfailed.stack⟩
  exact (hmet.kept _ rfl n hn).resolve_left List.not_mem_nil

end Graph

end Patchbay
