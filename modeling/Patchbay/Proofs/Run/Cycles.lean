import Patchbay.Proofs.Run.Once

/-!
# What counts as a cycle

A run fails over a cycle only if there is one, made of flow links alone or of data links alone, and
the call stack shows it. Nodes that flow has left stay on the call stack, but they have been executed,
so data can be asked of them again: the node that is found on the stack is always one whose own data
is still being asked for.

Conversely no cycle is missed. Flow that comes back to its path fails at once. A node whose data
depends on a cycle of data links can never be executed to the end: what an executed node depends on is
well founded (`Graph.Grounded`).
-/

namespace Patchbay

open Relation

namespace Graph

/-- Data links join a node to the one it takes data from. -/
def DataLink (g : Graph) (n m : NodeId) : Prop :=
  ∃ l ∈ g.links, l.flow = false ∧ l.toNode = n ∧ l.fromNode = m

/-- Node `n` asks for the value of a pin that node `m` supplies when it is executed. -/
def ReadsFrom (g : Graph) (n m : NodeId) : Prop :=
  ∃ a ∈ g.nodes, a.id = n ∧ ∃ p ∈ a.reads, ∃ b q, g.Supplies p b q ∧ b.id = m

/-! ## Reading and data links -/

/-- The pins that a node asks for carry data. -/
lemma isFlow_of_mem_reads {n : Node} {p : Pin} (h : p ∈ n.reads) : p.isFlow = false := by
  rw [Node.reads] at h
  split at h
  · rw [List.mem_singleton.mp h]
    rfl
  · split_ifs at h
    · rw [List.mem_singleton.mp h]
      rfl
    · cases h
  · simp only [List.mem_cons, List.not_mem_nil, or_false] at h
    rcases h with rfl | rfl | rfl <;> rfl
  all_goals cases h

/-- A node that has inputs and outputs for data asks for all the data it can get. -/
lemma mem_reads_of_data {n : Node} (hn : n.body.isBuiltin = true) {p q : Pin} (hp : p ∈ n.inputs)
    (hpdata : p.isFlow = false) (hq : q ∈ n.outputs) (hqdata : q.isFlow = false) : p ∈ n.reads := by
  rw [Node.inputs] at hp
  rw [Node.outputs] at hq
  rw [Node.reads]
  cases hbody : n.body with
  | transition pins settings =>
    simp only [hbody, Body.inputs, List.mem_cons, List.not_mem_nil, or_false] at hp ⊢
    rcases hp with rfl | hp
    · cases hpdata
    · exact hp
  | scripted t ins outs => simp [hbody, Body.isBuiltin] at hn
  | finish pins => simp [hbody, Body.outputs] at hq
  | branch pins =>
    simp only [hbody, Body.outputs, List.mem_cons, List.not_mem_nil, or_false] at hq
    rcases hq with rfl | rfl <;> cases hqdata
  | _ => simp [hbody, Body.inputs] at hp

section Links

variable {g : Graph} (hg : g.WellFormed) (hb : g.IsBuiltin) {n m : NodeId}
include hg hb

/-- What a node reads from, it is linked to. -/
theorem ReadsFrom.dataLink (h : g.ReadsFrom n m) : g.DataLink n m := by
  obtain ⟨a, ha, rfl, p, hp, b, q, hs, rfl⟩ := h
  have hin := a.reads_subset hp
  have hsource := hs.source
  simp only [sourceOf?, Node.direction_of_mem_inputs (hb a ha) hin,
    Option.map_eq_some_iff] at hsource
  obtain ⟨l, hl, hfrom⟩ := hsource
  obtain ⟨hmem, hto, a', b', p', q', hj⟩ := hg.linkTo?_joins hl
  obtain ⟨rfl, rfl⟩ := hg.eq_of_pin hj.target ha hj.owns_target (List.mem_append_left _ hin)
    (hj.toPin.symm.trans hto)
  obtain ⟨rfl, rfl⟩ := hg.eq_of_pin hj.source hs.mem hj.owns_source hs.owns
    (hj.fromPin.symm.trans hfrom)
  exact ⟨l, hmem, hj.isFlow_eq.2.symm.trans (isFlow_of_mem_reads hp), hj.toNode, hj.fromNode⟩

/-- A node that data is taken from reads from every node it is linked to. -/
theorem DataLink.readsFrom {c : NodeId} (h : g.DataLink n m) (hout : g.DataLink c n) :
    g.ReadsFrom n m := by
  obtain ⟨l, hl, hflow, rfl, rfl⟩ := h
  obtain ⟨l', hl', hflow', rfl, hid⟩ := hout
  obtain ⟨a, b, p, q, hj⟩ := hg.joins l hl
  obtain ⟨a', b', p', q', hj'⟩ := hg.joins l' hl'
  obtain rfl := hg.eq_of_id hj'.source hj.target (hj'.fromNode.symm.trans (hid.trans hj.toNode))
  have hq : q ∈ a'.inputs := by
    rcases List.mem_append.mp hj.owns_target with hq | hq
    · exact hq
    · have hout := Node.direction_of_mem_outputs (hb a' hj.target) hq
      rw [hj.input] at hout
      cases hout
  have hp' := Node.mem_outputs_of_direction (hb a' hj.target) hj'.owns_source hj'.output
  have hreads := mem_reads_of_data (hb a' hj.target) hq (hj.isFlow_eq.2.trans hflow) hp'
    (hj'.isFlow_eq.1.trans hflow')
  refine ⟨a', hj.target, hj.toNode.symm, q, hreads, a, p, ⟨hj.source, hj.owns_source, hj.output, ?_⟩,
    hj.fromNode.symm⟩
  simp [sourceOf?, hj.input, ← hj.toPin, hg.linkTo?_of_mem hl, hj.fromPin]

/-- Along a cycle of data links, every node reads from the next. -/
theorem readsFrom_of_cycle (h : TransGen g.DataLink n n) : TransGen g.ReadsFrom n n := by
  have hpath : ∀ {m : NodeId}, TransGen g.DataLink n m →
      TransGen g.ReadsFrom n m ∧ ∃ c, g.DataLink c m := by
    intro m hm
    induction hm with
    | single hlink =>
      obtain ⟨c, -, hc⟩ := (TransGen.tail'_iff).mp h
      exact ⟨.single (hlink.readsFrom hg hb hc), n, hlink⟩
    | tail _ hlink ih =>
      obtain ⟨hreads, c, hc⟩ := ih
      exact ⟨hreads.tail (hlink.readsFrom hg hb hc), _, hlink⟩
  exact (hpath h).1

end Links

/-! ## The call stack shows a cycle -/

/-- A call stack that ends in a chain of related nodes, from an occurrence of node `n` on, which is
related to the last of them. -/
def Shows (R : NodeId → NodeId → Prop) (n : NodeId) (stack : List NodeId) : Prop :=
  ∃ below chain, stack = below ++ chain ∧ n ∉ below ∧ n ∈ chain ∧ List.IsChain R (chain ++ [n])

/-- The chain can be cut so that it begins at the first occurrence of the node on the stack. -/
theorem Shows.loop {R : NodeId → NodeId → Prop} {n : NodeId} {stack : List NodeId}
    (h : Shows R n stack) : ∃ before loop, stack = before ++ n :: loop ∧ n ∉ before ∧
      List.IsChain R (n :: loop ++ [n]) := by
  obtain ⟨below, chain, rfl, hbelow, hmem, hchain⟩ := h
  obtain ⟨before, loop, rfl, hbefore⟩ := List.eq_append_cons_of_mem hmem
  refine ⟨below ++ before, loop, by simp, by simp [hbelow, hbefore], ?_⟩
  rw [List.append_assoc] at hchain
  exact hchain.right_of_append

theorem Shows.mono {R S : NodeId → NodeId → Prop} (hRS : ∀ a b, R a b → S a b) {n : NodeId}
    {stack : List NodeId} (h : Shows R n stack) : Shows S n stack := by
  obtain ⟨below, chain, heq, hbelow, hmem, hchain⟩ := h
  exact ⟨below, chain, heq, hbelow, hmem, hchain.imp hRS⟩

/-- A chain of at least two nodes leads from the first to the last. -/
lemma transGen_of_isChain {α : Type} {R : α → α → Prop} {a b : α} {xs : List α}
    (h : List.IsChain R (a :: xs ++ [b])) : TransGen R a b := by
  induction xs generalizing a with
  | nil =>
    simp only [List.cons_append, List.nil_append, List.isChain_cons_cons] at h
    exact .single h.1
  | cons x xs ih =>
    simp only [List.cons_append, List.isChain_cons_cons] at h
    exact .head h.1 (ih h.2)

/-- Data is asked for by node `last`, which is entered on top of executed nodes `below` and of nodes
each of which reads from the next. -/
structure Asking (g : Graph) (s : RunState) (below chain : List NodeId) (last : NodeId)
    (ps : List Pin) : Prop where
  stack : s.stack = below ++ (chain ++ [last])
  executed : below ⊆ s.executed
  chain : List.IsChain g.ReadsFrom (chain ++ [last])
  reads : ∀ p ∈ ps, ∀ n q, g.Supplies p n q → g.ReadsFrom last n.id

/-- A node that is entered on top of executed nodes asks for its data. -/
theorem asking_begun {g : Graph} {s : RunState} {n : Node} (hn : n ∈ g.nodes)
    (hexecuted : s.stack ⊆ s.executed) : g.Asking (s.begun n.id) s.stack [] n.id n.reads :=
  ⟨rfl, hexecuted, List.isChain_singleton _, fun p hp m q hs => ⟨n, hn, rfl, p, hp, m, q, hs, rfl⟩⟩

/-- A node that is entered for its data asks for it in turn. -/
theorem Asking.begun {g : Graph} {s : RunState} {below chain : List NodeId} {last : NodeId}
    {p : Pin} {ps : List Pin} {n : Node} (h : g.Asking s below chain last (p :: ps))
    (hawaits : g.Awaits s p n) :
    g.Asking (s.begun n.id) below (chain ++ [last]) n.id n.reads := by
  obtain ⟨q, hs, -, -⟩ := hawaits
  have hreads := h.reads p List.mem_cons_self n q hs
  refine ⟨by simp [h.stack], h.executed, isChain_concat h.chain hreads, fun p' hp' m q' hs' => ?_⟩
  exact ⟨n, hs.mem, rfl, p', hp', m, q', hs', rfl⟩

/-- **Asking for data fails over a cycle of reads only**, and the call stack shows it. -/
theorem Pulls.shows {g : Graph} (hb : g.IsBuiltin) {s t : RunState} {ps : List Pin}
    {r : Except RunError (List Value)} (h : g.Pulls s ps r t) :
    ∀ {below chain last}, g.Asking s below chain last ps → ∀ n stack,
      r = .error (.cyclic n stack) → Shows g.ReadsFrom n stack := by
  induction h with
  | nothing s =>
    rintro _ _ _ _ _ _ ⟨⟩
  | @known s t p ps v r answer rest ih =>
    intro below chain last hasking n stack he
    refine ih ⟨hasking.stack, hasking.executed, hasking.chain,
      fun p hp => hasking.reads p (List.mem_cons_of_mem _ hp)⟩ n stack ?_
    cases r with
    | error e => exact he
    | ok vs => cases he
  | @cyclic s p ps n awaits busy =>
    rintro below chain last hasking _ _ ⟨⟩
    obtain ⟨q, hs, -, hfresh⟩ := awaits
    have hbelow : n.id ∉ below := fun hmem => hfresh (hasking.executed hmem)
    refine ⟨below, chain ++ [last], hasking.stack, hbelow, ?_,
      isChain_concat hasking.chain (hasking.reads p List.mem_cons_self n q hs)⟩
    exact (List.mem_append.mp (hasking.stack ▸ busy)).resolve_left hbelow
  | failing awaits idle reads ih =>
    intro below chain last hasking
    exact ih (hasking.begun awaits)
  | @supplied s t u w p ps n vs exit r awaits idle reads conclude rest ih ih' =>
    intro below chain last hasking
    have hdue := awaits.due idle
    obtain ⟨-, hc⟩ := Node.concludes_of_eq (hb n hdue.mem) (reads.length_eq vs rfl) conclude
    have hgrows := (hdue.extends_ended ((reads.grows hb).trans
      (hc.grows (awaits.not_isExit hb)))).trans (RunState.extends_keepExit _ n.id exit)
    exact ih' ⟨hgrows.stack.trans hasking.stack,
      List.Subset.trans hasking.executed hgrows.executed.subset, hasking.chain, hasking.reads⟩

/-- **Entering a node fails over a cycle of flow or a cycle of reads**, and the call stack shows
it. -/
theorem Enters.shows {g : Graph} (hb : g.IsBuiltin) {c : FlowPoint} (hc : c.Sound g) {n : Node}
    (hn : n ∈ g.nodes) (hid : n.id = c.node) {t : RunState} {m : NodeId} {stack : List NodeId}
    (h : g.Enters n c.state (.error (.cyclic m stack)) t) :
    Shows g.FlowLink m stack ∨ Shows g.ReadsFrom m stack := by
  cases h with
  | busy mem =>
    refine Or.inl ⟨[], c.state.stack, rfl, List.not_mem_nil, mem, ?_⟩
    rw [hc.stack, hid]
    exact hc.chain
  | failing idle new executes =>
    cases executes with
    | failing reads =>
      have hasking := asking_begun (s := c.state) hn (hc.stack ▸ hc.executed)
      exact Or.inr (reads.shows hb hasking m stack rfl)

/-! ## No cycle is missed -/

/-- Following reads from the node comes to an end. -/
def Grounded (g : Graph) (n : NodeId) : Prop := Acc (fun a b => g.ReadsFrom b a) n

/-- A node whose data depends on a cycle of data links is not grounded. -/
theorem not_grounded_of_cycle {g : Graph} (hg : g.WellFormed) (hb : g.IsBuiltin) {n m : NodeId}
    (h : ReflTransGen g.ReadsFrom n m) (hcycle : TransGen g.DataLink m m) : ¬ g.Grounded n := by
  intro hn
  have hcycle' := readsFrom_of_cycle hg hb hcycle
  induction hn with
  | intro n _ ih =>
    -- the way from the node to the cycle and on along the cycle never ends
    have hstep : ∃ b, g.ReadsFrom n b ∧ ReflTransGen g.ReadsFrom b m := by
      rcases h.cases_head with rfl | hhead
      · exact TransGen.head'_iff.mp hcycle'
      · exact hhead
    obtain ⟨b, hb', hrest⟩ := hstep
    exact ih b hb' hrest

/-- All nodes that have been executed are grounded. -/
def AllGrounded (g : Graph) (s : RunState) : Prop := ∀ n ∈ s.executed, g.Grounded n

/-- A node is grounded if the suppliers of the pins it reads are. -/
lemma grounded_of_reads {g : Graph} (hg : g.WellFormed) {n : Node} (hn : n ∈ g.nodes)
    {vs : List Value}
    (h : List.Forall₂ (fun p _ => ∀ m q, g.Supplies p m q → g.Grounded m.id) n.reads vs) :
    g.Grounded n.id := by
  have hall : ∀ p ∈ n.reads, ∀ m q, g.Supplies p m q → g.Grounded m.id :=
    ((List.forall₂_and_left n.reads vs).mp (h.imp fun _ _ hp => ⟨hp, trivial⟩ :
      List.Forall₂ (fun p _ => _ ∧ True) n.reads vs)).1
  refine Acc.intro _ fun b hread => ?_
  obtain ⟨a, ha, hid, p, hp, m, q, hs, rfl⟩ := hread
  obtain rfl := hg.eq_of_id ha hn hid
  exact hall p hp m q hs

section Grounded

variable {g : Graph} (hg : g.WellFormed) (hb : g.IsBuiltin) {s t : RunState}
include hg hb

/-- If data is asked for with success, its suppliers are grounded, and so is every node executed on
the way. -/
theorem Pulls.grounded {ps : List Pin} {vs : List Value} (h : g.Pulls s ps (.ok vs) t)
    (hps : ps ⊆ g.pins) (hs : g.Orderly s) (hground : g.AllGrounded s) :
    (g.Orderly t ∧ g.AllGrounded t) ∧
      List.Forall₂ (fun p _ => ∀ n q, g.Supplies p n q → g.Grounded n.id) ps vs := by
  refine h.invariant_ok hb (I := fun s => g.Orderly s ∧ g.AllGrounded s)
    (V := fun p _ => ∀ n q, g.Supplies p n q → g.Grounded n.id)
    (fun s p v hI _ hanswer n q hsup => hI.2 n.id (hI.1.executed_of_answer? hg hsup hanswer))
    (fun s n hI hdue => ⟨hI.1.begun hdue, hI.2⟩) ?_ ⟨hs, hground⟩ hps vs rfl
  intro below s t n vs exit hI hbusy hinner hreads hconclude
  have hlen := hreads.length_eq.symm
  obtain ⟨-, hc⟩ := Node.concludes_of_eq (hb n hbusy.mem) hlen hconclude
  refine ⟨hbusy.orderly_supplied hg hb hI.1 hinner hlen hconclude, fun m hm => ?_⟩
  rw [RunState.keepExit, (hbusy.conclude hc hinner).ended_eq, hc.executed] at hm
  rcases List.mem_append.mp hm with hm | hm
  · exact hI.2 m hm
  · rw [List.mem_singleton.mp hm]
    exact grounded_of_reads hg hbusy.mem hreads

/-- A node that flow has entered is grounded, and so is every node executed on the way. -/
theorem Enters.grounded {c : FlowPoint} (hc : c.Sound g) (hground : g.AllGrounded c.state) {n : Node}
    (hn : n ∈ g.nodes) {exit : Option PinId} (h : g.Enters n c.state (.ok exit) t) :
    g.AllGrounded t := by
  cases h with
  | again idle kept =>
    have hex := (hc.orderly.exits_accounted n hn exit kept).2.2
    intro m hm
    rcases RunState.mem_mark.mp hm with hm | rfl
    · exact hground m hm
    · exact hground _ hex
  | executing idle new executes =>
    have hdue := hc.due hn idle new
    cases executes with
    | @concluding u _ vs _ reads conclude =>
      obtain ⟨⟨-, hu⟩, hreads⟩ := reads.grounded hg hb (reads_subset_pins hn)
        (hc.orderly.begun hdue) hground
      obtain ⟨-, hconcludes⟩ :=
        Node.concludes_of_eq (hb n hn) hreads.length_eq.symm conclude
      intro m hm
      rcases RunState.mem_mark.mp hm with hm | rfl
      · exact hu m (hconcludes.executed ▸ hm)
      · exact grounded_of_reads hg hn hreads

/-- **If a walk ends without failing**, every node whose execution began is recorded as executed, and
is grounded. -/
theorem ends_grounded {c : FlowPoint} (hc : c.Sound g) (hground : g.AllGrounded c.state)
    {outcome : RunStatus × List NodeId} (h : c.Ends g (.ok outcome) t) :
    ∀ n ∈ t.log, g.Grounded n := by
  have hentered : ∀ {n : Node} {exit : Option PinId} {u : RunState}, n ∈ g.nodes →
      g.Enters n c.state (.ok exit) u → ∀ m ∈ u.log, g.Grounded m := by
    intro n exit u hn henters m hm
    have hspec := hc.entered hg hb hn henters
    have hex : m ∈ u.executed := by
      refine (hspec.orderly.log_accounted m hm).elim id fun hstack => hspec.executed ?_
      rw [hspec.stack] at hstack
      split_ifs at hstack
      · cases hstack
      · exact hstack
    exact henters.grounded hg hb hc hground hn m hex
  cases h with
  | stopped raised =>
    intro m hm
    have hex : m ∈ c.state.executed :=
      (hc.orderly.log_accounted m hm).elim id fun hstack => hc.executed (hc.stack ▸ hstack)
    exact hground m hex
  | completed hn hid outer running henters => exact hentered hn henters
  | halted hn hid inner running henters nowhere => exact hentered hn henters

end Grounded

/-! ## Runs -/

section Runs

variable {g : Graph} (hg : g.WellFormed) (hb : g.IsBuiltin) (mode : RunMode) {start : NodeId}
  (hstart : g.hasNode start = true) {s : RunState} (hs : s.stack = [])
include hg hb hstart hs

/-- A run that fails over a cycle shows it on the call stack. -/
theorem runFrom_shows {n : NodeId} {stack : List NodeId}
    (h : (g.runFrom mode start s).1 = .error (.cyclic n stack)) :
    Shows g.FlowLink n stack ∨ Shows g.DataLink n stack := by
  obtain ⟨d, r, t, -, hsound, -, hends, hrun⟩ :=
    runFrom_spec hg hb mode (hasNode_iff.mp hstart) hs
  rw [hrun] at h
  cases r with
  | ok outcome => cases h
  | error e =>
    obtain rfl := Except.error.inj h
    cases hends with
    | failed hn hid running henters =>
      exact (henters.shows hb hsound hn hid).imp_right (.mono fun _ _ hread => hread.dataLink hg hb)

/-- Flow that comes back to its path makes the run fail there. -/
theorem runFrom_of_flow_back {c : FlowPoint}
    (hreached : g.Reached mode ⟨s.begin, start, none, []⟩ c) (hback : c.node ∈ c.path) :
    (g.runFrom mode start s).1 = .error (.cyclic c.node c.path) := by
  have hbegin := FlowPoint.sound_begin (g := g) hs (hasNode_iff.mp hstart)
  have hc := FlowPoint.sound_of_reached hg hb hreached hbegin
  have hnew : ∀ {n : Node} {exit : Option PinId} {t : RunState}, n ∈ g.nodes → n.id = c.node →
      g.Enters n c.state (.ok exit) t → False := fun hn hid henters =>
    (hc.entered hg hb hn henters).new (hid ▸ hback)
  have hnone : g.next? mode c = none := by
    rcases walk_step hg hb mode hc with ⟨_, _, hnone, -, -⟩ | ⟨d, -, hgoes, -⟩
    · exact hnone
    · cases hgoes with
      | onward hn hid inner running henters first => exact (hnew hn hid henters).elim
  have hrunning : c.state.stopped = false := by
    rcases ReflTransGen.cases_tail hreached with rfl | ⟨b, hb', hstep⟩
    · cases hback
    · have hbs := FlowPoint.sound_of_reached hg hb hb' hbegin
      cases FlowPoint.goes_of_next? hg hb hbs hstep with
      | onward hn hid inner running henters first =>
        exact (hbs.entered hg hb hn henters).stopped.trans running
  obtain ⟨d, r, t, hd, -, hdnone, hends, hrun⟩ :=
    runFrom_spec hg hb mode (hasNode_iff.mp hstart) hs
  obtain rfl := reached_unique hreached hd hnone hdnone
  rw [hrun]
  cases hends with
  | stopped raised =>
    rw [hrunning] at raised
    cases raised
  | @failed n t e hn hid running henters =>
    have hmem : n.id ∈ c.state.stack := by rw [hc.stack, hid]; exact hback
    cases henters with
    | busy mem => rw [hid, hc.stack]; rfl
    | failing idle new executes => exact absurd hmem idle
  | completed hn hid outer running henters => exact (hnew hn hid henters).elim
  | halted hn hid inner running henters nowhere => exact (hnew hn hid henters).elim

/-- A run that executes a node whose data depends on a cycle of data links fails. -/
theorem runFrom_of_data_cycle {n m : NodeId} (hlog : n ∈ (g.runFrom mode start s).2.log)
    (hreads : TransGen g.ReadsFrom n m) (hcycle : TransGen g.DataLink m m) :
    ∃ k stack, (g.runFrom mode start s).1 = .error (.cyclic k stack) := by
  obtain ⟨d, r, t, hreached, hsound, -, hends, hrun⟩ :=
    runFrom_spec hg hb mode (hasNode_iff.mp hstart) hs
  rw [hrun] at hlog ⊢
  cases r with
  | error e =>
    obtain ⟨k, stack, rfl⟩ := (hends.tallied hg hb hsound).error_eq e rfl
    exact ⟨k, stack, rfl⟩
  | ok outcome =>
    have hground : g.AllGrounded d.state := FlowPoint.invariant_of_reached hg hb
      (fun c n exit t hc hn hI henters => henters.grounded hg hb hc hI hn) hreached
      (FlowPoint.sound_begin hs (hasNode_iff.mp hstart)) (fun n hn => by cases hn)
    have hn := ends_grounded hg hb hsound hground hends n hlog
    exact absurd hn (not_grounded_of_cycle hg hb hreads.to_reflTransGen hcycle)

/-- **Cycles are found exactly.** A run that fails over a cycle at node `n` has `n` on its call stack,
and from the first occurrence of `n` on the stack is a cycle, all along flow links or all along data
links, from consumers to sources. So in a graph that has neither a cycle of flow links nor one of data
links, no run fails like this. Conversely, a run fails like this if flow comes back to its path, and
if it executes a node that asks, directly or through other nodes, for data of a node on a cycle of
data links. -/
theorem runFrom_cyclic :
    (∀ n stack, (g.runFrom mode start s).1 = .error (.cyclic n stack) →
      ∃ before loop, stack = before ++ n :: loop ∧ n ∉ before ∧
        (List.IsChain g.FlowLink (n :: loop ++ [n]) ∨
          List.IsChain g.DataLink (n :: loop ++ [n]))) ∧
    ((∀ n, ¬ TransGen g.FlowLink n n) → (∀ n, ¬ TransGen g.DataLink n n) →
      ∀ n stack, (g.runFrom mode start s).1 ≠ .error (.cyclic n stack)) ∧
    (∀ c, g.Reached mode ⟨s.begin, start, none, []⟩ c → c.node ∈ c.path →
      (g.runFrom mode start s).1 = .error (.cyclic c.node c.path)) ∧
    ∀ n m, n ∈ (g.runFrom mode start s).2.log → TransGen g.ReadsFrom n m →
      TransGen g.DataLink m m →
      ∃ k stack, (g.runFrom mode start s).1 = .error (.cyclic k stack) := by
  have hloop : ∀ n stack, (g.runFrom mode start s).1 = .error (.cyclic n stack) →
      ∃ before loop, stack = before ++ n :: loop ∧ n ∉ before ∧
        (List.IsChain g.FlowLink (n :: loop ++ [n]) ∨
          List.IsChain g.DataLink (n :: loop ++ [n])) := by
    intro n stack h
    rcases runFrom_shows hg hb mode hstart hs h with hshows | hshows
    · obtain ⟨before, loop, heq, hnew, hchain⟩ := hshows.loop
      exact ⟨before, loop, heq, hnew, Or.inl hchain⟩
    · obtain ⟨before, loop, heq, hnew, hchain⟩ := hshows.loop
      exact ⟨before, loop, heq, hnew, Or.inr hchain⟩
  refine ⟨hloop, fun hflow hdata n stack h => ?_, fun c hc hback => ?_,
    fun n m hlog hreads hcycle => ?_⟩
  · obtain ⟨before, loop, -, -, hchain⟩ := hloop n stack h
    rcases hchain with hchain | hchain
    · exact hflow n (transGen_of_isChain hchain)
    · exact hdata n (transGen_of_isChain hchain)
  · exact runFrom_of_flow_back hg hb mode hstart hs hc hback
  · exact runFrom_of_data_cycle hg hb mode hstart hs hlog hreads hcycle

end Runs

/-- The example with a link more, so that each of the transitions takes its first picture from the
other. -/
def dataLoop : Graph :=
  { pullAhead with links := pullAhead.links ++ [exampleLink 67 2 25 3 31 false] }

theorem dataLoop_wellFormed : dataLoop.WellFormed :=
  pullAhead_wellFormed.link
    (show pullAhead.link ⟨Uuid.ofNat 67⟩ ⟨Uuid.ofNat 25⟩ ⟨Uuid.ofNat 31⟩ = .ok dataLoop from rfl)

/-- A run that executes the first transition of the loop fails. -/
theorem dataLoop_cyclic : ∃ k stack,
    (dataLoop.runFrom ⟨false, true⟩ ⟨Uuid.ofNat 1⟩ (.initial .empty)).1 =
      .error (.cyclic k stack) := by
  have hback : dataLoop.DataLink ⟨Uuid.ofNat 2⟩ ⟨Uuid.ofNat 3⟩ :=
    ⟨exampleLink 64 3 35 2 21 false, by simp [dataLoop, pullAhead], rfl, rfl, rfl⟩
  have hforth : dataLoop.DataLink ⟨Uuid.ofNat 3⟩ ⟨Uuid.ofNat 2⟩ :=
    ⟨exampleLink 67 2 25 3 31 false, by simp [dataLoop], rfl, rfl, rfl⟩
  have hread := hback.readsFrom dataLoop_wellFormed pullAhead_isBuiltin hforth
  exact (runFrom_cyclic dataLoop_wellFormed pullAhead_isBuiltin ⟨false, true⟩ (by decide) rfl).2.2.2
    ⟨Uuid.ofNat 2⟩ ⟨Uuid.ofNat 3⟩ (by decide +kernel) (.single hread)
    (.head hforth (.single hback))

end Graph

end Patchbay
