import Patchbay.Proofs.Graph.WellFormed
import Patchbay.Proofs.Run.Builtin

/-!
# Asking for data, as a derivation

`Graph.Pulls g s ps r t` says that asking for the values of the pins `ps` one after the other from
state `s` comes to `r` and leaves state `t`. It has one rule for each thing that can happen to the
first pin: its value is known already, the node that supplies it is on the call stack, that node
fails, or it is executed, and then the pin is asked for again and its value is known.

`Graph.pull` is bounded in depth and the relation is not. `Graph.mapM_pull_of_idleCount` shows that the
bound is never felt in a well-formed graph of built-in nodes: every node entered is new to the call
stack, so no more nodes are entered than there are beside it. What holds of pulls is then shown by
induction on derivations.
-/

namespace Patchbay

open Patchbay.Action RunM

/-! ## Where values come from -/

namespace Graph

/-- Node `n` supplies the value of pin `p` through its output pin `q`. -/
structure Supplies (g : Graph) (p : Pin) (n : Node) (q : Pin) : Prop where
  mem : n ∈ g.nodes
  owns : q ∈ n.pins
  output : q.direction = .output
  source : g.sourceOf? p = some q.id

/-- The value of a pin, as far as it is known without executing anything. -/
def answer? (g : Graph) (s : RunState) (p : Pin) : Option Value :=
  match g.sourceOf? p with
  | none => some ((s.cache.get? p.id).getD (s.memory.value p))
  | some source =>
    match s.cache.get? source with
    | some v => some v
    | none =>
      match g.pin? source, g.owner? source with
      | some q, some owner =>
        if s.executed.contains owner then some q.type.defaultValue else none
      | _, _ => none

/-- Pin `p` has to wait for node `n`, which has neither published the value nor been executed. -/
def Awaits (g : Graph) (s : RunState) (p : Pin) (n : Node) : Prop :=
  ∃ q, g.Supplies p n q ∧ s.cache.get? q.id = none ∧ n.id ∉ s.executed

namespace WellFormed

variable {g : Graph} (hg : g.WellFormed)
include hg

/-- A pin of the graph either is an unlinked input or has a supplier. -/
theorem supplies_of_sourceOf? {p : Pin} (hp : p ∈ g.pins) {i : PinId}
    (h : g.sourceOf? p = some i) : ∃ n q, g.Supplies p n q ∧ q.id = i := by
  rw [sourceOf?] at h
  cases hdir : p.direction with
  | input =>
    simp only [hdir, Option.map_eq_some_iff] at h
    obtain ⟨l, hl, rfl⟩ := h
    obtain ⟨-, -, a, b, q, q', hj⟩ := hg.linkTo?_joins hl
    refine ⟨a, q, ⟨hj.source, hj.owns_source, hj.output, ?_⟩, hj.fromPin.symm⟩
    simp [sourceOf?, hdir, hl, hj.fromPin]
  | output =>
    simp only [hdir, Option.some.injEq] at h
    obtain ⟨n, hn, hpn⟩ := List.mem_flatMap.mp hp
    exact ⟨n, p, ⟨hn, hpn, hdir, by simp [sourceOf?, hdir]⟩, h⟩

/-- A pin whose value is not known waits for its supplier. -/
theorem awaits_of_answer? {s : RunState} {p : Pin} (hp : p ∈ g.pins) (h : g.answer? s p = none) :
    ∃ n, g.Awaits s p n := by
  rw [answer?] at h
  cases hsource : g.sourceOf? p with
  | none => simp [hsource] at h
  | some i =>
    obtain ⟨n, q, hs, rfl⟩ := hg.supplies_of_sourceOf? hp hsource
    cases hcache : s.cache.get? q.id with
    | some v => simp [hsource, hcache] at h
    | none =>
      refine ⟨n, q, hs, hcache, fun hex => ?_⟩
      simp [hsource, hcache, hg.pin?_of_mem hs.mem hs.owns, hg.owner?_of_mem hs.mem hs.owns,
        hex] at h

/-- Once its supplier has been executed, the value of a pin is known. -/
theorem answer?_of_executed {s : RunState} {p : Pin} {n : Node} {q : Pin} (h : g.Supplies p n q)
    (hex : n.id ∈ s.executed) :
    g.answer? s p = some ((s.cache.get? q.id).getD q.type.defaultValue) := by
  rw [answer?]
  rw [h.source]
  dsimp only
  cases hcache : s.cache.get? q.id with
  | some v => rfl
  | none => simp [hg.pin?_of_mem h.mem h.owns, hg.owner?_of_mem h.mem h.owns, hex]

end WellFormed

/-- A supplier is never an end node: those have no outputs. -/
theorem Supplies.not_isExit {g : Graph} (hb : g.IsBuiltin) {p : Pin} {n : Node} {q : Pin}
    (h : g.Supplies p n q) : n.isExit = false := by
  rw [← Bool.not_eq_true, Node.isExit_iff (hb n h.mem)]
  rintro ⟨pins, hbody⟩
  have howns := h.owns
  have hout := h.output
  simp only [Node.pins, Node.inputs, Node.outputs, hbody, Body.inputs, Body.outputs,
    List.append_nil, List.mem_cons, List.not_mem_nil, or_false] at howns
  rcases howns with rfl | rfl <;> cases hout

end Graph

/-! ## Derivations -/

namespace RunState

/-- The state in which a node is executed for its data. -/
def begun (s : RunState) (n : NodeId) : RunState := (s.push n).logged n

@[simp] theorem begun_stack (s : RunState) (n : NodeId) : (s.begun n).stack = s.stack ++ [n] := rfl

/-- The state after a node has been executed for its data. -/
def ended (s : RunState) (n : NodeId) : RunState := (s.pop n).mark n

/-- What only grows while a run asks for data. -/
structure Extends (s t : RunState) : Prop where
  /-- Whatever is pushed is popped again. -/
  stack : t.stack = s.stack
  stopped : t.stopped = s.stopped
  executed : s.executed <+: t.executed
  /-- No node is recorded as executed while it is on the call stack. -/
  fresh : ∀ n ∈ s.stack, n ∈ t.executed → n ∈ s.executed
  pulled : ∀ n, (s.pulledExits.get? n).isSome → (t.pulledExits.get? n).isSome

theorem Extends.refl (s : RunState) : s.Extends s :=
  ⟨rfl, rfl, List.prefix_refl _, fun _ _ h => h, fun _ h => h⟩

theorem Extends.trans {s t u : RunState} (h : s.Extends t) (h' : t.Extends u) : s.Extends u where
  stack := h'.stack.trans h.stack
  stopped := h'.stopped.trans h.stopped
  executed := h.executed.trans h'.executed
  fresh n hn hex := h.fresh n hn (h'.fresh n (h.stack.symm ▸ hn) hex)
  pulled n hn := h'.pulled n (h.pulled n hn)

/-- Keeping an exit only grows the records. -/
theorem extends_keepExit (s : RunState) (n : NodeId) (exit : Option PinId) :
    s.Extends (s.keepExit n exit) := by
  refine ⟨rfl, rfl, List.prefix_refl _, fun _ _ h => h, fun m hm => ?_⟩
  simp only [keepExit, Table.get?_set]
  split_ifs
  · rfl
  · exact hm

end RunState

/-- Concluding a node that is no end node leaves the bookkeeping alone. -/
theorem Node.Concludes.grows {n : Node} {s t : RunState} (h : n.Concludes s t)
    (hexit : n.isExit = false) : s.Extends t where
  stack := by simp [h.stack, hexit]
  stopped := h.stopped
  executed := h.executed ▸ List.prefix_refl _
  fresh _ _ hex := h.executed ▸ hex
  pulled _ hm := h.pulledExits.symm ▸ hm

namespace Graph

/-- Node `n` is of the graph and has neither been entered nor executed. -/
structure Due (g : Graph) (s : RunState) (n : Node) : Prop where
  mem : n ∈ g.nodes
  idle : n.id ∉ s.stack
  fresh : n.id ∉ s.executed

/-- Node `n` is being executed on top of the nodes `below`. -/
structure Busy (g : Graph) (below : List NodeId) (s : RunState) (n : Node) : Prop where
  mem : n ∈ g.nodes
  stack : s.stack = below ++ [n.id]
  fresh : n.id ∉ s.executed

/-- A node that a pin waits for is due unless it has been entered. -/
theorem Awaits.due {g : Graph} {s : RunState} {p : Pin} {n : Node} (h : g.Awaits s p n)
    (idle : n.id ∉ s.stack) : g.Due s n :=
  let ⟨_, hs, _, hex⟩ := h
  ⟨hs.mem, idle, hex⟩

theorem Awaits.mem {g : Graph} {s : RunState} {p : Pin} {n : Node} (h : g.Awaits s p n) :
    n ∈ g.nodes :=
  let ⟨_, hs, _⟩ := h
  hs.mem

theorem Awaits.not_isExit {g : Graph} {s : RunState} {p : Pin} {n : Node} (h : g.Awaits s p n)
    (hb : g.IsBuiltin) : n.isExit = false :=
  let ⟨_, hs, _⟩ := h
  hs.not_isExit hb

/-- Entering a due node does not repeat a node on the call stack. -/
theorem Due.nodup_begun {g : Graph} {s : RunState} {n : Node} (h : g.Due s n)
    (hnd : s.stack.Nodup) : (s.begun n.id).stack.Nodup := by
  rw [RunState.begun_stack, ← List.concat_eq_append]
  exact hnd.concat h.idle

theorem Due.begun_subset {g : Graph} {s : RunState} {n : Node} (h : g.Due s n)
    (hsub : s.stack ⊆ g.nodeIds) : (s.begun n.id).stack ⊆ g.nodeIds :=
  List.append_subset.mpr
    ⟨hsub, List.cons_subset.mpr ⟨List.mem_map_of_mem h.mem, List.nil_subset _⟩⟩

/-- Asking for data while a node is being executed comes back to the node. -/
theorem Due.busy {g : Graph} {s t : RunState} {n : Node} (h : g.Due s n)
    (hext : (s.begun n.id).Extends t) : g.Busy s.stack t n where
  mem := h.mem
  stack := hext.stack
  fresh hex :=
    h.fresh (hext.fresh n.id (by simp [RunState.begun, RunState.push, RunState.logged]) hex)

namespace Busy

variable {g : Graph} {below : List NodeId} {s t : RunState} {n : Node} (h : g.Busy below s n)
include h

/-- What is left when a node has been executed for its data. -/
theorem ended_eq : s.ended n.id = { s with stack := below, executed := s.executed ++ [n.id] } := by
  rw [RunState.ended, RunState.pop_eq h.stack]
  exact RunState.mark_eq h.fresh

/-- Concluding a node that is no end node leaves it busy. -/
theorem conclude (hc : n.Concludes s t) (hexit : n.isExit = false) : g.Busy below t n where
  mem := h.mem
  stack := by rw [hc.stack, hexit]; exact h.stack
  fresh := by rw [hc.executed]; exact h.fresh

end Busy

/-- Executing a node for its data only grows the records. -/
theorem Due.extends_ended {g : Graph} {s t : RunState} {n : Node} (h : g.Due s n)
    (hext : (s.begun n.id).Extends t) : s.Extends (t.ended n.id) := by
  rw [(h.busy hext).ended_eq]
  refine ⟨rfl, hext.stopped, hext.executed.trans (List.prefix_append _ _), ?_, hext.pulled⟩
  intro m hm hex
  rcases List.mem_append.mp hex with hex | hex
  · exact hext.fresh m (List.mem_append_left _ hm) hex
  · exact absurd (List.mem_singleton.mp hex ▸ hm) h.idle

/-- Asking for pins one after the other. -/
inductive Pulls (g : Graph) :
    RunState → List Pin → Except RunError (List Value) → RunState → Prop
  /-- There is nothing left to ask for. -/
  | nothing (s : RunState) : Pulls g s [] (.ok []) s
  /-- The value of the first pin is known. -/
  | known {s t : RunState} {p : Pin} {ps : List Pin} {v : Value} {r : Except RunError (List Value)}
      (answer : g.answer? s p = some v) (rest : Pulls g s ps r t) :
      Pulls g s (p :: ps) (r.map (v :: ·)) t
  /-- The node that the first pin waits for is being executed. -/
  | cyclic {s : RunState} {p : Pin} {ps : List Pin} {n : Node}
      (awaits : g.Awaits s p n) (busy : n.id ∈ s.stack) :
      Pulls g s (p :: ps) (.error (.cyclic n.id s.stack)) s
  /-- The node that the first pin waits for cannot have what it asks for. -/
  | failing {s t : RunState} {p : Pin} {ps : List Pin} {n : Node} {e : RunError}
      (awaits : g.Awaits s p n) (idle : n.id ∉ s.stack)
      (reads : Pulls g (s.begun n.id) n.reads (.error e) t) :
      Pulls g s (p :: ps) (.error e) (t.ended n.id)
  /-- The node that the first pin waits for is executed, and the pin is asked for again. -/
  | supplied {s t u w : RunState} {p : Pin} {ps : List Pin} {n : Node} {vs : List Value}
      {exit : Option PinId} {r : Except RunError (List Value)}
      (awaits : g.Awaits s p n) (idle : n.id ∉ s.stack)
      (reads : Pulls g (s.begun n.id) n.reads (.ok vs) t)
      (conclude : n.conclude g vs t = (.ok exit, u))
      (rest : Pulls g ((u.ended n.id).keepExit n.id exit) (p :: ps) r w) :
      Pulls g s (p :: ps) r w

namespace Pulls

variable {g : Graph} {s t : RunState} {ps : List Pin} {r : Except RunError (List Value)}

/-- Every pin asked for gets its value. -/
theorem length_eq (h : g.Pulls s ps r t) : ∀ vs, r = .ok vs → vs.length = ps.length := by
  induction h with
  | nothing s => rintro _ ⟨⟩; rfl
  | @known s t p ps v r answer rest ih =>
    rintro vs hvs
    cases r with
    | error e => cases hvs
    | ok vs' =>
      obtain rfl := Except.ok.inj hvs
      simp [ih vs' rfl]
  | cyclic awaits busy => rintro _ ⟨⟩
  | failing awaits idle reads ih => rintro _ ⟨⟩
  | supplied awaits idle reads conclude rest ih ih' => exact ih'

/-- Asking for data only grows the records, and leaves the call stack as it was. -/
theorem grows (hb : g.IsBuiltin) (h : g.Pulls s ps r t) : s.Extends t := by
  induction h with
  | nothing s => exact RunState.Extends.refl s
  | known answer rest ih => exact ih
  | cyclic awaits busy => exact RunState.Extends.refl _
  | failing awaits idle reads ih => exact (awaits.due idle).extends_ended ih
  | @supplied s t u w p ps n vs exit r awaits idle reads conclude rest ih ih' =>
    have hdue := awaits.due idle
    obtain ⟨-, hc⟩ := Node.concludes_of_eq (hb n hdue.mem) (reads.length_eq vs rfl) conclude
    have hu := ih.trans (hc.grows (awaits.not_isExit hb))
    exact (hdue.extends_ended hu).trans ((RunState.extends_keepExit _ _ _).trans ih')

end Pulls

/-! ## The bound on depth is never felt -/

section Evaluation

variable {g : Graph} (execute : Node → RunM (Option PinId)) {s t : RunState} {p : Pin} {n : Node}

/-- A value that is known is given as it is. -/
lemma pullWith_known {v : Value} (h : g.answer? s p = some v) :
    g.pullWith execute p s = (.ok v, s) := by
  rw [answer?] at h
  rw [pullWith]
  cases hsource : g.sourceOf? p with
  | none =>
    simp only [hsource, Option.some.injEq] at h
    rw [← h]
    rfl
  | some source =>
    simp only [hsource] at h
    simp only [get_bind_apply]
    cases hcache : s.cache.get? source with
    | some v' => simp_all
    | none =>
      simp only [hcache] at h
      cases hpin : g.pin? source with
      | none => simp [hpin] at h
      | some q =>
        cases howner : g.owner? source with
        | none => simp [hpin, howner] at h
        | some owner =>
          simp only [hpin, howner] at h
          split_ifs at h with hex
          simp only [get_bind_apply, hex, if_true]
          rw [← Option.some.inj h]
          rfl

/-- A node that can be entered is left again and recorded as executed, whatever comes of it. -/
lemma executeUpstream_of_found (hfound : g.node? n.id = some n) (hidle : n.id ∉ s.stack) :
    g.executeUpstream execute n.id s = match execute n (s.push n.id) with
      | (.error e, t) => (.error e, t.ended n.id)
      | (.ok exit, t) => (.ok (), (t.ended n.id).keepExit n.id exit) := by
  simp only [executeUpstream, hfound]
  rw [bind_ok (enter_of_not_mem n.id s hidle), bind_ok (outcome_apply _ _),
    bind_ok (leave_apply n.id _), bind_ok (markExecuted_apply n.id _)]
  rcases execute n (s.push n.id) with ⟨r, t⟩
  cases r <;> rfl

variable (hg : g.WellFormed)
include hg

/-- A pin that waits for a node has it executed and then takes what is there. -/
lemma pullWith_awaits {q : Pin} (hs : g.Supplies p n q) (hcache : s.cache.get? q.id = none)
    (hex : n.id ∉ s.executed) : g.pullWith execute p s = (do
      g.executeUpstream execute n.id
      return ((← get).cache.get? q.id).getD q.type.defaultValue : RunM Value) s := by
  simp only [pullWith, hs.source, get_bind_apply, hcache, hg.pin?_of_mem hs.mem hs.owns,
    hg.owner?_of_mem hs.mem hs.owns, List.contains_iff_mem, hex, if_false]

lemma executeUpstream_apply (hn : n ∈ g.nodes) (hidle : n.id ∉ s.stack) :
    g.executeUpstream execute n.id s = match execute n (s.push n.id) with
      | (.error e, t) => (.error e, t.ended n.id)
      | (.ok exit, t) => (.ok (), (t.ended n.id).keepExit n.id exit) :=
  executeUpstream_of_found execute (hg.node?_of_mem hn) hidle

/-- A node on the call stack is not executed again. -/
lemma pullWith_busy (h : g.Awaits s p n) (hbusy : n.id ∈ s.stack) :
    g.pullWith execute p s = (.error (.cyclic n.id s.stack), s) := by
  obtain ⟨q, hs, hcache, hex⟩ := h
  have hup : g.executeUpstream execute n.id s = (.error (.cyclic n.id s.stack), s) := by
    simp only [executeUpstream, hg.node?_of_mem hs.mem]
    exact bind_error (enter_of_mem n.id s hbusy)
  rw [pullWith_awaits execute hg hs hcache hex]
  exact bind_error hup

/-- If the node that a pin waits for fails, so does asking for the pin. -/
lemma pullWith_failing (h : g.Awaits s p n) (hidle : n.id ∉ s.stack) {e : RunError}
    (hexecute : execute n (s.push n.id) = (.error e, t)) :
    g.pullWith execute p s = (.error e, t.ended n.id) := by
  obtain ⟨q, hs, hcache, hex⟩ := h
  have hup : g.executeUpstream execute n.id s = (.error e, t.ended n.id) := by
    rw [executeUpstream_apply execute hg hs.mem hidle, hexecute]
  rw [pullWith_awaits execute hg hs hcache hex]
  exact bind_error hup

/-- If the node that a pin waits for is executed, the value of the pin is known afterwards. -/
lemma pullWith_supplied (h : g.Awaits s p n) (hidle : n.id ∉ s.stack) {exit : Option PinId}
    (hexecute : execute n (s.push n.id) = (.ok exit, t)) :
    ∃ v, g.answer? ((t.ended n.id).keepExit n.id exit) p = some v ∧
      g.pullWith execute p s = (.ok v, (t.ended n.id).keepExit n.id exit) := by
  obtain ⟨q, hs, hcache, hex⟩ := h
  have hdone : n.id ∈ ((t.ended n.id).keepExit n.id exit).executed := by
    show n.id ∈ ((t.pop n.id).mark n.id).executed
    exact RunState.mem_mark.mpr (Or.inr rfl)
  have hup : g.executeUpstream execute n.id s = (.ok (), (t.ended n.id).keepExit n.id exit) := by
    rw [executeUpstream_apply execute hg hs.mem hidle, hexecute]
  refine ⟨_, hg.answer?_of_executed hs hdone, ?_⟩
  rw [pullWith_awaits execute hg hs hcache hex, bind_ok hup]
  rfl

end Evaluation

/-- The pins that a node asks for are pins of the graph. -/
theorem reads_subset_pins {g : Graph} {n : Node} (hn : n ∈ g.nodes) : n.reads ⊆ g.pins :=
  fun _ hp => List.mem_flatMap.mpr ⟨n, hn, List.mem_append_left _ (n.reads_subset hp)⟩

/-- How many nodes of the graph are not on a call stack. -/
def idleCount (g : Graph) (stack : List NodeId) : Nat := (g.nodeIds.toFinset \ stack.toFinset).card

/-- Entering a node that is due leaves one node less that can be entered. -/
lemma Due.idleCount_begun {g : Graph} {s : RunState} {n : Node} (h : g.Due s n) :
    g.idleCount (s.begun n.id).stack < g.idleCount s.stack := by
  refine Finset.card_lt_card ((Finset.ssubset_iff_of_subset fun m hm => ?_).mpr ⟨n.id, ?_, ?_⟩)
  · simp only [RunState.begun_stack, List.toFinset_append, Finset.mem_sdiff, Finset.mem_union,
      not_or] at hm ⊢
    exact ⟨hm.1, hm.2.1⟩
  · simpa using ⟨List.mem_map_of_mem h.mem, h.idle⟩
  · simp

lemma card_nodeIds_le (g : Graph) : g.nodeIds.toFinset.card ≤ g.nodes.length :=
  (List.toFinset_card_le _).trans (List.length_map _).le

lemma idleCount_le_length (g : Graph) (stack : List NodeId) : g.idleCount stack ≤ g.nodes.length :=
  (Finset.card_le_card Finset.sdiff_subset).trans g.card_nodeIds_le

/-- A node is on a call stack or beside it. -/
lemma idleCount_le {g : Graph} {stack : List NodeId} (hnd : stack.Nodup) (hsub : stack ⊆ g.nodeIds)
    {depth : Nat} (hroom : g.nodes.length ≤ stack.length + depth) : g.idleCount stack ≤ depth := by
  have hsubset : stack.toFinset ⊆ g.nodeIds.toFinset := fun m hm =>
    List.mem_toFinset.mpr (hsub (List.mem_toFinset.mp hm))
  have hall := g.card_nodeIds_le
  rw [idleCount, Finset.card_sdiff_of_subset hsubset, List.toFinset_card_of_nodup hnd]
  omega

/-- What executing a node comes to: it fails over its data, or it concludes. -/
inductive Executes (g : Graph) (n : Node) (s : RunState) :
    Except RunError (Option PinId) → RunState → Prop
  | failing {t : RunState} {e : RunError} (reads : g.Pulls (s.logged n.id) n.reads (.error e) t) :
      Executes g n s (.error e) t
  | concluding {t u : RunState} {vs : List Value} {exit : Option PinId}
      (reads : g.Pulls (s.logged n.id) n.reads (.ok vs) t)
      (conclude : n.conclude g vs t = (.ok exit, u)) : Executes g n s (.ok exit) u

variable {g : Graph}

/-- A node is executed if asking for its data comes to an end. -/
lemma executes_of_pulls (hb : g.IsBuiltin) (mode : RunMode) {pull : Pin → RunM Value}
    (entry : Option PinId) {n : Node} (hn : n ∈ g.nodes) {s t : RunState}
    {r : Except RunError (List Value)} (hpull : n.reads.mapM pull (s.logged n.id) = (r, t))
    (h : g.Pulls (s.logged n.id) n.reads r t) :
    ∃ r' u, n.execute g mode pull entry s = (r', u) ∧ g.Executes n s r' u := by
  rw [Node.execute_eq g mode pull (hb n hn), bind_ok (logExecution_apply n.id s)]
  cases r with
  | error e => exact ⟨.error e, t, bind_error hpull, .failing h⟩
  | ok vs =>
    obtain ⟨exit, u, hu, -, -⟩ := Node.conclude_spec g (hb n hn) (h.length_eq vs rfl) t
    exact ⟨.ok exit, u, (bind_ok hpull).trans hu, .concluding h hu⟩

/-- Asking for pins comes to an end if executing each node that is not on the call stack does. -/
lemma mapM_pullWith (hg : g.WellFormed) (hb : g.IsBuiltin) {execute : Node → RunM (Option PinId)}
    (stack : List NodeId)
    (hexecute : ∀ (s : RunState) (n : Node), s.stack = stack → g.Due s n →
      ∃ r t, execute n (s.push n.id) = (r, t) ∧ g.Executes n (s.push n.id) r t)
    {ps : List Pin} (hps : ps ⊆ g.pins) :
    ∀ s : RunState, s.stack = stack →
      ∃ r t, ps.mapM (g.pullWith execute) s = (r, t) ∧ g.Pulls s ps r t := by
  induction ps with
  | nil => exact fun s _ => ⟨_, _, rfl, .nothing s⟩
  | cons p ps ih =>
    intro s hstack
    rw [List.mapM_cons]
    -- once the value of the first pin is known, the others follow from the induction hypothesis
    have hknown : ∀ (s' : RunState) (v : Value), s'.stack = stack → g.answer? s' p = some v →
        g.pullWith execute p s = (.ok v, s') →
        ∃ r t, (do
          let v ← g.pullWith execute p
          let vs ← ps.mapM (g.pullWith execute)
          pure (v :: vs) : RunM (List Value)) s = (r, t) ∧ g.Pulls s' (p :: ps) r t := by
      intro s' v hs' hanswer hpull
      obtain ⟨r, t, hr, hpulls⟩ := ih (List.subset_of_cons_subset hps) s' hs'
      refine ⟨_, t, ?_, .known hanswer hpulls⟩
      rw [bind_ok hpull]
      cases r with
      | error e => exact bind_error hr
      | ok vs => exact bind_ok hr
    cases hanswer : g.answer? s p with
    | some v => exact hknown s v hstack hanswer (pullWith_known execute hanswer)
    | none =>
      obtain ⟨n, hawaits⟩ := hg.awaits_of_answer? (hps List.mem_cons_self) hanswer
      by_cases hidle : n.id ∈ s.stack
      · exact ⟨_, s, bind_error (pullWith_busy _ hg hawaits hidle), .cyclic hawaits hidle⟩
      have hdue := hawaits.due hidle
      obtain ⟨r, u, hu, hruns⟩ := hexecute s n hstack hdue
      cases hruns with
      | failing hreads =>
        exact ⟨_, _, bind_error (pullWith_failing _ hg hawaits hidle hu),
          .failing hawaits hidle hreads⟩
      | @concluding t _ vs exit hreads hconclude =>
        obtain ⟨v, hv, hpull⟩ := pullWith_supplied execute hg hawaits hidle hu
        obtain ⟨-, hc⟩ := Node.concludes_of_eq (hb n hdue.mem) (hreads.length_eq vs rfl) hconclude
        have hgrows :=
          hdue.extends_ended ((hreads.grows hb).trans (hc.grows (hawaits.not_isExit hb)))
        have hstack' := (RunState.extends_keepExit _ n.id exit).stack.trans hgrows.stack
        obtain ⟨r, w, hr, hpulls⟩ := hknown _ v (hstack'.trans hstack) hv hpull
        exact ⟨r, w, hr, .supplied hawaits hidle hreads hconclude hpulls⟩

/-- **Asking for data always comes to an end.** With room for the nodes that are not on the call stack,
whatever else is on it, asking for pins ends as a derivation tells, and not because of the bound on depth. -/
theorem mapM_pull_of_idleCount (hg : g.WellFormed) (hb : g.IsBuiltin) (mode : RunMode) (depth : Nat) :
    ∀ (s : RunState) (ps : List Pin), ps ⊆ g.pins → g.idleCount s.stack ≤ depth →
      ∃ r t, ps.mapM (g.pull mode depth) s = (r, t) ∧ g.Pulls s ps r t := by
  induction depth with
  | zero =>
    intro s ps hps hroom
    refine mapM_pullWith hg hb s.stack (fun s' n hs' hdue => ?_) hps s rfl
    exact absurd (hs' ▸ hdue.idleCount_begun) (by omega)
  | succ depth ih =>
    intro s ps hps hroom
    refine mapM_pullWith hg hb s.stack (fun s' n hs' hdue => ?_) hps s rfl
    -- the node goes onto the call stack, so one level less is enough for what it asks for
    have hroom' : g.idleCount (s'.begun n.id).stack ≤ depth := by
      have hless := hs' ▸ hdue.idleCount_begun
      omega
    obtain ⟨r, t, hr, hpulls⟩ := ih (s'.begun n.id) n.reads (reads_subset_pins hdue.mem) hroom'
    exact executes_of_pulls hb mode none hdue.mem hr hpulls

/-- The same for a call stack of nodes of the graph, none of which is on it twice. -/
theorem mapM_pull (hg : g.WellFormed) (hb : g.IsBuiltin) (mode : RunMode) (depth : Nat)
    (s : RunState) (ps : List Pin) (hps : ps ⊆ g.pins) (hnd : s.stack.Nodup)
    (hsub : s.stack ⊆ g.nodeIds) (hroom : g.nodes.length ≤ s.stack.length + depth) :
    ∃ r t, ps.mapM (g.pull mode depth) s = (r, t) ∧ g.Pulls s ps r t :=
  mapM_pull_of_idleCount hg hb mode depth s ps hps (idleCount_le hnd hsub hroom)

end Graph

end Patchbay
