import Patchbay.Proofs.Run.Moments

/-!
# What happens to values

Values come from the host and from nodes, and they are passed on by nodes that were given them before.
`Graph.Chronicle` is any sequence of such events: runs and contexts begin, nodes are given values that are
known, nodes conclude with values that they have been given, nodes are told of a stop, and the host stores
values. Nothing is said of the order, so a host may stop a run whenever it likes, and a chronicle may turn to
another context at any time, so several runs may be going on. What holds of all chronicles is shown for one
event at a time.

**`Chronicled.continues`** says that what the program does is a chronicle: runs are, at every moment and however
they end, and so is stopping the graph from outside.
-/

namespace Patchbay

open Patchbay.Action RunM

namespace Graph

variable {g : Graph} {allowed : Value → Prop} {s t u : RunState}

/-- What may happen to the values of a graph's pins from state `s` on, while the host stores allowed values.
The list has the values that nodes have been given on the way. The state is that of the context which the
chronicle has come to: contexts share the values stored on pins, but not those published. -/
inductive Chronicle (g : Graph) (allowed : Value → Prop) (s : RunState) : List Value → RunState → Prop
  | here : Chronicle g allowed s [] s
  /-- The bookkeeping changes. -/
  | books {known : List Value} {t u : RunState} (before : Chronicle g allowed s known t)
      (values : u.memory.values = t.memory.values) (cache : u.cache = t.cache) :
      Chronicle g allowed s known u
  /-- A run begins, or there is a new context: nothing has been published in it. -/
  | clears {known : List Value} {t u : RunState} (before : Chronicle g allowed s known t)
      (values : u.memory.values = t.memory.values) (cache : u.cache = []) : Chronicle g allowed s known u
  /-- Another context goes on from where it was. -/
  | resumes {known known' : List Value} {t t' u : RunState} (before : Chronicle g allowed s known t)
      (there : Chronicle g allowed s known' t') (values : u.memory.values = t.memory.values)
      (cache : u.cache = t'.cache) : Chronicle g allowed s known' u
  /-- A node is given a value that is known. -/
  | gives {known : List Value} {t : RunState} {p : Pin} {v : Value} (before : Chronicle g allowed s known t)
      (mem : p ∈ g.pins) (answer : g.answer? t p = some v) : Chronicle g allowed s (v :: known) t
  /-- A node concludes with values that it has been given. -/
  | concludes {known vs : List Value} {t u : RunState} {n : Node} {exit : Option PinId}
      (before : Chronicle g allowed s known t) (mem : n ∈ g.nodes) (given : vs ⊆ known)
      (concludes : n.conclude g vs t = (.ok exit, u)) : Chronicle g allowed s known u
  /-- A node is told of a stop. -/
  | tells {known : List Value} {t : RunState} {n : Node} (before : Chronicle g allowed s known t)
      (mem : n ∈ g.nodes) : Chronicle g allowed s known (n.onStop t).2
  /-- The host stores a value on a pin. -/
  | stores {known : List Value} {t : RunState} {p : Pin} {v : Value} (before : Chronicle g allowed s known t)
      (mem : p ∈ g.pins) (holds : allowed v) : Chronicle g allowed s known (t.stored p.id v)

/-- A chronicle leads from state `s` to state `t`. -/
def Chronicled (g : Graph) (allowed : Value → Prop) (s t : RunState) : Prop :=
  ∃ known, g.Chronicle allowed s known t

namespace Chronicled

theorem books (h : g.Chronicled allowed s t) (values : u.memory.values = t.memory.values)
    (cache : u.cache = t.cache) : g.Chronicled allowed s u :=
  h.imp fun _ h => h.books values cache

theorem sameValues (h : g.Chronicled allowed s t) (hsame : t.SameValues u) : g.Chronicled allowed s u :=
  h.books (congrArg Memory.values hsame.memory) hsame.cache

end Chronicled

/-! ## What runs do -/

variable {r : Except RunError (List Value)} {ps : List Pin}

/-- **Asking for data is a chronicle**, in which what is got has been given. -/
theorem Pulls.chronicle (h : g.Pulls t ps r u) (hps : ps ⊆ g.pins) {known : List Value}
    (ht : g.Chronicle allowed s known t) : ∃ known', known ⊆ known' ∧ g.Chronicle allowed s known' u ∧
      ∀ vs, r = .ok vs → vs ⊆ known' := by
  induction h generalizing known with
  | nothing t => exact ⟨known, List.Subset.refl _, ht, fun vs hvs => Except.ok.inj hvs ▸ List.nil_subset _⟩
  | @known t u p ps v r answer rest ih =>
    obtain ⟨hp, hps⟩ := List.cons_subset.mp hps
    obtain ⟨known', hsub, hu, hgot⟩ := ih hps (ht.gives hp answer)
    refine ⟨known', List.subset_of_cons_subset hsub, hu, fun vs hvs => ?_⟩
    cases r with
    | error e => cases hvs
    | ok vs' =>
      obtain rfl := Except.ok.inj hvs
      exact List.cons_subset.mpr ⟨hsub List.mem_cons_self, hgot vs' rfl⟩
  | cyclic => exact ⟨known, List.Subset.refl _, ht, fun vs hvs => nomatch hvs⟩
  | @failing t u p ps n e awaits idle reads ih =>
    obtain ⟨known', hsub, hu, -⟩ := ih (reads_subset_pins awaits.mem) (ht.books rfl rfl)
    have hended := u.sameValues_ended n.id
    exact ⟨known', hsub, hu.books (congrArg Memory.values hended.memory) hended.cache,
      fun vs hvs => nomatch hvs⟩
  | @supplied t u v w p ps n vs exit r awaits idle reads conclude rest ih ih' =>
    obtain ⟨known', hsub, hu, hgot⟩ := ih (reads_subset_pins awaits.mem) (ht.books rfl rfl)
    have hended := (v.sameValues_ended n.id).trans (RunState.sameValues_keepExit _ n.id exit)
    obtain ⟨known'', hsub', hw, hgot'⟩ := ih' hps ((hu.concludes awaits.mem (hgot vs rfl) conclude).books
      (congrArg Memory.values hended.memory) hended.cache)
    exact ⟨known'', List.Subset.trans hsub hsub', hw, hgot'⟩

namespace Chronicled

theorem pulls (h : g.Chronicled allowed s t) (hpulls : g.Pulls t ps r u) (hps : ps ⊆ g.pins) :
    g.Chronicled allowed s u := by
  obtain ⟨known, h⟩ := h
  obtain ⟨known', -, hu, -⟩ := hpulls.chronicle hps h
  exact ⟨known', hu⟩

/-- **Executing a node** is a chronicle. -/
theorem executes (h : g.Chronicled allowed s t) {n : Node} (hn : n ∈ g.nodes)
    {r : Except RunError (Option PinId)} (hexecutes : g.Executes n t r u) : g.Chronicled allowed s u := by
  obtain ⟨known, h⟩ := h
  have hlogged : g.Chronicle allowed s known (t.logged n.id) := h.books rfl rfl
  cases hexecutes with
  | failing reads => exact Chronicled.pulls ⟨known, hlogged⟩ reads (reads_subset_pins hn)
  | concluding reads conclude =>
    obtain ⟨known', -, hu, hgot⟩ := reads.chronicle (reads_subset_pins hn) hlogged
    exact ⟨known', hu.concludes hn (hgot _ rfl) conclude⟩

/-- **Entering a node** is a chronicle. -/
theorem enters (h : g.Chronicled allowed s t) {n : Node} (hn : n ∈ g.nodes)
    {r : Except RunError (Option PinId)} (henters : g.Enters n t r u) : g.Chronicled allowed s u := by
  have hpushed : g.Chronicled allowed s (t.push n.id) := h.books rfl rfl
  cases henters with
  | busy => exact h
  | again => exact hpushed.sameValues (RunState.sameValues_mark _ n.id)
  | failing idle new executes => exact hpushed.executes hn executes
  | @executing v exit idle new executes =>
    exact (hpushed.executes hn executes).sameValues (v.sameValues_mark n.id)

section Runs

variable (hg : g.WellFormed) (hb : g.IsBuiltin) {mode : RunMode}
include hg hb

/-- **Flow goes on** in a chronicle, from any point at which the books are in order. -/
theorem reached {c d : FlowPoint} (hc : c.Sound g) (h : g.Chronicled allowed s c.state)
    (hreached : g.Reached mode c d) : g.Chronicled allowed s d.state :=
  FlowPoint.invariant_of_reached hg hb (fun _ _ _ _ _ hn h henters => h.enters hn henters) hreached hc h

/-- **Asking for a pin** is a chronicle, as long as there is room for the nodes that have to be asked. -/
theorem pull (h : g.Chronicled allowed s t) (mode : RunMode) {depth : Nat} {p : Pin}
    (hroom : g.Answerable depth t (p :: ps)) : g.Chronicled allowed s (g.pull mode depth p t).2 := by
  have hp : [p] ⊆ g.pins := List.cons_subset.mpr ⟨hroom.subset List.mem_cons_self, List.nil_subset _⟩
  exact h.pulls (hroom.pulls hg hb mode) hp

variable {start : NodeId} (hstart : start ∈ g.nodeIds) (ht : t.stack = []) (h : g.Chronicled allowed s t)
include hstart ht h

theorem flow {c : FlowPoint} (hreached : g.Reached mode ⟨t.begin, start, none, []⟩ c) :
    g.Chronicled allowed s c.state := by
  have hbegin : g.Chronicled allowed s t.begin := h.imp fun _ h => h.clears rfl rfl
  exact reached hg hb (FlowPoint.sound_begin ht hstart) hbegin hreached

/-- **Every demand of a run** is made in a chronicle. -/
theorem asks {depth : Nat} (hasks : g.Asks mode start t depth u ps) : g.Chronicled allowed s u := by
  induction hasks with
  | entered reached => exact (flow hg hb hstart ht h reached).books rfl rfl
  | next asks value ih =>
    have hpull := ih.pull hg hb mode (asks.answerable hg hb mode hstart ht)
    rwa [value] at hpull
  | nested _ _ _ _ _ _ _ ih => exact ih.books rfl rfl

/-- A run that is not refused ends in a chronicle. -/
theorem ended : g.Chronicled allowed s (g.runFrom mode start t).2 := by
  obtain ⟨d, r, u, hreached, -, -, hends, hrun⟩ := runFrom_spec hg hb mode hstart ht
  have hd := flow hg hb hstart ht h hreached
  have hu : g.Chronicled allowed s u := by
    cases hends with
    | stopped => exact hd
    | failed mem _ _ enters => exact hd.enters mem enters
    | completed mem _ _ _ enters => exact hd.enters mem enters
    | halted mem _ _ _ enters _ => exact hd.enters mem enters
  rw [hrun]
  cases r with
  | error e => exact hu.books rfl rfl
  | ok outcome => exact hu.books rfl rfl

/-- **Runs are chronicles**, at every moment. -/
theorem moment (hmoment : g.Moment mode start t u) : g.Chronicled allowed s u := by
  cases hmoment with
  | flow reached => exact flow hg hb hstart ht h reached
  | asking asks => exact Chronicled.asks hg hb hstart ht h asks
  | refused asks fails =>
    have hpull := (Chronicled.asks hg hb hstart ht h asks).pull hg hb mode
      (asks.answerable hg hb mode hstart ht)
    rwa [fails] at hpull
  | ended => exact ended hg hb hstart ht h

omit hstart ht

/-- **Runs are chronicles**, refused ones included. -/
theorem runFrom (mode : RunMode) (start : NodeId) : g.Chronicled allowed s (g.runFrom mode start t).2 := by
  by_cases hstack : t.stack = []
  · by_cases hstart : start ∈ g.nodeIds
    · exact ended hg hb hstart hstack h
    · rwa [runFrom_absent g mode hstack (by simpa using mt hasNode_iff.mp hstart)]
  · have hbusy : (g.runFrom mode start t).2 = t := by simp [Graph.runFrom, hstack]
    rwa [hbusy]

theorem run (mode : RunMode) : g.Chronicled allowed s (g.run mode t).2 := by
  rw [Graph.run]
  cases g.checkRunnable with
  | error e => exact h
  | ok entry => exact h.runFrom hg hb mode entry

omit hg hb in
/-- Telling nodes of a stop, one after the other. -/
theorem forM_onStop (nodes : List Node) (hnodes : nodes ⊆ g.nodes) :
    g.Chronicled allowed s (nodes.forM Node.onStop t).2 := by
  induction nodes generalizing t with
  | nil => exact h
  | cons n nodes ih =>
    obtain ⟨hn, hnodes⟩ := List.cons_subset.mp hnodes
    obtain ⟨u, hu, -⟩ := n.onStop_spec t
    have hrest : ((n :: nodes).forM Node.onStop t).2 = (nodes.forM Node.onStop u).2 :=
      congrArg Prod.snd (bind_ok hu)
    have htold : g.Chronicled allowed s (n.onStop t).2 := h.imp fun _ h => h.tells hn
    rw [hrest]
    exact ih (by rwa [hu] at htold) hnodes

omit hg hb in
/-- **Stopping the graph from outside** is a chronicle. -/
theorem stop : g.Chronicled allowed s (g.stop t).2 := by
  have hraised : g.Chronicled allowed s { t with stopped := true } := h.books rfl rfl
  exact hraised.forM_onStop g.nodes (List.Subset.refl _)

end Runs

end Chronicled

/-! ## What hosts do -/

/-- Whatever a host does in state `t` goes on with a chronicle from state `s`. -/
structure Continues (g : Graph) (allowed : Value → Prop) (s t : RunState) : Prop where
  runs : ∀ mode, g.Chronicled allowed s (g.run mode t).2
  runsFrom : ∀ mode start, g.Chronicled allowed s (g.runFrom mode start t).2
  /-- What a run that is not refused passes through. -/
  moments : ∀ mode, ∀ start ∈ g.nodeIds, t.stack = [] → ∀ u, g.Moment mode start t u → g.Chronicled allowed s u
  stops : g.Chronicled allowed s (g.stop t).2
  stores : ∀ p ∈ g.pins, ∀ v, allowed v → g.Chronicled allowed s (t.stored p.id v)
  /-- It sets up a new context. -/
  opens : g.Chronicled allowed s (.initial t.memory)
  /-- It turns to another context. -/
  turns : ∀ u, g.Chronicled allowed s u → g.Chronicled allowed s { u with memory := t.memory }

/-- **What is done with a graph is a chronicle.** -/
theorem Chronicled.continues (hg : g.WellFormed) (hb : g.IsBuiltin) (h : g.Chronicled allowed s t) :
    g.Continues allowed s t where
  runs mode := h.run hg hb mode
  runsFrom mode start := h.runFrom hg hb mode start
  moments _ _ hstart hstack _ hmoment := moment hg hb hstart hstack h hmoment
  stops := h.stop
  stores _ hp _ hv := h.imp fun _ h => h.stores hp hv
  opens := h.imp fun _ h => h.clears rfl rfl
  turns := fun _ ⟨known, hu⟩ => let ⟨_, h⟩ := h; ⟨known, h.resumes hu rfl rfl⟩

end Graph

end Patchbay
