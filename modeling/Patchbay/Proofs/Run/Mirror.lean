import Patchbay.Proofs.Run.Errors
import Patchbay.Proofs.Run.Renaming

/-!
# Runs do not see the identities of pins

A run over a graph whose pins have been renamed does, on the renamed state, what the run over the graph
itself does: **`Graph.Renamed.runFrom`**. Renaming a state renames the pins that its memory, its cache
and its kept exits are about; everything else stays.

`Mirrors σ f x y` says of two actions that `y` does to the renamed state what `x` does to the state, and
that their answers correspond by `f`. It is closed under sequencing, so each function's lemma follows its
definition. The one place at which identities are compared is the lookup in a table, and a permutation
keeps apart what is apart.
-/

namespace Patchbay

open Patchbay.Action RunM

/-! ## Renaming what a run works on -/

/-- The table with its keys renamed. -/
def Table.rename {α : Type} (σ : Equiv.Perm PinId) (t : Table PinId α) : Table PinId α :=
  List.map (fun e => (σ e.1, e.2)) t

def Memory.rename (σ : Equiv.Perm PinId) (m : Memory) : Memory :=
  { m with values := m.values.rename σ }

/-- The kept exits with the pins renamed. -/
def renameExits (σ : Equiv.Perm PinId) (t : Table NodeId (Option PinId)) :
    Table NodeId (Option PinId) :=
  List.map (fun e => (e.1, e.2.map σ)) t

def RunState.rename (σ : Equiv.Perm PinId) (s : RunState) : RunState :=
  { s with memory := s.memory.rename σ, cache := s.cache.rename σ
           pulledExits := renameExits σ s.pulledExits }

def RunError.rename (σ : Equiv.Perm PinId) : RunError → RunError
  | .pinNotFound p => .pinNotFound (σ p)
  | .invalidExit n p => .invalidExit n (σ p)
  | e => e

/-- The outcome with the pins renamed; `f` says what that is for an answer. -/
def renameOutcome {α : Type} (σ : Equiv.Perm PinId) (f : α → α) :
    Except RunError α → Except RunError α
  | .ok a => .ok (f a)
  | .error e => .error (e.rename σ)

section Tables

variable (σ : Equiv.Perm PinId) {α : Type}

@[simp] theorem Table.get?_rename (t : Table PinId α) (i : PinId) :
    (t.rename σ).get? (σ i) = t.get? i := by
  induction t with
  | nil => rfl
  | cons e rest ih =>
    show Table.get? (σ i) ((σ e.1, e.2) :: Table.rename σ rest) = Table.get? i (e :: rest)
    simp only [Table.get?, σ.apply_eq_iff_eq, ih]

@[simp] theorem Table.set_rename (t : Table PinId α) (i : PinId) (a : α) :
    (t.rename σ).set (σ i) a = (t.set i a).rename σ := by
  induction t with
  | nil => rfl
  | cons e rest ih =>
    show Table.set (σ i) a ((σ e.1, e.2) :: Table.rename σ rest) = _
    simp only [Table.set, σ.apply_eq_iff_eq, ih]
    split_ifs <;> rfl

@[simp] theorem get?_renameExits (t : Table NodeId (Option PinId)) (n : NodeId) :
    (renameExits σ t).get? n = (t.get? n).map (Option.map σ) := by
  induction t with
  | nil => rfl
  | cons e rest ih =>
    show Table.get? n ((e.1, e.2.map σ) :: renameExits σ rest) = _
    simp only [Table.get?, ih]
    split_ifs <;> rfl

@[simp] theorem set_renameExits (t : Table NodeId (Option PinId)) (n : NodeId)
    (exit : Option PinId) :
    (renameExits σ t).set n (exit.map σ) = renameExits σ (t.set n exit) := by
  induction t with
  | nil => rfl
  | cons e rest ih =>
    show Table.set n (exit.map σ) ((e.1, e.2.map σ) :: renameExits σ rest) = _
    simp only [Table.set, ih]
    split_ifs <;> rfl

/-- What a pin keeps moves along with it. -/
theorem Memory.value_rename (m : Memory) (p : Pin) :
    (m.rename σ).value (p.rename σ) = m.value p := by
  simp only [Memory.value, Memory.rename, Pin.rename, Table.get?_rename]

end Tables

namespace RunState

variable (σ : Equiv.Perm PinId) (s : RunState)

@[simp] theorem rename_stored (i : PinId) (v : Value) :
    (s.rename σ).stored (σ i) v = (s.stored i v).rename σ := by
  simp only [stored, rename, Memory.store, Memory.rename, Table.set_rename]

@[simp] theorem rename_published (i : PinId) (v : Value) :
    (s.rename σ).published (σ i) v = (s.published i v).rename σ := by
  simp only [published, rename, Memory.store, Memory.rename, Table.set_rename]

@[simp] theorem rename_keepExit (n : NodeId) (exit : Option PinId) :
    (s.rename σ).keepExit n (exit.map σ) = (s.keepExit n exit).rename σ := by
  simp only [keepExit, rename, set_renameExits]

theorem rename_pop (n : NodeId) : (s.rename σ).pop n = (s.pop n).rename σ := by
  by_cases hlast : s.stack.getLast? = some n <;> simp [pop, rename, hlast]

theorem rename_mark (n : NodeId) : (s.rename σ).mark n = (s.mark n).rename σ := by
  by_cases hexecuted : n ∈ s.executed <;> simp [mark, rename, hexecuted]

end RunState

/-! ## Sequencing -/

/-- Action `y` does to the renamed state what action `x` does to the state, and gives the answer that
corresponds by `f`. -/
def Mirrors {α : Type} (σ : Equiv.Perm PinId) (f : α → α) (x y : RunM α) : Prop :=
  ∀ s, y (s.rename σ) = (renameOutcome σ f (x s).1, (x s).2.rename σ)

namespace Mirrors

variable {σ : Equiv.Perm PinId} {α β : Type} {f : α → α} {k : β → β}

theorem bind {x y : RunM α} {u v : α → RunM β} (hxy : Mirrors σ f x y)
    (huv : ∀ a, Mirrors σ k (u a) (v (f a))) : Mirrors σ k (x >>= u) (y >>= v) := by
  intro s
  have hy := hxy s
  rcases hx : x s with ⟨r, t⟩
  rw [hx] at hy
  cases r with
  | error e => rw [bind_error hx, bind_error hy]; rfl
  | ok a => rw [bind_ok hx, bind_ok hy, huv a t]

theorem pure {a b : α} (hb : b = f a) : Mirrors σ f (Pure.pure a) (Pure.pure b) := fun s => by
  rw [hb]
  rfl

theorem throw {e e' : RunError} (he : e' = e.rename σ) :
    Mirrors σ f (MonadExcept.throw e) (MonadExcept.throw e') := fun s => by
  rw [he]
  rfl

/-- Looking at the state and going on with what is there. -/
theorem get_bind {u v : RunState → RunM α} (huv : ∀ s, Mirrors σ f (u s) (v (s.rename σ))) :
    Mirrors σ f (get >>= u) (get >>= v) := fun s => huv s s

theorem modify {u v : RunState → RunState} (huv : ∀ s, v (s.rename σ) = (u s).rename σ) :
    Mirrors σ id (modify u : RunM PUnit) (modify v) := fun s =>
  congrArg (Prod.mk (Except.ok PUnit.unit)) (huv s)

/-- Two cases that are told apart in the same way. -/
theorem ite {c c' : Prop} [Decidable c] [Decidable c'] (hc : c ↔ c') {x x' y y' : RunM α}
    (hx : Mirrors σ f x y) (hx' : Mirrors σ f x' y') :
    Mirrors σ f (if c then x else x') (if c' then y else y') := by
  by_cases h : c
  · rw [if_pos h, if_pos (hc.mp h)]
    exact hx
  · rw [if_neg h, if_neg fun h' => h (hc.mpr h')]
    exact hx'

theorem outcome {x y : RunM α} (h : Mirrors σ f x y) :
    Mirrors σ (renameOutcome σ f) (outcome x) (outcome y) := fun s => by
  rw [outcome_apply, outcome_apply, h s]
  rfl

end Mirrors

section Actions

variable (σ : Equiv.Perm PinId) (n : NodeId)

theorem mirrors_enter : Mirrors σ id (enter n) (enter n) := by
  refine Mirrors.get_bind fun s => Mirrors.ite Iff.rfl (Mirrors.throw rfl) ?_
  exact Mirrors.modify (u := fun _ => s.push n) (v := fun _ => (s.rename σ).push n) fun _ => rfl

theorem mirrors_leave : Mirrors σ id (leave n) (leave n) :=
  Mirrors.modify fun s => s.rename_pop σ n

theorem mirrors_markExecuted : Mirrors σ id (markExecuted n) (markExecuted n) :=
  Mirrors.modify fun s => s.rename_mark σ n

theorem mirrors_clearStack : Mirrors σ id clearStack clearStack := Mirrors.modify fun _ => rfl

theorem mirrors_logExecution : Mirrors σ id (logExecution n) (logExecution n) :=
  Mirrors.modify fun _ => rfl

theorem mirrors_store (i : PinId) (v : Value) : Mirrors σ id (store i v) (store (σ i) v) :=
  Mirrors.modify fun s => s.rename_stored σ i v

theorem mirrors_publish (i : PinId) (v : Value) : Mirrors σ id (publish i v) (publish (σ i) v) :=
  Mirrors.modify fun s => s.rename_published σ i v

end Actions

/-- Asking for several pins. -/
theorem mirrors_mapM {σ : Equiv.Perm PinId} {pull pull' : Pin → RunM Value}
    (hpull : ∀ p, Mirrors σ id (pull p) (pull' (p.rename σ))) (ps : List Pin) :
    Mirrors σ id (ps.mapM pull) ((ps.map (Pin.rename σ)).mapM pull') := by
  induction ps with
  | nil => exact Mirrors.pure rfl
  | cons p ps ih =>
    rw [List.map_cons, List.mapM_cons, List.mapM_cons]
    exact (hpull p).bind fun v => ih.bind fun vs => Mirrors.pure rfl

namespace Graph.Renamed

variable {σ : Equiv.Perm PinId} {g g' : Graph} (h : Graph.Renamed σ g g')
include h

/-! ## Nodes -/

/-- A failure is reported under the same name. -/
theorem failed (s : RunState) (n : NodeId) (message : String) :
    (s.rename σ).failed g' n message = (s.failed g n message).rename σ := by
  rw [RunState.failed, RunState.failed, h.nodeName]
  rfl

theorem mirrors_executePicture (n : NodeId) (out : PinId) (settings : Picture) :
    Mirrors σ (Option.map σ) (Node.executePicture g n out settings)
      (Node.executePicture g' n (σ out) settings) := by
  intro s
  rw [Node.executePicture_apply, Node.executePicture_apply]
  split_ifs
  · rw [RunState.rename_published]; rfl
  · rw [h.failed]; rfl

variable {a b : Node} (hab : Node.Renamed σ a b)
include hab

theorem mirrors_blend (pins : TransitionPins) (settings : Transition) (first second : Frame)
    (pos : Float32) :
    Mirrors σ (Option.map σ) (a.blend g pins settings first second pos)
      (b.blend g' (pins.rename σ) settings first second pos) := by
  intro s
  rw [Node.blend_apply, Node.blend_apply, hab.id, hab.enabled]
  by_cases hempty : (first.isEmpty || second.isEmpty) = true
  · rw [if_pos hempty, if_pos hempty]
    rfl
  rw [if_neg hempty, if_neg hempty]
  by_cases henabled : a.enabled = true
  · -- the compositor is the same, for the slot belongs to the node
    have hcompositor : (s.rename σ).memory.compositor a.id first.device =
        s.memory.compositor a.id first.device := rfl
    have hstopped : (s.rename σ).stopped = s.stopped := rfl
    rw [if_pos henabled, if_pos henabled, hcompositor, hstopped]
    cases (settings.composite first second pos).draw
        (s.memory.compositor a.id first.device).device with
    | error e => exact congrArg _ (h.failed (s.holding a.id first.device) a.id e.message)
    | ok frame =>
      cases s.stopped with
      | true => rfl
      | false =>
        exact congrArg _
          (((s.holding a.id first.device).charged a.id 0).rename_published σ pins.out _)
  · rw [if_neg henabled, if_neg henabled]
    exact congrArg _ (s.rename_published σ pins.out _)

/-- **What a node does** once it has the values it has asked for. -/
theorem mirrors_conclude (values : List Value) :
    Mirrors σ (Option.map σ) (a.conclude g values) (b.conclude g' values) := by
  simp only [Node.conclude, hab.body]
  cases a.body with
  | start out => exact Mirrors.pure rfl
  | finish pins =>
    rcases values with _ | ⟨frame, _ | ⟨_, _⟩⟩
    · exact Mirrors.pure rfl
    · exact (mirrors_store σ pins.frame frame).bind fun _ => (mirrors_clearStack σ).bind fun _ =>
        Mirrors.pure rfl
    · exact Mirrors.pure rfl
  | constant out value =>
    exact (mirrors_publish σ out (.float value)).bind fun _ => Mirrors.pure rfl
  | picture out settings =>
    dsimp only [Body.rename]
    rw [hab.id]
    exact h.mirrors_executePicture a.id out settings
  | branch pins =>
    cases values with
    | nil => exact Mirrors.pure rfl
    | cons condition rest =>
      refine Mirrors.pure ?_
      cases condition.asBool false <;> rfl
  | transition pins settings =>
    -- a transition asks for three values, and does nothing with another number of them
    rcases values with _ | ⟨first, _ | ⟨second, _ | ⟨pos, _ | ⟨_, _⟩⟩⟩⟩
    case cons.cons.cons.nil => exact h.mirrors_blend hab pins settings _ _ _
    all_goals exact Mirrors.pure rfl
  | scripted t ins outs => exact Mirrors.pure rfl

/-- **Executing a node**, if asking for its pins is mirrored. Through which pin flow enters makes no
difference to a node of a built-in kind. -/
theorem mirrors_execute (hbuiltin : a.body.isBuiltin = true) (mode : RunMode)
    {pull pull' : Pin → RunM Value} (hpull : ∀ p, Mirrors σ id (pull p) (pull' (p.rename σ)))
    (entry entry' : Option PinId) :
    Mirrors σ (Option.map σ) (a.execute g mode pull entry) (b.execute g' mode pull' entry') := by
  have hbuiltin' : b.body.isBuiltin = true := by
    rw [hab.body, Body.rename_isBuiltin]
    exact hbuiltin
  rw [Node.execute_eq g mode pull hbuiltin, Node.execute_eq g' mode pull' hbuiltin', hab.id,
    hab.reads]
  exact (mirrors_logExecution σ a.id).bind fun _ => (mirrors_mapM hpull a.reads).bind fun values =>
    h.mirrors_conclude hab values

omit hab

/-! ## Pulls -/

section Pulls

variable {execute execute' : Node → RunM (Option PinId)}
  (hexecute : ∀ a b, a ∈ g.nodes → Node.Renamed σ a b →
    Mirrors σ (Option.map σ) (execute a) (execute' b))
include hexecute

theorem mirrors_executeUpstream (n : NodeId) :
    Mirrors σ id (g.executeUpstream execute n) (g'.executeUpstream execute' n) := by
  rw [executeUpstream, executeUpstream]
  rcases h.node?_cases n with ⟨hleft, hright⟩ | ⟨a, b, hleft, hright, hab⟩
  · simp only [hleft, hright]
    exact Mirrors.throw rfl
  · simp only [hleft, hright]
    refine (mirrors_enter σ n).bind fun _ =>
      (hexecute a b (node?_some hleft).1 hab).outcome.bind fun r =>
        (mirrors_leave σ n).bind fun _ => (mirrors_markExecuted σ n).bind fun _ => ?_
    cases r with
    | error e => exact Mirrors.throw rfl
    | ok exit => exact Mirrors.modify fun s => s.rename_keepExit σ n exit

/-- Asking for a pin, if executing the nodes of the graph is mirrored. -/
theorem mirrors_pullWith (p : Pin) :
    Mirrors σ id (g.pullWith execute p) (g'.pullWith execute' (p.rename σ)) := by
  rw [pullWith, pullWith, h.sourceOf?]
  cases g.sourceOf? p with
  | none =>
    refine Mirrors.get_bind fun s => Mirrors.get_bind fun t => Mirrors.pure ?_
    exact congrArg₂ _ (Table.get?_rename σ s.cache p.id) (t.memory.value_rename σ p)
  | some source =>
    simp only [Option.map_some]
    refine Mirrors.get_bind fun s => ?_
    simp only [RunState.rename, Table.get?_rename, h.pin?, h.owner?]
    cases s.cache.get? source with
    | some v => exact Mirrors.pure rfl
    | none =>
      cases g.pin? source with
      | none => exact Mirrors.throw rfl
      | some pin =>
        cases g.owner? source with
        | none => exact Mirrors.throw rfl
        | some owner =>
          refine Mirrors.get_bind fun s => Mirrors.ite Iff.rfl (Mirrors.pure rfl) ?_
          refine (h.mirrors_executeUpstream hexecute owner).bind fun _ =>
            Mirrors.get_bind fun s => Mirrors.pure ?_
          exact congrArg (Option.getD · _) (Table.get?_rename σ s.cache source)

end Pulls

variable (hb : g.IsBuiltin) (mode : RunMode)
include hb

/-- **Asking for data.** -/
theorem mirrors_pull (depth : Nat) :
    ∀ p, Mirrors σ id (g.pull mode depth p) (g'.pull mode depth (p.rename σ)) := by
  induction depth with
  | zero => exact h.mirrors_pullWith fun _ _ _ _ => Mirrors.throw rfl
  | succ depth ih =>
    exact h.mirrors_pullWith fun a b ha hab => h.mirrors_execute hab (hb a ha) mode ih none none

/-! ## Runs -/

omit hb in
/-- Flow goes through the renamed pin to where it goes through the pin. -/
theorem follow (n : NodeId) (p : PinId) :
    g'.follow n (σ p) = match g.follow n p with
      | .ok next => .ok (next.map fun x => (x.1, σ x.2))
      | .error e => .error (e.rename σ) := by
  rw [Graph.follow, Graph.follow, h.pin?, h.owner?, h.firstLink]
  cases g.pin? p with
  | none => rfl
  | some pin =>
    show (if g.owner? p = some n ∧ pin.isFlow ∧ pin.direction = .output then _ else _) = _
    by_cases hexit : g.owner? p = some n ∧ pin.isFlow ∧ pin.direction = .output
    · simp only [if_pos hexit]
    · simp only [if_neg hexit, RunError.rename]

theorem mirrors_stepInto (ha : a ∈ g.nodes) (hab : Node.Renamed σ a b)
    (entry entry' : Option PinId) :
    Mirrors σ (Option.map σ) (g.stepInto mode a entry) (g'.stepInto mode b entry') := by
  have hmark : ∀ exit : Option PinId, Mirrors σ (Option.map σ)
      (do markExecuted a.id; return exit) (do markExecuted a.id; return exit.map σ) := fun exit =>
    (mirrors_markExecuted σ a.id).bind fun _ => Mirrors.pure rfl
  have hdepth : g'.pullDepth = g.pullDepth := by rw [pullDepth, pullDepth, h.length_nodes]
  simp only [stepInto, hab.id, hab.isExit, executeNode, hdepth]
  refine (mirrors_enter σ a.id).bind fun _ => Mirrors.get_bind fun s => ?_
  simp only [RunState.rename, get?_renameExits]
  cases s.pulledExits.get? a.id with
  | some exit =>
    cases a.isExit with
    | true => exact (mirrors_clearStack σ).bind fun _ => hmark exit
    | false => exact hmark exit
  | none =>
    exact (h.mirrors_execute hab (hb a ha) mode (h.mirrors_pull hb mode g.pullDepth) entry
      entry').bind hmark

omit h hb in
theorem mirrors_endOfFlow (path : List NodeId) : Mirrors σ id
    (do return (← endOfFlow, path) : RunM (RunStatus × List NodeId))
    (do return (← endOfFlow, path)) := by
  refine Mirrors.bind (f := id) ?_ fun _ => Mirrors.pure rfl
  exact Mirrors.get_bind fun s => Mirrors.pure rfl

/-- **Following flow.** -/
theorem mirrors_walk (steps : Nat) : ∀ n entry entry' path,
    Mirrors σ id (g.walk mode steps n entry path) (g'.walk mode steps n entry' path) := by
  induction steps with
  | zero => exact fun _ _ _ _ => Mirrors.throw rfl
  | succ steps ih =>
    intro n entry entry' path
    simp only [walk]
    refine Mirrors.get_bind fun s => Mirrors.ite Iff.rfl (Mirrors.pure rfl) ?_
    rcases h.node?_cases n with ⟨hleft, hright⟩ | ⟨a, b, hleft, hright, hab⟩
    · simp only [hleft, hright]
      exact Mirrors.throw rfl
    simp only [hleft, hright]
    refine (h.mirrors_stepInto hb mode (node?_some hleft).1 hab entry entry').bind fun exit => ?_
    refine Mirrors.ite (by rw [hab.isExit]) ?_ ?_
    · exact Mirrors.get_bind fun s =>
        Mirrors.ite Iff.rfl (Mirrors.pure rfl) (Mirrors.throw rfl)
    · cases exit with
      | none => exact mirrors_endOfFlow _
      | some p =>
        simp only [Option.map_some, h.follow]
        rcases g.follow n p with e | _ | ⟨m, pin⟩
        · exact Mirrors.throw rfl
        · exact mirrors_endOfFlow _
        · exact ih _ _ _ _

/-- **Runs do not see the identities of pins.** A run over the graph with its pins renamed does, on the
renamed state, what the run over the graph does. -/
theorem runFrom (start : NodeId) :
    Mirrors σ id (g.runFrom mode start) (g'.runFrom mode start) := by
  have hreset : Mirrors σ id (g.nodes.forM Node.reset) (g'.nodes.forM Node.reset) := fun s => by
    rw [forM_reset hb, forM_reset (h.isBuiltin hb)]
    rfl
  have hlimit : g'.stepLimit = g.stepLimit := by rw [stepLimit, stepLimit, h.length_nodes]
  simp only [Graph.runFrom, hlimit, h.hasNode]
  refine Mirrors.get_bind fun s => Mirrors.ite Iff.rfl (Mirrors.throw rfl) ?_
  refine Mirrors.ite Iff.rfl (Mirrors.throw rfl) ?_
  refine Mirrors.bind (Mirrors.modify (u := RunState.begin) fun _ => rfl) fun _ => ?_
  refine hreset.bind fun _ =>
    (h.mirrors_walk hb mode g.stepLimit start none none []).outcome.bind fun r =>
      (mirrors_clearStack σ).bind fun _ => ?_
  cases r with
  | error e => exact Mirrors.throw rfl
  | ok x =>
    refine Mirrors.get_bind fun s => Mirrors.bind (f := id) ?_ fun _ => Mirrors.pure rfl
    exact Mirrors.modify (u := fun _ => { s with failures := [], costs := [] }) fun _ => rfl

end Graph.Renamed

end Patchbay
