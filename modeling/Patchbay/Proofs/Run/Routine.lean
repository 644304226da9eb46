import Patchbay.Proofs.Run.Actions

/-!
# Routines

What a node of any type does when it is executed is a `Routine`: it asks for pins, looks at the state of the
run, changes it, and in the end gives an exit or fails. It may react to pins that cannot be had and may take
nodes off the call stack, but the exits that are kept for nodes executed for their data are not its to set.

**`Node.execute_isRoutine`** says that what the nodes of the program do are such routines, scripts included.
-/

namespace Patchbay

open Patchbay.Action RunM

/-- A change of the state that sets no exits. -/
def Forgets (s t : RunState) : Prop :=
  ∀ n exit, t.pulledExits.get? n = some exit → s.pulledExits.get? n = some exit

theorem Forgets.of_eq {s t : RunState} (h : t.pulledExits = s.pulledExits) : Forgets s t :=
  fun _ _ hexit => h ▸ hexit

/-- What may be done while a node is being executed, up to a result. -/
inductive Routine (α : Type) where
  /-- It is done, or has failed. -/
  | done (result : Except RunError α)
  /-- It asks for a pin and goes on with what that comes to. -/
  | pull (p : Pin) (next : Except RunError Value → Routine α)
  /-- It looks at the state. -/
  | look (next : RunState → Routine α)
  /-- It changes the state. -/
  | change (f : RunState → RunState) (forgets : ∀ s, Forgets s (f s)) (next : Routine α)

namespace Routine

variable {α β : Type}

/-- Performs a routine, with `pull` to ask for pins. -/
def perform (pull : Pin → RunM Value) : Routine α → RunM α
  | done result => fun s => (result, s)
  | .pull p next => fun s => (next (pull p s).1).perform pull (pull p s).2
  | look next => fun s => (next s).perform pull s
  | change f _ next => fun s => next.perform pull (f s)

/-- One routine and then another one, which depends on the result. -/
def bind (f : α → Routine β) : Routine α → Routine β
  | done (.ok a) => f a
  | done (.error e) => done (.error e)
  | .pull p next => .pull p fun r => (next r).bind f
  | look next => look fun s => (next s).bind f
  | change g forgets next => change g forgets (next.bind f)

theorem perform_bind (pull : Pin → RunM Value) (f : α → Routine β) (R : Routine α) :
    (R.bind f).perform pull = R.perform pull >>= fun a => (f a).perform pull := by
  funext s
  induction R generalizing s with
  | done result =>
    cases result with
    | ok a => exact (bind_ok rfl).symm
    | error e => exact (bind_error rfl).symm
  | pull p next ih => exact ih _ _
  | look next ih => exact ih s s
  | change g forgets next ih => exact ih _

/-- Performing the routine `R` in state `s` leads to asking for pin `p` in state `u`. -/
inductive Asks (pull : Pin → RunM Value) : Routine α → RunState → Pin → RunState → Prop
  | now {p : Pin} {next : Except RunError Value → Routine α} {s : RunState} :
      Asks pull (.pull p next) s p s
  | later {p q : Pin} {next : Except RunError Value → Routine α} {s u : RunState}
      (asks : Asks pull (next (pull p s).1) (pull p s).2 q u) : Asks pull (.pull p next) s q u
  | looked {q : Pin} {next : RunState → Routine α} {s u : RunState}
      (asks : Asks pull (next s) s q u) : Asks pull (look next) s q u
  | changed {q : Pin} {f : RunState → RunState} {forgets : ∀ s, Forgets s (f s)} {next : Routine α}
      {s u : RunState} (asks : Asks pull next (f s) q u) : Asks pull (change f forgets next) s q u

/-- What setting no exits cannot spoil, and no pin asked for spoils, a routine keeps. -/
theorem perform_keeps {P : RunState → Prop} (hforgets : ∀ {s t}, Forgets s t → P s → P t)
    {pull : Pin → RunM Value} (R : Routine α) {s : RunState} (hs : P s)
    (hpull : ∀ p u, R.Asks pull s p u → P u → P (pull p u).2) : P (R.perform pull s).2 := by
  induction R generalizing s with
  | done result => exact hs
  | pull p next ih =>
    exact ih _ (hpull p s .now hs) fun q u h => hpull q u (.later h)
  | look next ih => exact ih s hs fun q u h => hpull q u (.looked h)
  | change f forgets next ih =>
    exact ih (hforgets (forgets s) hs) fun q u h => hpull q u (.changed h)

end Routine

/-! ## The routines of the program -/

/-- Whatever `pull` is, the action performs one routine with it. -/
def IsRoutine {α : Type} (x : (Pin → RunM Value) → RunM α) : Prop :=
  ∃ R : Routine α, ∀ pull, x pull = R.perform pull

namespace IsRoutine

variable {α β : Type}

theorem pure (a : α) : IsRoutine fun _ => Pure.pure a := ⟨.done (.ok a), fun _ => rfl⟩

theorem pull (p : Pin) : IsRoutine fun pull => pull p := by
  refine ⟨.pull p .done, fun pull => ?_⟩
  funext s
  rfl

/-- Changes of the state that leave the exits alone. -/
theorem modify {f : RunState → RunState} (hf : ∀ s, (f s).pulledExits = s.pulledExits) :
    IsRoutine fun _ => (modify f : RunM PUnit) :=
  ⟨.change f (fun s => .of_eq (hf s)) (.done (.ok ⟨⟩)), fun _ => rfl⟩

theorem bind {x : (Pin → RunM Value) → RunM α} {f : α → (Pin → RunM Value) → RunM β}
    (hx : IsRoutine x) (hf : ∀ a, IsRoutine (f a)) :
    IsRoutine fun pull => x pull >>= fun a => f a pull := by
  obtain ⟨R, hR⟩ := hx
  choose S hS using hf
  exact ⟨R.bind S, fun pull => by simp only [Routine.perform_bind, hR, hS]⟩

theorem get_bind {f : RunState → (Pin → RunM Value) → RunM β} (hf : ∀ s, IsRoutine (f s)) :
    IsRoutine fun pull => (get : RunM RunState) >>= fun s => f s pull := by
  choose S hS using hf
  refine ⟨.look S, fun pull => ?_⟩
  funext s
  exact congrFun (hS s pull) s

end IsRoutine

namespace RunM

variable (n : NodeId)

theorem leave_isRoutine : IsRoutine fun _ => leave n :=
  .modify fun s => by split <;> rfl

theorem clearStack_isRoutine : IsRoutine fun _ => clearStack := .modify fun _ => rfl

theorem store_isRoutine (p : PinId) (v : Value) : IsRoutine fun _ => store p v :=
  .modify fun _ => rfl

theorem publish_isRoutine (p : PinId) (v : Value) : IsRoutine fun _ => publish p v :=
  .modify fun _ => rfl

theorem reportFailure_isRoutine (g : Graph) (message : String) :
    IsRoutine fun _ => reportFailure g n message := .modify fun _ => rfl

theorem recordCost_isRoutine (milliseconds : Nat) : IsRoutine fun _ => recordCost n milliseconds :=
  .modify fun _ => rfl

theorem note_isRoutine (x : Note) : IsRoutine fun _ => note x := .modify fun _ => rfl

theorem acquireCompositor_isRoutine (d : Device) : IsRoutine fun _ => acquireCompositor n d :=
  ⟨.look fun s => .change (·.holding n d) (fun _ => .of_eq rfl)
    (.done (.ok (.ok (s.memory.compositor n d)))), fun _ => funext (acquireCompositor_apply n · d)⟩

end RunM

namespace Node

open IsRoutine

variable (g : Graph) (mode : RunMode) (n : Node)

theorem executePicture_isRoutine (out : PinId) (settings : Picture) :
    IsRoutine fun _ => executePicture g n.id out settings := by
  simp only [executePicture]
  split
  · exact (publish_isRoutine _ _).bind fun _ => .pure _
  · exact (reportFailure_isRoutine _ _ _).bind fun _ => .pure _

theorem executeBranch_isRoutine (enabled : Bool) (pins : BranchPins) :
    IsRoutine fun pull => executeBranch pull enabled pins := by
  simp only [executeBranch]
  split
  · exact .pure _
  · exact (IsRoutine.pull _).bind fun _ => .pure _

theorem blend_isRoutine (pins : TransitionPins) (settings : Transition) (first second : Frame)
    (pos : Float32) : IsRoutine fun _ => n.blend g pins settings first second pos := by
  simp only [blend]
  split
  · exact .pure _
  split
  · exact (publish_isRoutine _ _).bind fun _ => .pure _
  refine (acquireCompositor_isRoutine _ _).bind fun got => ?_
  split
  · exact (reportFailure_isRoutine _ _ _).bind fun _ => .pure _
  split
  · exact (reportFailure_isRoutine _ _ _).bind fun _ => .pure _
  · refine (recordCost_isRoutine _ _).bind fun _ => .get_bind fun s => ?_
    split
    · exact (publish_isRoutine _ _).bind fun _ => .pure _
    · exact .pure _

theorem withPin_isRoutine (r : PinRef) {f : Pin → (Pin → RunM Value) → RunM Unit}
    (hf : ∀ p, IsRoutine (f p)) : IsRoutine fun pull => n.withPin r fun p => f p pull := by
  simp only [withPin]
  split
  · exact hf _
  · exact .pure _

theorem pullRef_isRoutine (r : PinRef) : IsRoutine fun pull => pullRef pull n r := by
  simp only [pullRef]
  split
  · exact .pull _
  · exact .pure _

theorem perform_isRoutine (i : Instruction) : IsRoutine fun pull => perform g mode pull n i := by
  have hput : ∀ r v, IsRoutine fun _ => n.withPin r fun p => publish p.id v := fun r v =>
    n.withPin_isRoutine r fun _ => publish_isRoutine _ _
  have href := n.pullRef_isRoutine
  cases i with
  | pull r => exact n.withPin_isRoutine r fun _ => (IsRoutine.pull _).bind fun _ => note_isRoutine _
  | store r =>
    exact n.withPin_isRoutine r fun _ => (IsRoutine.pull _).bind fun _ => store_isRoutine _ _
  | set r v => exact hput r v
  | copy a b => exact (href a).bind fun v => hput b v
  | add a b c | multiply a b c => exact (href a).bind fun _ => (href b).bind fun _ => hput c _
  | fail message => exact reportFailure_isRoutine _ g message
  | cost milliseconds => exact recordCost_isRoutine _ milliseconds
  | showStack => exact .get_bind fun _ => note_isRoutine _
  | clearStack => exact clearStack_isRoutine
  | leave => exact leave_isRoutine _
  | stop =>
    simp only [perform]
    split
    · exact .modify fun _ => rfl
    · exact .pure _
  | exit | exitIf | exitForeign | halt => exact .pure _

theorem runScript_isRoutine (script : List Instruction) :
    IsRoutine fun pull => runScript g mode pull n script := by
  induction script with
  | nil => exact .pure _
  | cons i rest ih =>
    cases i with
    | exit | exitForeign | halt => exact .pure _
    | exitIf c r =>
      refine (n.pullRef_isRoutine c).bind fun v => ?_
      split
      · exact .pure _
      · exact ih
    | _ => exact (n.perform_isRoutine g mode _).bind fun _ => ih

/-- **What a node of the program does** is a routine. -/
theorem execute_isRoutine (entry : Option PinId) :
    IsRoutine fun pull => n.execute g mode pull entry := by
  refine IsRoutine.bind (.modify fun _ => rfl) fun _ => ?_
  split
  · exact .pure _
  · exact (IsRoutine.pull _).bind fun _ => (store_isRoutine _ _).bind fun _ =>
      clearStack_isRoutine.bind fun _ => .pure _
  · exact (publish_isRoutine _ _).bind fun _ => .pure _
  · exact n.executePicture_isRoutine g _ _
  · exact executeBranch_isRoutine _ _
  · exact (IsRoutine.pull _).bind fun _ => (IsRoutine.pull _).bind fun _ =>
      (IsRoutine.pull _).bind fun _ => n.blend_isRoutine g _ _ _ _ _
  · exact (note_isRoutine _).bind fun _ => n.runScript_isRoutine g mode _

end Node

end Patchbay
