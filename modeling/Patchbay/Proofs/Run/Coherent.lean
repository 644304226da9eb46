import Patchbay.Proofs.Run.Actions

/-!
# Compositors stay with their devices

A transition holds on to a compositor, and takes it up again in a later run if its picture comes from
the same device. What a run computes does not depend on earlier runs only because such a compositor
was made for just this device (`Memory.Coherent`). Every run keeps the memory coherent, over any graph
and however it ends: the only action that changes a slot puts a compositor of the right device there.
-/

namespace Patchbay

open Patchbay.Action RunM

/-! ## Compositors and devices -/

namespace Memory

/-- Every compositor is held for the device it was made for. -/
def Coherent (m : Memory) : Prop :=
  ∀ n d c, (m.slot n).entry = some (d, c) → c.device = d

theorem coherent_empty : empty.Coherent := by
  intro n d c h
  simp [slot, empty, Slot.empty] at h

/-- A node that holds a compositor for the device it was made for, if any, has for every device one of that
device. -/
theorem compositor_device_of_slot {m : Memory} {n : NodeId}
    (h : ∀ d c, (m.slot n).entry = some (d, c) → c.device = d) (d : Device) :
    (m.compositor n d).device = d := by
  rw [compositor]
  split
  · rename_i d' c hentry
    split_ifs with heq
    · exact (h d' c hentry).trans heq
    · rfl
  · rfl

variable {m : Memory} (h : m.Coherent)
include h

/-- In a coherent memory, the compositor for a device is one of that device. -/
theorem Coherent.compositor_device (n : NodeId) (d : Device) : (m.compositor n d).device = d :=
  compositor_device_of_slot (h n) d

/-- Storing values leaves the slots alone. -/
theorem Coherent.store (p : PinId) (v : Value) : (m.store p v).Coherent := h

/-- Holding a compositor for a device keeps the memory coherent. -/
theorem Coherent.hold (n : NodeId) (d : Device) :
    (m.setSlot n ⟨some (d, m.compositor n d)⟩).Coherent := by
  intro n' d' c hentry
  simp only [slot, setSlot, Table.get?_set] at hentry
  split_ifs at hentry with heq
  · simp only [Option.getD_some, Option.some.injEq, Prod.mk.injEq] at hentry
    obtain ⟨rfl, rfl⟩ := hentry
    exact h.compositor_device n d
  · exact h n' d' c hentry

end Memory

/-! ## Elementary actions -/

/-- The memory of a run is coherent. -/
def RunState.Coherent (s : RunState) : Prop := s.memory.Coherent

namespace RunM

variable (n : NodeId)

theorem enter_coherent : Keeps RunState.Coherent (enter n) := by
  refine Keeps.get_bind fun s hs => ?_
  split <;> exact hs

theorem leave_coherent : Keeps RunState.Coherent (leave n) := by
  refine Keeps.modify fun s hs => ?_
  split <;> exact hs

theorem markExecuted_coherent : Keeps RunState.Coherent (markExecuted n) := by
  refine Keeps.modify fun s hs => ?_
  split <;> exact hs

theorem clearStack_coherent : Keeps RunState.Coherent clearStack := fun _ hs => hs

theorem store_coherent (p : PinId) (v : Value) : Keeps RunState.Coherent (store p v) :=
  fun _ hs => Memory.Coherent.store hs p v

theorem publish_coherent (p : PinId) (v : Value) : Keeps RunState.Coherent (publish p v) :=
  fun _ hs => Memory.Coherent.store hs p v

theorem reportFailure_coherent (g : Graph) (message : String) :
    Keeps RunState.Coherent (reportFailure g n message) := fun _ hs => hs

theorem recordCost_coherent (milliseconds : Nat) :
    Keeps RunState.Coherent (recordCost n milliseconds) := fun _ hs => hs

theorem note_coherent (x : Note) : Keeps RunState.Coherent (note x) := fun _ hs => hs

theorem acquireCompositor_coherent (d : Device) :
    Keeps RunState.Coherent (acquireCompositor n d) := by
  intro s hs
  rw [Leaves, acquireCompositor_apply]
  exact Memory.Coherent.hold hs n d

theorem outcome_coherent {α : Type} {x : RunM α} (hx : Keeps RunState.Coherent x) :
    Keeps RunState.Coherent (outcome x) := hx

end RunM

/-! ## Nodes -/

namespace Node

variable (g : Graph) (mode : RunMode) {pull : Pin → RunM Value}
  (hpull : ∀ p, Keeps RunState.Coherent (pull p)) (n : Node)
include hpull

theorem executeFinish_coherent (pins : FinishPins) :
    Keeps RunState.Coherent (executeFinish pull pins) :=
  Keeps.bind (hpull _) fun _ => Keeps.bind (store_coherent _ _) fun _ =>
    Keeps.bind clearStack_coherent fun _ => Keeps.pure _

theorem executeBranch_coherent (enabled : Bool) (pins : BranchPins) :
    Keeps RunState.Coherent (executeBranch pull enabled pins) := by
  rw [executeBranch]
  split
  · exact Keeps.pure _
  · exact Keeps.bind (hpull _) fun _ => Keeps.pure _

omit hpull in
theorem executePicture_coherent (out : PinId) (settings : Picture) :
    Keeps RunState.Coherent (executePicture g n.id out settings) := by
  rw [executePicture]
  split
  · exact Keeps.bind (publish_coherent _ _) fun _ => Keeps.pure _
  · exact Keeps.bind (reportFailure_coherent _ _ _) fun _ => Keeps.pure _

omit hpull in
theorem blend_coherent (pins : TransitionPins) (settings : Transition) (first second : Frame)
    (pos : Float32) : Keeps RunState.Coherent (n.blend g pins settings first second pos) := by
  rw [blend]
  split
  · exact Keeps.pure _
  split
  · exact Keeps.bind (publish_coherent _ _) fun _ => Keeps.pure _
  refine Keeps.bind (acquireCompositor_coherent _ _) fun got => ?_
  split
  · exact Keeps.bind (reportFailure_coherent _ _ _) fun _ => Keeps.pure _
  split
  · exact Keeps.bind (reportFailure_coherent _ _ _) fun _ => Keeps.pure _
  · refine Keeps.bind (recordCost_coherent _ _) fun _ => Keeps.get_bind fun s hs => ?_
    split
    · exact Keeps.bind (publish_coherent _ _) (fun _ => Keeps.pure _) s hs
    · exact hs

theorem executeTransition_coherent (pins : TransitionPins) (settings : Transition) :
    Keeps RunState.Coherent (executeTransition g pull n pins settings) :=
  Keeps.bind (hpull _) fun _ => Keeps.bind (hpull _) fun _ => Keeps.bind (hpull _) fun _ =>
    n.blend_coherent g pins settings _ _ _

omit hpull in
theorem withPin_coherent (r : PinRef) {f : Pin → RunM Unit}
    (hf : ∀ p, Keeps RunState.Coherent (f p)) : Keeps RunState.Coherent (n.withPin r f) := by
  rw [withPin]
  split
  · exact hf _
  · exact Keeps.pure _

theorem pullRef_coherent (r : PinRef) : Keeps RunState.Coherent (pullRef pull n r) := by
  rw [pullRef]
  split
  · exact hpull _
  · exact Keeps.pure _

theorem perform_coherent (i : Instruction) :
    Keeps RunState.Coherent (perform g mode pull n i) := by
  have href := pullRef_coherent hpull n
  have hput : ∀ r v, Keeps RunState.Coherent (n.withPin r fun p => publish p.id v) := fun r v =>
    n.withPin_coherent r fun _ => publish_coherent _ _
  cases i with
  | pull r => exact n.withPin_coherent r fun _ => Keeps.bind (hpull _) fun _ => note_coherent _
  | store r => exact n.withPin_coherent r fun _ => Keeps.bind (hpull _) fun _ => store_coherent _ _
  | set r v => exact hput r v
  | copy a b => exact Keeps.bind (href a) fun v => hput b v
  | add a b c | multiply a b c =>
    exact Keeps.bind (href a) fun _ => Keeps.bind (href b) fun _ => hput c _
  | fail message => exact reportFailure_coherent _ g message
  | cost milliseconds => exact recordCost_coherent _ milliseconds
  | showStack => exact fun _ hs => hs
  | clearStack => exact clearStack_coherent
  | leave => exact leave_coherent _
  | stop =>
    rw [perform]
    split <;> exact fun _ hs => hs
  | exit | exitIf | exitForeign | halt => exact Keeps.pure _

theorem runScript_coherent (script : List Instruction) :
    Keeps RunState.Coherent (runScript g mode pull n script) := by
  induction script with
  | nil => exact Keeps.pure _
  | cons i rest ih =>
    cases i with
    | exit | exitForeign | halt => exact Keeps.pure _
    | exitIf c r =>
      refine Keeps.bind (pullRef_coherent hpull n c) fun v => ?_
      split
      · exact Keeps.pure _
      · exact ih
    | _ => exact Keeps.bind (perform_coherent g mode hpull n _) fun _ => ih

/-- Whatever a node does keeps the memory coherent if the pulls it asks for do. -/
theorem execute_coherent (entry : Option PinId) :
    Keeps RunState.Coherent (n.execute g mode pull entry) := by
  refine Keeps.bind (fun _ hs => hs) fun _ => ?_
  split
  · exact Keeps.pure _
  · exact executeFinish_coherent hpull _
  · exact Keeps.bind (publish_coherent _ _) fun _ => Keeps.pure _
  · exact n.executePicture_coherent g _ _
  · exact executeBranch_coherent hpull _ _
  · exact executeTransition_coherent g hpull n _ _
  · exact Keeps.bind (note_coherent _) fun _ => runScript_coherent g mode hpull n _

omit hpull in
theorem reset_coherent : Keeps RunState.Coherent n.reset := by
  rw [reset]
  split
  · split
    · exact note_coherent _
    · exact Keeps.pure _
  · exact Keeps.pure _

end Node

/-! ## Pulls and runs -/

namespace Graph

variable (g : Graph) (mode : RunMode)

theorem executeUpstream_coherent {execute : Node → RunM (Option PinId)}
    (h : ∀ n, Keeps RunState.Coherent (execute n)) (n : NodeId) :
    Keeps RunState.Coherent (g.executeUpstream execute n) := by
  rw [executeUpstream]
  split
  · exact Keeps.throw _
  · refine Keeps.bind (enter_coherent n) fun _ => Keeps.bind (outcome_coherent (h _)) fun r =>
      Keeps.bind (leave_coherent n) fun _ => Keeps.bind (markExecuted_coherent n) fun _ => ?_
    split
    · exact Keeps.throw _
    · exact fun _ hs => hs

theorem pullWith_coherent {execute : Node → RunM (Option PinId)}
    (h : ∀ n, Keeps RunState.Coherent (execute n)) (p : Pin) :
    Keeps RunState.Coherent (g.pullWith execute p) := by
  rw [pullWith]
  split
  · exact fun _ hs => hs
  · refine Keeps.get_bind fun s hs => ?_
    split
    · exact hs
    · split
      · refine Keeps.get_bind (fun s hs => ?_) s hs
        split
        · exact hs
        · refine Keeps.bind (g.executeUpstream_coherent h _) (fun _ => ?_) s hs
          exact fun _ hs => hs
      · exact hs

theorem pull_coherent (depth : Nat) (p : Pin) :
    Keeps RunState.Coherent (g.pull mode depth p) := by
  induction depth generalizing p with
  | zero => exact g.pullWith_coherent (fun _ => Keeps.throw _) p
  | succ depth ih =>
    exact g.pullWith_coherent (fun n => n.execute_coherent g mode ih none) p

theorem stepInto_coherent (n : Node) (entry : Option PinId) :
    Keeps RunState.Coherent (g.stepInto mode n entry) := by
  have hmark : ∀ exit : Option PinId,
      Keeps RunState.Coherent (do markExecuted n.id; return exit : RunM (Option PinId)) :=
    fun exit => Keeps.bind (markExecuted_coherent _) fun _ => Keeps.pure _
  refine Keeps.bind (enter_coherent _) fun _ => Keeps.get_bind fun s hs => ?_
  simp only
  split
  · split
    · exact Keeps.bind clearStack_coherent
        (fun _ => Keeps.bind (Keeps.pure _) fun exit => hmark exit) s hs
    · exact Keeps.bind (Keeps.pure _) (fun exit => hmark exit) s hs
  · exact Keeps.bind (n.execute_coherent g mode (g.pull_coherent mode _) entry)
      (fun exit => hmark exit) s hs

theorem walk_coherent (steps : Nat) (n : NodeId) (entry : Option PinId) (path : List NodeId) :
    Keeps RunState.Coherent (g.walk mode steps n entry path) := by
  have hend : ∀ path : List NodeId, Keeps RunState.Coherent
      (do return (← endOfFlow, path) : RunM (RunStatus × List NodeId)) := fun path =>
    Keeps.bind (Keeps.bind (fun _ hs => hs) fun _ => Keeps.pure _) fun _ => Keeps.pure _
  induction steps generalizing n entry path with
  | zero => exact Keeps.throw _
  | succ steps ih =>
    rw [walk]
    refine Keeps.get_bind fun s hs => ?_
    split
    · exact hs
    · split
      · exact hs
      · refine Keeps.bind (g.stepInto_coherent mode _ entry) (fun exit => ?_) s hs
        simp only
        split
        · refine Keeps.get_bind fun s hs => ?_
          split <;> exact hs
        · split
          · exact hend _
          · split
            · exact Keeps.throw _
            · exact hend _
            · exact ih _ _ _

/-- **Runs keep the memory coherent**, however they end. -/
theorem runFrom_coherent (start : NodeId) :
    Keeps RunState.Coherent (g.runFrom mode start) := by
  refine Keeps.get_bind fun s hs => ?_
  simp only
  split
  · exact hs
  split
  · exact hs
  refine Keeps.bind (fun _ hs => hs) (fun _ => ?_) s hs
  refine Keeps.bind (Keeps.forM fun n => n.reset_coherent) fun _ =>
    Keeps.bind (outcome_coherent (g.walk_coherent mode _ _ _ _)) fun r =>
      Keeps.bind clearStack_coherent fun _ => ?_
  split
  · exact Keeps.throw _
  · exact fun _ hs => hs

end Graph

end Patchbay
