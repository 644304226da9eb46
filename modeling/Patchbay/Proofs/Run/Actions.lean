import Patchbay.Proofs.Slot
import Patchbay.Run

/-!
# The elementary actions of a run

The lemmas here say what each elementary action of a run leaves behind, as equations between states.
Together with the equations for sequencing they are all that is needed of the monad.

`RunState.push`, `pop`, `mark`, `keepExit` name the changes of the bookkeeping; the actions of the
same purpose perform exactly these.
-/

namespace Patchbay

open Patchbay.Action

/-- The compositor that a node has for a device: the one it holds if that is bound to the device. -/
def Memory.compositor (m : Memory) (n : NodeId) (d : Device) : Compositor :=
  match (m.slot n).entry with
  | some (d', c) => if d' = d then c else ⟨d⟩
  | none => ⟨d⟩

/-- What is stored on a pin is its value. -/
@[simp] theorem Memory.value_store (m : Memory) (p : Pin) (v : Value) :
    (m.store p.id v).value p = v := by
  simp [value, store]

namespace RunState

/-- The state with a node pushed onto the call stack. -/
def push (s : RunState) (n : NodeId) : RunState := { s with stack := s.stack ++ [n] }

/-- The state with a node popped, if it is the innermost one. -/
def pop (s : RunState) (n : NodeId) : RunState :=
  if s.stack.getLast? = some n then { s with stack := s.stack.dropLast } else s

/-- The state with a node recorded as executed. -/
def mark (s : RunState) (n : NodeId) : RunState :=
  if s.executed.contains n then s else { s with executed := s.executed ++ [n] }

/-- The state with the exit of a pulled node kept. -/
def keepExit (s : RunState) (n : NodeId) (exit : Option PinId) : RunState :=
  { s with pulledExits := s.pulledExits.set n exit }

/-- The state with the call stack emptied. -/
def clear (s : RunState) : RunState := { s with stack := [] }

/-- The state with an execution logged. -/
def logged (s : RunState) (n : NodeId) : RunState := { s with log := s.log ++ [n] }

/-- The state with a value stored on a pin. -/
def stored (s : RunState) (p : PinId) (v : Value) : RunState :=
  { s with memory := s.memory.store p v }

/-- The state with a value stored and published. -/
def published (s : RunState) (p : PinId) (v : Value) : RunState :=
  { s with memory := s.memory.store p v, cache := s.cache.set p v }

/-- The state with a failure of a node reported under its display name. -/
def failed (s : RunState) (g : Graph) (n : NodeId) (message : String) : RunState :=
  { s with failures := s.failures ++ [⟨n, ((g.node? n).map Node.name).getD "", message⟩] }

/-- The state with time charged to a node. -/
def charged (s : RunState) (n : NodeId) (milliseconds : Nat) : RunState :=
  { s with costs := s.costs.set n ((s.costs.get? n).getD 0 + milliseconds) }

/-- The state with the slot of a node bound to a device. -/
def holding (s : RunState) (n : NodeId) (d : Device) : RunState :=
  { s with memory := s.memory.setSlot n ⟨some (d, s.memory.compositor n d)⟩ }

theorem pop_eq {s : RunState} {n : NodeId} {below : List NodeId} (h : s.stack = below ++ [n]) :
    s.pop n = { s with stack := below } := by
  simp [pop, h]

theorem mark_eq {s : RunState} {n : NodeId} (h : n ∉ s.executed) :
    s.mark n = { s with executed := s.executed ++ [n] } := by
  simp [mark, h]

@[simp] theorem mark_memory (s : RunState) (n : NodeId) : (s.mark n).memory = s.memory := by
  rw [mark]
  split_ifs <;> rfl

theorem mem_mark {s : RunState} {m n : NodeId} :
    m ∈ (s.mark n).executed ↔ m ∈ s.executed ∨ m = n := by
  rw [mark]
  split_ifs with h
  · exact ⟨Or.inl, fun hm => hm.elim id fun heq => heq ▸ by simpa using h⟩
  · simp

end RunState

namespace RunM

variable {α : Type}

@[simp] theorem outcome_apply (x : RunM α) (s : RunState) :
    outcome x s = (.ok (x s).1, (x s).2) := rfl

/-! ## Elementary actions -/

variable (n : NodeId) (s : RunState)

/-- Entering a node that is on the call stack fails with the stack as evidence. -/
theorem enter_of_mem (h : n ∈ s.stack) : enter n s = (.error (.cyclic n s.stack), s) := by
  simp [enter, h]

/-- Entering any other node pushes it. -/
theorem enter_of_not_mem (h : n ∉ s.stack) : enter n s = (.ok (), s.push n) := by
  simp only [enter, get_bind_apply]
  rw [if_neg (by simpa using h)]
  rfl

theorem leave_apply : leave n s = (.ok (), s.pop n) := rfl

theorem clearStack_apply : clearStack s = (.ok (), s.clear) := rfl

theorem markExecuted_apply : markExecuted n s = (.ok (), s.mark n) := rfl

theorem logExecution_apply : logExecution n s = (.ok (), s.logged n) := rfl

theorem recordCost_apply (milliseconds : Nat) :
    recordCost n milliseconds s = (.ok (), s.charged n milliseconds) := rfl

/-- A compositor is always there to be had: the slot is bound to the device afterwards. -/
theorem acquireCompositor_apply (d : Device) : acquireCompositor n d s =
    (.ok (.ok (s.memory.compositor n d)), s.holding n d) := by
  rw [acquireCompositor, get_bind_apply]
  rcases (s.memory.slot n).held_or_stale d with ⟨d', c, hentry, hd⟩ | hstale
  · obtain rfl := beq_iff_eq.mp hd
    have hheld : s.memory.compositor n d' = c := by rw [Memory.compositor, hentry]; exact if_pos rfl
    have hslot : s.memory.slot n = ⟨some (d', c)⟩ := congrArg Slot.mk hentry
    rw [Slot.getOrCreate, Slot.UseM.getOrCreate_of_held hentry hd, RunState.holding, hheld, ← hslot]
    rfl
  · have hnew : s.memory.compositor n d = ⟨d⟩ := by
      rw [Memory.compositor]
      cases hentry : (s.memory.slot n).entry with
      | none => rfl
      | some held => exact if_neg (beq_eq_false_iff_ne.mp (hstale held.1 held.2 hentry))
    rw [Slot.getOrCreate, Slot.UseM.getOrCreate_of_stale hstale, RunState.holding, hnew]
    rfl

end RunM

end Patchbay
