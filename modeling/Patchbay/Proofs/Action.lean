import Mathlib.Tactic

/-!
# Actions over a state

The steps of runs and the edits of sessions are actions of one shape: functions from states to an
outcome and a state, where the state counts even if the outcome is an error. The equations here say
what sequencing does, so that nothing later opens the monad again.

`Action.Keeps` says of an action that it keeps an invariant, whether it fails or not. It is closed
under sequencing, which reduces what a long action keeps to what its elementary steps keep.
-/

namespace Patchbay

namespace Action

variable {ε σ α β : Type}

/-! ## Sequencing -/

/-- An action after one that gives a value goes on with the value and the state reached. -/
theorem bind_ok {x : ExceptT ε (StateM σ) α} {f : α → ExceptT ε (StateM σ) β} {s t : σ} {a : α}
    (h : x s = (.ok a, t)) : (x >>= f) s = f a t := by
  have hx : (x >>= f) s = (ExceptT.bindCont f (x s).1) (x s).2 := rfl
  rw [hx, h]
  rfl

/-- An action after one that fails is not performed. -/
theorem bind_error {x : ExceptT ε (StateM σ) α} {f : α → ExceptT ε (StateM σ) β} {s t : σ} {e : ε}
    (h : x s = (.error e, t)) : (x >>= f) s = (.error e, t) := by
  have hx : (x >>= f) s = (ExceptT.bindCont f (x s).1) (x s).2 := rfl
  rw [hx, h]
  rfl

@[simp] theorem pure_apply (a : α) (s : σ) : (pure a : ExceptT ε (StateM σ) α) s = (.ok a, s) := rfl

@[simp] theorem throw_apply (e : ε) (s : σ) :
    (throw e : ExceptT ε (StateM σ) α) s = (.error e, s) := rfl

/-- Looking at the state before going on. -/
@[simp] theorem get_bind_apply (f : σ → ExceptT ε (StateM σ) β) (s : σ) :
    ((get : ExceptT ε (StateM σ) σ) >>= f) s = f s s := rfl

/-- Replacing the state before going on. -/
@[simp] theorem set_bind_apply (t : σ) (f : PUnit → ExceptT ε (StateM σ) β) (s : σ) :
    ((set t : ExceptT ε (StateM σ) PUnit) >>= f) s = f ⟨⟩ t := rfl

/-- Changing the state before going on. -/
@[simp] theorem modify_bind_apply (g : σ → σ) (f : PUnit → ExceptT ε (StateM σ) β) (s : σ) :
    ((modify g : ExceptT ε (StateM σ) PUnit) >>= f) s = f ⟨⟩ (g s) := rfl

/-- Looking at the state and computing something from it. -/
@[simp] theorem map_get_apply (f : σ → α) (s : σ) :
    (f <$> (get : ExceptT ε (StateM σ) σ)) s = (.ok (f s), s) := rfl

/-! ## Invariants -/

/-- The state that an action leaves, whether it fails or not, satisfies `I`. -/
def Leaves (I : σ → Prop) (x : ExceptT ε (StateM σ) α) (s : σ) : Prop := I (x s).2

/-- The action leaves states that satisfy `I` when it finds such. -/
def Keeps (I : σ → Prop) (x : ExceptT ε (StateM σ) α) : Prop := ∀ s, I s → Leaves I x s

namespace Keeps

variable {I : σ → Prop}

theorem bind {x : ExceptT ε (StateM σ) α} {f : α → ExceptT ε (StateM σ) β} (hx : Keeps I x)
    (hf : ∀ a, Keeps I (f a)) : Keeps I (x >>= f) := by
  intro s hs
  have hxs := hx s hs
  rw [Leaves] at hxs ⊢
  rcases hr : x s with ⟨r, t⟩
  rw [hr] at hxs
  cases r with
  | ok a =>
    rw [bind_ok hr]
    exact hf a t hxs
  | error e =>
    rw [bind_error hr]
    exact hxs

theorem pure (a : α) : Keeps I (Pure.pure a : ExceptT ε (StateM σ) α) := fun _ hs => hs

theorem throw (e : ε) : Keeps I (throw e : ExceptT ε (StateM σ) α) := fun _ hs => hs

theorem modify {f : σ → σ} (hf : ∀ s, I s → I (f s)) :
    Keeps I (modify f : ExceptT ε (StateM σ) PUnit) := hf

/-- An action that begins by looking at the state. -/
theorem get_bind {f : σ → ExceptT ε (StateM σ) α} (h : ∀ s, I s → Leaves I (f s) s) :
    Keeps I (get >>= f) := h

/-- An action that goes on from another state. -/
theorem set_bind {x : ExceptT ε (StateM σ) α} (hx : Keeps I x) {s t : σ} (ht : I t) :
    Leaves I (set t >>= fun _ => x) s := hx t ht

theorem forM {xs : List β} {f : β → ExceptT ε (StateM σ) PUnit} (hf : ∀ b, Keeps I (f b)) :
    Keeps I (xs.forM f) := by
  induction xs with
  | nil => exact pure _
  | cons b rest ih => exact bind (hf b) fun _ => ih

end Keeps

end Action

end Patchbay
