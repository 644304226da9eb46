/-!
# Slots for resources

A slot holds at most one resource, bound to the key it was made for. `Slot.getOrCreate` answers with
the resource if the key is the same; otherwise it first drops what the slot holds and then makes a
new resource, which may fail and leaves the slot empty then.

What is done with a slot is written as steps of `Slot.UseM`, which also record what becomes of
resources: when one is asked to be made, and when one is dropped.
-/

namespace Patchbay

/-- At most one resource and the key it is bound to. -/
structure Slot (κ ρ : Type) where
  /-- The key and the resource. -/
  entry : Option (κ × ρ)
  deriving DecidableEq

namespace Slot

variable {κ ρ ε : Type}

def empty : Slot κ ρ := ⟨none⟩

def key? (s : Slot κ ρ) : Option κ := s.entry.map Prod.fst

def get? (s : Slot κ ρ) : Option ρ := s.entry.map Prod.snd

def isLoaded (s : Slot κ ρ) : Bool := s.entry.isSome

/-! ## Steps -/

/-- What becomes of resources while a slot is used. -/
inductive Event (κ ρ ε : Type) where
  /-- A resource was asked to be made for a key, with this answer. -/
  | tried (key : κ) (answer : Except ε ρ)
  /-- A resource was dropped. -/
  | dropped (resource : ρ)

namespace Event

/-- The resource that was made. -/
def made? : Event κ ρ ε → Option ρ
  | tried _ (.ok r) => some r
  | _ => none

/-- The resource that was dropped. -/
def dropped? : Event κ ρ ε → Option ρ
  | dropped r => some r
  | _ => none

def isTried : Event κ ρ ε → Bool
  | tried _ _ => true
  | _ => false

end Event

/-- A slot in use, and what has become of resources so far. -/
structure Usage (κ ρ ε : Type) where
  slot : Slot κ ρ
  /-- The oldest first. -/
  events : List (Event κ ρ ε)

/-- Steps on a slot in use. -/
abbrev UseM (κ ρ ε : Type) := ExceptT ε (StateM (Usage κ ρ ε))

namespace UseM

def record (e : Event κ ρ ε) : UseM κ ρ ε Unit :=
  modify fun u => { u with events := u.events ++ [e] }

/-- Takes out what the slot holds and leaves it empty. -/
def take : UseM κ ρ ε (Option (κ × ρ)) := do
  let u ← get
  set { u with slot := empty }
  return u.slot.entry

/-- Drops the resource of an entry that was taken out. -/
def discard : Option (κ × ρ) → UseM κ ρ ε Unit
  | some (_, r) => record (.dropped r)
  | none => pure ()

/-- Makes a resource. -/
def make (key : κ) (create : κ → Except ε ρ) : UseM κ ρ ε ρ := do
  record (.tried key (create key))
  match create key with
  | .ok r => return r
  | .error e => throw e

/-- Puts an entry into the slot, in place of what it holds. -/
def insert (entry : κ × ρ) : UseM κ ρ ε Unit := do
  discard (← take)
  modify fun u => { u with slot := ⟨some entry⟩ }

/-- A new entry for a key, made after a stale one is gone. -/
def renew (stale : Option (κ × ρ)) (key : κ) (create : κ → Except ε ρ) : UseM κ ρ ε (κ × ρ) := do
  discard stale
  return (key, ← make key create)

/-- The resource for a key: the one held if it is bound to the key, else a new one in its place. -/
def getOrCreate [BEq κ] (key : κ) (create : κ → Except ε ρ) : UseM κ ρ ε ρ := do
  let entry ← match ← take with
    | some held => if held.1 == key then pure held else renew (some held) key create
    | none => renew none key create
  insert entry
  return entry.2

/-- Drops the resource held. A slot that is itself dropped goes the same way. -/
def release : UseM κ ρ ε Unit := do
  discard (← take)

end UseM

/-! ## Single uses -/

/-- What a request for a resource came to. -/
structure Outcome (κ ρ ε : Type) extends Usage κ ρ ε where
  /-- The resource for the key, or why there is none. -/
  answer : Except ε ρ

/-- The stale resource that was dropped. -/
def Outcome.dropped (o : Outcome κ ρ ε) : Option ρ := o.events.findSome? Event.dropped?

/-- Whether a resource was asked to be made. -/
def Outcome.created (o : Outcome κ ρ ε) : Bool := o.events.any Event.isTried

/-- Asks a slot for a resource. -/
def getOrCreate [BEq κ] (s : Slot κ ρ) (key : κ) (create : κ → Except ε ρ) : Outcome κ ρ ε :=
  let (answer, u) := UseM.getOrCreate key create ⟨s, []⟩
  { u with answer }

/-- Empties a slot; gives the emptied slot and what was dropped. -/
def release (s : Slot κ ρ) : Slot κ ρ × Option ρ :=
  let (_, u) := (UseM.release : UseM κ ρ Empty Unit) ⟨s, []⟩
  (u.slot, u.events.findSome? Event.dropped?)

end Slot

end Patchbay
