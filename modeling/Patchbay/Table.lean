/-!
# Tables in order of first entry

A table maps keys to values and remembers the order in which its keys first came in: setting a key
that is present changes its value in place, and a new key goes to the end.

The view of a table is `Table.get?`; `get?_set` and `get?_erase` say what setting and erasing do to
it.
-/

namespace Patchbay

/-- Keys with their values, in order of first entry. -/
abbrev Table (κ α : Type) := List (κ × α)

namespace Table

variable {κ α : Type} [DecidableEq κ]

def get? (k : κ) : Table κ α → Option α
  | [] => none
  | (k', v) :: rest => if k' = k then some v else get? k rest

def has (k : κ) (t : Table κ α) : Bool := (t.get? k).isSome

def set (k : κ) (v : α) : Table κ α → Table κ α
  | [] => [(k, v)]
  | (k', v') :: rest => if k' = k then (k, v) :: rest else (k', v') :: set k v rest

/-- Takes a key and its value out. -/
def erase (k : κ) (t : Table κ α) : Table κ α := List.filter (fun e => e.1 ≠ k) t

def keys (t : Table κ α) : List κ := List.map Prod.fst t

@[simp] theorem get?_nil (k : κ) : get? k ([] : Table κ α) = none := rfl

/-- Setting a key gives it the value and leaves every other key alone. -/
@[simp] theorem get?_set (t : Table κ α) (k k' : κ) (v : α) :
    (t.set k v).get? k' = if k = k' then some v else t.get? k' := by
  induction t with
  | nil => simp [set, get?]
  | cons e rest ih =>
    obtain ⟨k'', v''⟩ := e
    by_cases h : k'' = k
    · subst h
      simp only [set, get?, if_true]
      split <;> rfl
    · simp only [set, h, if_false, get?, ih]
      by_cases h' : k'' = k'
      · subst h'
        simp [Ne.symm h]
      · simp [h']

/-- Erasing a key takes its value away and leaves every other key alone. -/
@[simp] theorem get?_erase (t : Table κ α) (k k' : κ) :
    (t.erase k).get? k' = if k = k' then none else t.get? k' := by
  induction t with
  | nil => simp [erase, get?]
  | cons e rest ih =>
    obtain ⟨k'', v''⟩ := e
    by_cases h : k'' = k
    · subst h
      have : erase k'' ((k'', v'') :: rest) = erase k'' rest := by simp [erase]
      rw [this, ih, get?]
      split <;> rfl
    · have : erase k ((k'', v'') :: rest) = (k'', v'') :: erase k rest := by simp [erase, h]
      rw [this, get?, get?, ih]
      by_cases h' : k'' = k'
      · subst h'
        simp [Ne.symm h]
      · simp [h']

/-- Setting keys to one value, one after the other. -/
theorem get?_foldl_set {β : Type} (key : β → κ) (v : α) (xs : List β) (t : Table κ α) (k : κ) :
    (xs.foldl (fun t x => t.set (key x) v) t).get? k =
      if k ∈ xs.map key then some v else t.get? k := by
  induction xs generalizing t with
  | nil => simp
  | cons x rest ih =>
    rw [List.foldl_cons, ih, get?_set]
    by_cases hrest : k ∈ rest.map key
    · simp [hrest]
    · by_cases hx : key x = k
      · simp [hrest, hx]
      · have hx' : ¬k = key x := fun h => hx h.symm
        simp [hrest, hx, hx']

/-! ## Keys without repetition -/

theorem mem_keys_set {k k' : κ} {v : α} {t : Table κ α} (h : k' ∈ (t.set k v).keys) :
    k' = k ∨ k' ∈ t.keys := by
  induction t with
  | nil => simpa [set, keys] using h
  | cons e rest ih =>
    obtain ⟨k'', v''⟩ := e
    simp only [set] at h
    split at h
    · exact (List.mem_cons.mp h).imp_right (List.mem_cons_of_mem _)
    · rcases List.mem_cons.mp h with h | h
      · exact Or.inr (h ▸ List.mem_cons_self)
      · exact (ih h).imp_right (List.mem_cons_of_mem _)

/-- Setting a key does not repeat it. -/
theorem nodup_keys_set {k : κ} {v : α} {t : Table κ α} (h : t.keys.Nodup) :
    (t.set k v).keys.Nodup := by
  induction t with
  | nil => simp [set, keys]
  | cons e rest ih =>
    obtain ⟨k', v'⟩ := e
    obtain ⟨hk', hrest⟩ := List.nodup_cons.mp h
    simp only [set]
    split
    · rename_i heq
      exact List.nodup_cons.mpr ⟨heq ▸ hk', hrest⟩
    · rename_i hne
      refine List.nodup_cons.mpr ⟨fun hmem => ?_, ih hrest⟩
      exact (mem_keys_set hmem).elim hne hk'

theorem nodup_keys_foldl_set {β : Type} (key : β → κ) (v : α) (xs : List β) {t : Table κ α}
    (h : t.keys.Nodup) : (xs.foldl (fun t x => t.set (key x) v) t).keys.Nodup := by
  induction xs generalizing t with
  | nil => exact h
  | cons x rest ih => exact ih (nodup_keys_set h)

theorem get?_eq_none_iff {t : Table κ α} {k : κ} : t.get? k = none ↔ k ∉ t.keys := by
  induction t with
  | nil => simp [keys]
  | cons e rest ih =>
    obtain ⟨k', v'⟩ := e
    by_cases heq : k' = k
    · simp [get?, keys, heq]
    · rw [get?, if_neg heq, ih]
      simp [keys, Ne.symm heq]

/-- Without repeated keys, a table gives a key the value of any entry for it. -/
theorem get?_eq_some_iff {t : Table κ α} (h : t.keys.Nodup) {k : κ} {v : α} :
    t.get? k = some v ↔ (k, v) ∈ t := by
  induction t with
  | nil => simp
  | cons e rest ih =>
    obtain ⟨k', v'⟩ := e
    obtain ⟨hk', hrest⟩ := List.nodup_cons.mp h
    by_cases heq : k' = k
    · subst heq
      have habsent : (k', v) ∉ rest := fun hmem => hk' (List.mem_map.mpr ⟨_, hmem, rfl⟩)
      simp [get?, habsent, eq_comm]
    · simp [get?, heq, ih hrest, Ne.symm heq]

end Table

end Patchbay
