import Mathlib.Tactic
import Patchbay.Id

/-!
# What a supply gives

A supply is read in runs of consecutive identities: `Supply.skip` is the supply after such a run, and
`Supply.pinIds` is the run itself. A supply that counts upwards does not repeat itself for as long as
the numbers that it counts fit into an identity.

Supplies only move forward (`Supply.Reaches`), and what they gave on the way (`Supply.Gave`) is new if it
was neither given before nor in use (`Supply.Fresh`).
-/

namespace Patchbay

namespace Supply

/-- The supply after `k` identities have been taken. -/
def skip (s : Supply) (k : Nat) : Supply := { s with next := s.next + k }

/-- The next `k` identities, as identities of pins. -/
def pinIds (s : Supply) (k : Nat) : List PinId := (List.range' s.next k).map fun i => ⟨s.draw i⟩

theorem pinIds_succ (s : Supply) (k : Nat) :
    s.pinIds (k + 1) = s.takePin.1 :: s.takePin.2.pinIds k := by
  rw [pinIds, List.range'_succ]
  rfl

theorem pinIds_add (s : Supply) (j k : Nat) :
    s.pinIds (j + k) = s.pinIds j ++ (s.skip j).pinIds k := by
  simp only [pinIds, skip, ← List.map_append, List.range'_append_1]

theorem mem_pinIds {s : Supply} {k : Nat} {p : PinId} :
    p ∈ s.pinIds k ↔ ∃ i, s.next ≤ i ∧ i < s.next + k ∧ p = ⟨s.draw i⟩ := by
  simp only [pinIds, List.mem_map, List.mem_range'_1, and_assoc, eq_comm]

/-- Positions that give different identities give different pins. -/
theorem nodup_pinIds {s : Supply} {k : Nat}
    (h : ∀ i j, s.next ≤ i → i < j → j < s.next + k → s.draw i ≠ s.draw j) :
    (s.pinIds k).Nodup := by
  rw [pinIds, List.Nodup, List.pairwise_map]
  refine List.Pairwise.imp_of_mem (fun {i j} hi hj hij heq => ?_) List.pairwise_lt_range'
  rw [List.mem_range'_1] at hi hj
  exact h i j hi.1 hij hj.2 (PinId.mk.inj heq)

/-! ## Counting -/

/-- The three parts of a counted number can be told from the identity that is made of them. -/
theorem parts_unique {a b c a' b' c' : Nat} (hb : b < 2 ^ 12) (hc : c < 2 ^ 62)
    (hb' : b' < 2 ^ 12) (hc' : c' < 2 ^ 62)
    (h : a * 2 ^ 80 + 4 * 2 ^ 76 + b * 2 ^ 64 + 2 * 2 ^ 62 + c =
      a' * 2 ^ 80 + 4 * 2 ^ 76 + b' * 2 ^ 64 + 2 * 2 ^ 62 + c') :
    a = a' ∧ b = b' ∧ c = c' := by
  omega

/-- Different numbers below `2 ^ 122` make different identities. -/
theorem randomKind_injOn : Set.InjOn randomKind (Set.Iio (2 ^ 122)) := by
  intro x hx y hy hxy
  rw [Set.mem_Iio] at hx hy
  have hfits : ∀ z, z / 2 ^ 74 % 2 ^ 48 * 2 ^ 80 + 4 * 2 ^ 76 + z / 2 ^ 62 % 2 ^ 12 * 2 ^ 64 +
      2 * 2 ^ 62 + z % 2 ^ 62 < 2 ^ 128 := by
    intro z
    have ha : z / 2 ^ 74 % 2 ^ 48 < 2 ^ 48 := Nat.mod_lt _ (by decide)
    have hb : z / 2 ^ 62 % 2 ^ 12 < 2 ^ 12 := Nat.mod_lt _ (by decide)
    have hc : z % 2 ^ 62 < 2 ^ 62 := Nat.mod_lt _ (by decide)
    omega
  have hbits := congrArg (fun u => u.bits.toNat) hxy
  simp only [randomKind, Uuid.ofNat, BitVec.toNat_ofNat, Nat.pow_eq] at hbits
  rw [Nat.mod_eq_of_lt (hfits x), Nat.mod_eq_of_lt (hfits y)] at hbits
  have hparts := parts_unique (Nat.mod_lt _ (by decide)) (Nat.mod_lt _ (by decide))
    (Nat.mod_lt _ (by decide)) (Nat.mod_lt _ (by decide)) hbits
  omega

/-- A supply that counts upwards does not repeat itself before it has reached `2 ^ 122`. -/
theorem countingFrom_distinct {seed i j : Nat} (hij : i < j) (hj : seed + j < 2 ^ 122) :
    (countingFrom seed).draw i ≠ (countingFrom seed).draw j := by
  intro heq
  have hi : seed + i < 2 ^ 122 := by omega
  have hsum : seed + i = seed + j := randomKind_injOn hi hj heq
  omega

/-! ## Identities that have been taken -/

/-- The supply `s'` is `s` after some identities have been taken. -/
def Reaches (s s' : Supply) : Prop := ∃ k, s' = s.skip k

/-- The identity was taken on the way from `s` to `s'`. -/
def Gave (s s' : Supply) (u : Uuid) : Prop := ∃ i, s.next ≤ i ∧ i < s'.next ∧ u = s.draw i

/-- What the supply gives before position `n` is new: no identity comes twice, and none is among
those used elsewhere. -/
structure Fresh (s : Supply) (n : Nat) (used : List Uuid) : Prop where
  distinct : ∀ i j, s.next ≤ i → i < j → j < n → s.draw i ≠ s.draw j
  unused : ∀ i, s.next ≤ i → i < n → s.draw i ∉ used

theorem Reaches.refl (s : Supply) : s.Reaches s := ⟨0, rfl⟩

theorem Reaches.trans {s s' s'' : Supply} (h : s.Reaches s') (h' : s'.Reaches s'') :
    s.Reaches s'' := by
  obtain ⟨k, rfl⟩ := h
  obtain ⟨k', rfl⟩ := h'
  exact ⟨k + k', by simp [skip, Nat.add_assoc]⟩

theorem Reaches.draw_eq {s s' : Supply} (h : s.Reaches s') : s'.draw = s.draw := by
  obtain ⟨k, rfl⟩ := h
  rfl

theorem Reaches.le {s s' : Supply} (h : s.Reaches s') : s.next ≤ s'.next := by
  obtain ⟨k, rfl⟩ := h
  exact Nat.le_add_right _ _

theorem Reaches.takeNode (s : Supply) : s.Reaches s.takeNode.2 := ⟨1, rfl⟩

theorem Reaches.takeLink (s : Supply) : s.Reaches s.takeLink.2 := ⟨1, rfl⟩

theorem Gave.mono {s t t' : Supply} {u : Uuid} (h : s.Gave t u) (ht : t.Reaches t') :
    s.Gave t' u := by
  obtain ⟨i, hi, hit, hu⟩ := h
  exact ⟨i, hi, hit.trans_le ht.le, hu⟩

/-- A supply that counts upwards gives new identities as long as it meets none of those in use. -/
theorem countingFrom_fresh {seed n : Nat} {used : List Uuid} (hn : seed + n ≤ 2 ^ 122)
    (h : ∀ i < n, (countingFrom seed).draw i ∉ used) : (countingFrom seed).Fresh n used where
  distinct := fun _ _ _ hij hj => countingFrom_distinct hij (by omega)
  unused := fun i _ hi => h i hi

/-- An identity still to come has not come before. -/
theorem Fresh.not_gave {s t : Supply} {n : Nat} {used : List Uuid} (h : s.Fresh n used) {i : Nat}
    (hi : t.next ≤ i) (hin : i < n) : ¬s.Gave t (s.draw i) := by
  rintro ⟨j, hj, hjt, heq⟩
  exact h.distinct j i hj (hjt.trans_le hi) hin heq.symm

/-- An identity used elsewhere does not come. -/
theorem Fresh.not_gave_used {s t : Supply} {n : Nat} {used : List Uuid} (h : s.Fresh n used)
    (ht : t.next ≤ n) {u : Uuid} (hu : u ∈ used) : ¬s.Gave t u := by
  rintro ⟨i, hi, hit, rfl⟩
  exact h.unused i hi (hit.trans_le ht) hu

end Supply

end Patchbay
