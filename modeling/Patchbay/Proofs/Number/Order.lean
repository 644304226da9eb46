import Mathlib

/-!
# The order of single-precision numbers

Comparison is false as soon as one side is not a number; otherwise it goes by sign, exponent and
mantissa. `Single.rank` puts these into one key of a linear order, and `Single.lt_iff` and
`Single.le_iff` say that comparing numbers is comparing their keys. So numbers are ordered like any
others as soon as it is known that they are numbers.
-/

namespace Patchbay.Single

open Float.Model Float.Model.UnpackedFloat

/-- Where an unpacked number stands: by its kind and sign first, then by its exponent, then by its
mantissa. -/
def rank : UnpackedFloat → ℤ ×ₗ ℤ ×ₗ ℤ
  | .infinity .negative => toLex (-2, toLex (0, 0))
  | .finite .negative m e _ => toLex (-1, toLex (-e, -m))
  | .zero _ | .notANumber => toLex (0, toLex (0, 0))
  | .finite .positive m e _ => toLex (1, toLex (e, m))
  | .infinity .positive => toLex (2, toLex (0, 0))

/-! ## Comparing keys -/

/-- Keys of one kind are compared by what follows. -/
theorem cmp_of_kind (k : ℤ) (x y : ℤ ×ₗ ℤ) : cmp (toLex (k, x)) (toLex (k, y)) = cmp x y := by
  simp [cmp, cmpUsing, Prod.Lex.toLex_lt_toLex]

/-- Comparing exponents and then mantissas. -/
theorem cmp_of_parts (e e' : ℤ) (m m' : ℕ) :
    cmp (toLex (e, (m : ℤ))) (toLex (e', (m' : ℤ))) = (compare e e').then (compare m m') := by
  rcases lt_trichotomy e e' with h | rfl | h
  · simp [cmp, cmpUsing, Prod.Lex.toLex_lt_toLex, compare_lt_iff_lt.mpr h, h]
  · rcases lt_trichotomy m m' with h | rfl | h
    · simp [cmp, cmpUsing, Prod.Lex.toLex_lt_toLex, compare_lt_iff_lt.mpr h, h]
    · simp [cmp, cmpUsing]
    · simp [cmp, cmpUsing, Prod.Lex.toLex_lt_toLex, compare_gt_iff_gt.mpr h, h, h.le]
  · simp [cmp, cmpUsing, Prod.Lex.toLex_lt_toLex, compare_gt_iff_gt.mpr h, h, h.ne', h.le]

/-- Of negative numbers, the one with the larger parts is the smaller. -/
theorem cmp_of_negated (a a' b b' : ℤ) :
    cmp (toLex (-a, -b)) (toLex (-a', -b')) = (cmp (toLex (a, b)) (toLex (a', b'))).swap := by
  rw [cmp_swap]
  simp [cmp, cmpUsing, Prod.Lex.toLex_lt_toLex, eq_comm]

/-- **Comparing unpacked numbers is comparing their ranks.** -/
theorem compare_eq {a b : UnpackedFloat} (ha : a.isNaN = false) (hb : b.isNaN = false) :
    UnpackedFloat.compare a b = some (cmp (rank a) (rank b)) := by
  rcases a with (_ | _) | _ | _ | ⟨_ | _, m, e, hm⟩
  case notANumber => cases ha
  all_goals rcases b with (_ | _) | _ | _ | ⟨_ | _, m', e', hm'⟩
  case finite.negative.finite.negative =>
    rw [rank, rank, cmp_of_kind, cmp_of_negated, cmp_of_parts]
    rfl
  case finite.positive.finite.positive =>
    rw [rank, rank, cmp_of_kind, cmp_of_parts]
    rfl
  all_goals first
    | rfl
    | cases hb

/-- What is not a number is neither less than, equal to nor greater than anything. -/
theorem compare_eq_none {a b : UnpackedFloat} (h : a.isNaN = true ∨ b.isNaN = true) :
    UnpackedFloat.compare a b = none := by
  rcases a with (_ | _) | _ | _ | ⟨_ | _, m, e, hm⟩ <;>
    rcases b with (_ | _) | _ | _ | ⟨_ | _, m', e', hm'⟩ <;>
    first
      | rfl
      | simp [UnpackedFloat.isNaN] at h

/-! ## Comparing numbers -/

theorem lt_iff {a b : Float32} : a < b ↔
    a.isNaN = false ∧ b.isNaN = false ∧ rank a.toModel.unpack < rank b.toModel.unpack := by
  have hcompare : a < b ↔
      (UnpackedFloat.compare a.toModel.unpack b.toModel.unpack == some .lt) = true :=
    decide_eq_true_iff
  rw [hcompare, Float32.isNaN, Float32.isNaN, Float32.Model.isNaN, Float32.Model.isNaN]
  cases ha : a.toModel.unpack.isNaN <;> cases hb : b.toModel.unpack.isNaN
  case false.false => simp [compare_eq ha hb]
  all_goals simp [compare_eq_none, ha, hb]

theorem le_iff {a b : Float32} : a ≤ b ↔
    a.isNaN = false ∧ b.isNaN = false ∧ rank a.toModel.unpack ≤ rank b.toModel.unpack := by
  have hcompare : a ≤ b ↔
      ((UnpackedFloat.compare a.toModel.unpack b.toModel.unpack).any fun o => o.isLE) = true :=
    decide_eq_true_iff
  rw [hcompare, Float32.isNaN, Float32.isNaN, Float32.Model.isNaN, Float32.Model.isNaN]
  cases ha : a.toModel.unpack.isNaN <;> cases hb : b.toModel.unpack.isNaN
  case false.false =>
    rw [compare_eq ha hb, Option.any_some, cmp_eq_compare, Ordering.isLE_iff_ne_gt]
    simp [compare_gt_iff_gt]
  all_goals simp [compare_eq_none, ha, hb]

variable {a b c : Float32}

theorem lt_trans (hab : a < b) (hbc : b < c) : a < c := by
  rw [lt_iff] at *
  exact ⟨hab.1, hbc.2.1, hab.2.2.trans hbc.2.2⟩

theorem lt_of_lt_of_le (hab : a < b) (hbc : b ≤ c) : a < c := by
  rw [lt_iff, le_iff] at *
  exact ⟨hab.1, hbc.2.1, hab.2.2.trans_le hbc.2.2⟩

/-- Two numbers are less or greater one way or the other. -/
theorem le_of_not_lt (ha : a.isNaN = false) (hb : b.isNaN = false) (h : ¬ a < b) : b ≤ a := by
  rw [lt_iff] at h
  rw [le_iff]
  exact ⟨hb, ha, not_lt.mp fun hlt => h ⟨ha, hb, hlt⟩⟩

end Patchbay.Single
