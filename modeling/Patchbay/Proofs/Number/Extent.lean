import Patchbay.Proofs.Number.Precision
import Patchbay.Transition

/-!
# Sizes in single precision

The offsets of a transition are products of its progress and the size of the canvas. At both ends of the
progress they are what they would be over the integers: multiplying by one changes nothing
(`Single.one_mul`), multiplying by zero gives nothing (`Single.toInt64_mul_of_zero`), and sizes up to
`2 ^ 24` have as many digits as single precision has room for (`Single.toInt64_ofInt`).
-/

namespace Patchbay

namespace Single

open Float.Model Float.Model.UnpackedFloat

/-! ## Unpacked numbers -/

/-- The bits of a number are those of its unpacked form. -/
theorem pack_bits (x : Float32) :
    UnpackedFloat.pack Format.binary32 (unpack x) = x.toBits.toBitVec :=
  pack_unpack (by decide) x.toModel.valid

/-- Numbers with the same unpacked form are the same. -/
theorem eq_of_unpack {x y : Float32} (h : unpack x = unpack y) : x = y := by
  rw [← ofBits_toBits x, ← ofBits_toBits y, ← pack_bits x, ← pack_bits y, h]

/-- Numbers are unpacked to what their bits stand for. -/
theorem unpack_ofBits {b : BitVec 32} (hb : Format.binary32.Valid b) :
    unpack (Float32.ofBits ⟨b⟩) = UnpackedFloat.unpack Format.binary32 b := by
  have hbits : UnpackedFloat.pack Format.binary32 (UnpackedFloat.unpack Format.binary32 b) = b :=
    pack_unpack (by decide) hb
  show UnpackedFloat.unpack Format.binary32 (UnpackedFloat.pack Format.binary32
    (UnpackedFloat.unpack Format.binary32 b)) = _
  rw [hbits]

theorem unpack_mul (x y : Float32) : unpack (x * y) =
    UnpackedFloat.unpack Format.binary32 (UnpackedFloat.pack Format.binary32
      (UnpackedFloat.mul Format.binary32 (unpack x) (unpack y))) := rfl

theorem unpack_sub (x y : Float32) : unpack (x - y) =
    UnpackedFloat.unpack Format.binary32 (UnpackedFloat.pack Format.binary32
      (UnpackedFloat.sub Format.binary32 (unpack x) (unpack y))) := rfl

theorem unpack_one : unpack 1 = .finite .positive (1 <<< 23) (-(23 : Nat)) (by decide) := rfl

/-- Equal numbers are compared as equal. -/
theorem compare_of_beq {x y : Float32} (h : (x == y) = true) :
    UnpackedFloat.compare (unpack x) (unpack y) = some .eq :=
  beq_iff_eq.mp h

/-- A number equal to zero is a zero of either sign. -/
theorem unpack_of_beq_zero {x : Float32} (h : (x == 0) = true) : ∃ s, unpack x = .zero s := by
  have hcompare : UnpackedFloat.compare (unpack x) (.zero .positive) = some .eq := compare_of_beq h
  cases hx : unpack x with
  | zero s => exact ⟨s, rfl⟩
  | notANumber => rw [hx] at hcompare; cases hcompare
  | infinity s => rw [hx] at hcompare; cases s <;> cases hcompare
  | finite s m e hm => rw [hx] at hcompare; cases s <;> cases hcompare

/-- A number equal to one is one. -/
theorem eq_one_of_beq {x : Float32} (h : (x == 1) = true) : x = 1 := by
  have hcompare : UnpackedFloat.compare (unpack x)
      (.finite .positive (1 <<< 23) (-(23 : Nat)) (by decide)) = some .eq := compare_of_beq h
  apply eq_of_unpack
  rw [unpack_one]
  cases hx : unpack x with
  | zero s => rw [hx] at hcompare; cases hcompare
  | notANumber => rw [hx] at hcompare; cases hcompare
  | infinity s => rw [hx] at hcompare; cases s <;> cases hcompare
  | finite s m e hm =>
    rw [hx] at hcompare
    cases s with
    | negative => cases hcompare
    | positive =>
      simp only [UnpackedFloat.compare, Option.some.injEq, Ordering.then_eq_eq,
        compare_eq_iff_eq] at hcompare
      obtain ⟨rfl, rfl⟩ := hcompare
      rfl

/-! ## Products with zero and one -/

/-- A product with zero is zero or not a number. -/
theorem mul_zero_cases (s : Sign) (u : UnpackedFloat) :
    UnpackedFloat.mul Format.binary32 (.zero s) u = .notANumber ∨
      ∃ s', UnpackedFloat.mul Format.binary32 (.zero s) u = .zero s' := by
  cases u with
  | notANumber => exact Or.inl rfl
  | infinity s' => exact Or.inl rfl
  | zero s' => exact Or.inr ⟨_, rfl⟩
  | finite s' m e hm => exact Or.inr ⟨_, rfl⟩

/-- **Multiplying by zero** gives nothing: the integer part of the product is zero. -/
theorem toInt64_mul_of_zero {x : Float32} (hx : (x == 0) = true) (y : Float32) :
    toInt64 (x * y) = 0 := by
  obtain ⟨s, hs⟩ := unpack_of_beq_zero hx
  rw [toInt64, unpack_mul, hs]
  rcases mul_zero_cases s (unpack y) with hmul | ⟨s', hmul⟩
  · rw [hmul]
    decide +kernel
  · rw [hmul]
    cases s' <;> decide +kernel

/-- What is left of one when a zero of either sign is taken away. -/
theorem one_sub_of_zero {x : Float32} (hx : (x == 0) = true) : 1 - x = 1 := by
  obtain ⟨s, hs⟩ := unpack_of_beq_zero hx
  apply eq_of_unpack
  rw [unpack_sub, hs]
  cases s <;> rfl

/-- **Multiplying by one** changes nothing. -/
theorem one_mul (x : Float32) : 1 * x = x := by
  have hmul : UnpackedFloat.mul Format.binary32 (unpack 1) (unpack x) = unpack x := by
    rw [unpack_one]
    cases hx : unpack x with
    | notANumber => rfl
    | infinity s => cases s <;> rfl
    | zero s => cases s <;> rfl
    | finite s m e hm =>
      obtain ⟨hcanonical, -⟩ := canonical_unpack (by decide) hx
      have hmantissa : 1 <<< 23 * m = m <<< 23 := by
        rw [Nat.shiftLeft_eq, Nat.shiftLeft_eq, Nat.one_mul, Nat.mul_comm]
      have hround := roundWithAccuracy_shiftLeft s hm hcanonical.target 23
      rw [← hmantissa, sub_eq_add_neg, add_comm e] at hround
      cases s <;> exact hround
  apply eq_of_unpack
  rw [unpack_mul, hmul, pack_bits]
  rfl

/-! ## Sizes -/

/-- Up to `2 ^ 24`, sizes are read back from their mantissas without a loss. -/
theorem toInt_round {n : Nat} (hn : 0 < n) (hsmall : n < 2 ^ 24) (low high : Int) :
    (UnpackedFloat.unpack Format.binary32 (UnpackedFloat.pack Format.binary32
      (UnpackedFloat.round Format.binary32 .positive n 0))).toInt low high = n := by
  have hlog : n.log2 < 24 := (Nat.log2_lt (Nat.pos_iff_ne_zero.mp hn)).mpr hsmall
  have hroom : Format.binary32.targetExponent (totalExponent n 0) ≤ 0 := by
    simp only [Format.targetExponent, totalExponent, minExponent_eq, Format.mantissaBits,
      Format.exponentBias]
    norm_num
    omega
  obtain ⟨k, hpos, hk, hround⟩ := round_of_le .positive hn hroom
  have hcanonical : Canonical Format.binary32 (n <<< k) (0 - k) := by
    refine ⟨hpos, by rw [totalExponent_shiftLeft hn, hk], ?_⟩
    simp only [Format.exponentBias]
    norm_num
    omega
  have hraise : (0 - (k : Int)).toNat = 0 := by omega
  have hshift : (0 - (0 - (k : Int))).toNat = k := by omega
  rw [hround, unpack_pack (by decide) hcanonical, UnpackedFloat.toInt, roundToInt]
  simp only [decreaseExponent, hraise, Nat.shiftLeft_zero, Nat.cast_zero, sub_zero, shiftToExponent,
    hshift, ExtendedMantissa.ofMantissaAndAccuracy, shiftRight_shiftLeft]
  rfl

/-- **Sizes up to `2 ^ 24`** are the same in single precision. -/
theorem toInt64_ofInt {n : Nat} (h : n ≤ 2 ^ 24) : (toInt64 (ofInt n)).toInt = n := by
  rcases Nat.eq_zero_or_pos n with rfl | hpos
  · decide +kernel
  rcases h.eq_or_lt with rfl | hlt
  · decide +kernel
  have hnormalize : UnpackedFloat.ofInt Format.binary32 n =
      UnpackedFloat.round Format.binary32 .positive n 0 := by
    rw [UnpackedFloat.ofInt, UnpackedFloat.normalize, compare_gt_iff_gt.mpr (by omega)]
    rfl
  rw [toInt64, ofInt, unpack_ofBits valid_pack, UnpackedFloat.toInt64, hnormalize,
    toInt_round hpos hlt, Int64.toInt_ofIntClamp]
  · rw [Int64.toInt_minValue]
    omega
  · rw [Int64.toInt_maxValue]
    omega

end Single

/-! ## Offsets at both ends -/

namespace Move

variable {pos : Float32} {extent : Nat}

/-- At zero the first picture has not been pushed. -/
theorem lead_zero (hpos : (pos == 0) = true) (extent : Nat) : (lead pos extent).toInt = 0 := by
  rw [lead, Single.toInt64_mul_of_zero hpos]
  rfl

/-- At zero the second picture has all the way to come. -/
theorem trail_zero (hpos : (pos == 0) = true) (h : extent ≤ 2 ^ 24) :
    (trail pos extent).toInt = extent := by
  rw [trail, Single.one_sub_of_zero hpos, Single.one_mul]
  exact Single.toInt64_ofInt h

/-- At one the first picture has been pushed all the way. -/
theorem lead_one (hpos : (pos == 1) = true) (h : extent ≤ 2 ^ 24) :
    (lead pos extent).toInt = extent := by
  rw [lead, Single.eq_one_of_beq hpos, Single.one_mul]
  exact Single.toInt64_ofInt h

/-- At one the second picture has come. -/
theorem trail_one (hpos : (pos == 1) = true) (extent : Nat) : (trail pos extent).toInt = 0 := by
  rw [trail, Single.eq_one_of_beq hpos, Single.toInt64_mul_of_zero (by decide +kernel)]
  rfl

end Move

end Patchbay
