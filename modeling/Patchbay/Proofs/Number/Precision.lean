import Mathlib
import Patchbay.Number.Single

/-!
# Single precision survives double precision

Documents hold single-precision numbers in double precision. A finite number comes back bit for bit
(`Single.narrow_widen`), and it is finite in between (`Single.isFinite_widen`), so it is written as a
number at all.

The bits of a number and its unpacked form determine each other as long as the unpacked form is
`Canonical`, that is, has the exponent that its format wants for its size. Both conversions shift a
canonical form by a power of two without losing a digit, and rounding puts such a shift back where it
was (`roundWithAccuracy_shiftLeft`).
-/

namespace Patchbay.Single

open Float.Model Float.Model.UnpackedFloat

/-! ## Canonical forms -/

/-- A mantissa and an exponent as a format wants them: the exponent is the one for the size of the
number, and it fits. -/
structure Canonical (spec : Format) (m : Nat) (e : Int) : Prop where
  pos : 0 < m
  target : spec.targetExponent (totalExponent m e) = e
  fits : e + spec.exponentBias + spec.mantissaBitsWithoutImplicit + 1 < 2 ^ spec.exponentBits

/-- Shifting a mantissa to the left adds to its logarithm. -/
theorem log2_shiftLeft {m : Nat} (hm : 0 < m) (k : Nat) : (m <<< k).log2 = m.log2 + k := by
  have hne : m ≠ 0 := Nat.pos_iff_ne_zero.mp hm
  rw [Nat.shiftLeft_eq, Nat.log2_eq_iff (by positivity)]
  obtain ⟨hlow, hhigh⟩ := (Nat.log2_eq_iff hne).mp rfl
  constructor
  · rw [Nat.pow_add]
    exact Nat.mul_le_mul_right _ hlow
  · rw [Nat.add_right_comm, Nat.pow_add]
    exact Nat.mul_lt_mul_of_pos_right hhigh (by positivity)

/-- Shifting a mantissa and its exponent against each other leaves the size of the number as it is. -/
theorem totalExponent_shiftLeft {m : Nat} (hm : 0 < m) (e : Int) (k : Nat) :
    totalExponent (m <<< k) (e - k) = totalExponent m e := by
  rw [totalExponent, totalExponent, log2_shiftLeft hm]
  push_cast
  ring

/-! ## Rounding -/

/-- What has been shifted to the left is shifted back without a remainder. -/
theorem shiftRight_shiftLeft (m k : Nat) :
    (⟨m <<< k, false, false⟩ : ExtendedMantissa) >>> k = ⟨m, false, false⟩ := by
  induction k with
  | zero => rfl
  | succ k ih =>
    have hstep : ∀ (em : ExtendedMantissa) (j : Nat), em >>> (j + 1) = em.shiftRightOne >>> j := by
      intro em j
      show (j + 1).repeat _ em = j.repeat _ em.shiftRightOne
      induction j with
      | zero => rfl
      | succ j ih => rw [Nat.repeat, ih]; rfl
    have hone : (⟨m <<< (k + 1), false, false⟩ : ExtendedMantissa).shiftRightOne =
        ⟨m <<< k, false, false⟩ := by
      simp [ExtendedMantissa.shiftRightOne, Nat.shiftLeft_succ]
    rw [hstep, hone, ih]

variable {spec : Format} {m : Nat} {e : Int}

/-- A canonical form that has been shifted to the left is shifted back to where it was. -/
theorem shiftToTarget_shiftLeft (hm : 0 < m)
    (htarget : spec.targetExponent (totalExponent m e) = e) (k : Nat) :
    shiftToTargetExponent spec (m <<< k) (e - k) .exact = (⟨m, false, false⟩, e) := by
  have hamount : (e - (e - k)).toNat = k := by omega
  simp only [shiftToTargetExponent, shiftToExponent, totalExponent_shiftLeft hm, htarget, hamount,
    ExtendedMantissa.ofMantissaAndAccuracy, shiftRight_shiftLeft, sub_add_cancel]

/-- **Rounding restores a canonical form** that has been shifted to the left. -/
theorem roundWithAccuracy_shiftLeft (s : Sign) (hm : 0 < m)
    (htarget : spec.targetExponent (totalExponent m e) = e) (k : Nat) :
    roundWithAccuracy spec s (m <<< k) (e - k) .exact = .finite s m e hm := by
  have hagain := shiftToTarget_shiftLeft hm htarget 0
  simp only [Nat.shiftLeft_zero, Nat.cast_zero, sub_zero] at hagain
  have hround : (⟨m, false, false⟩ : ExtendedMantissa).roundedMantissa = m := rfl
  simp only [roundWithAccuracy, shiftToTarget_shiftLeft hm htarget k, hround, hagain]
  rw [dif_neg (Nat.pos_iff_ne_zero.mp hm)]

/-- Rounding to a format that has room for all digits appends zeros to the mantissa. -/
theorem round_of_le (s : Sign) (hm : 0 < m) (hroom : spec.targetExponent (totalExponent m e) ≤ e) :
    ∃ k : Nat, ∃ hpos, spec.targetExponent (totalExponent m e) = e - k ∧
      UnpackedFloat.round spec s m e = .finite s (m <<< k) (e - k) hpos := by
  set k := (e - spec.targetExponent (totalExponent m e)).toNat with hk
  have htarget : spec.targetExponent (totalExponent m e) = e - k := by omega
  have hpos : 0 < m <<< k := by rw [Nat.shiftLeft_eq]; positivity
  refine ⟨k, hpos, htarget, ?_⟩
  have hcanonical : spec.targetExponent (totalExponent (m <<< k) (e - k)) = e - k := by
    rw [totalExponent_shiftLeft hm, htarget]
  have hround := roundWithAccuracy_shiftLeft s hpos hcanonical 0
  simp only [Nat.shiftLeft_zero, Nat.cast_zero, sub_zero] at hround
  rw [UnpackedFloat.round, ← hround]
  simp only [decreaseExponent, ← hk]

/-- Rounding takes away zeros that have been appended to the mantissa of a canonical form. -/
theorem round_shiftLeft (s : Sign) (hm : 0 < m)
    (htarget : spec.targetExponent (totalExponent m e) = e) (k : Nat) :
    UnpackedFloat.round spec s (m <<< k) (e - k) = .finite s m e hm := by
  have hamount : (e - k - e).toNat = 0 := by omega
  simp only [UnpackedFloat.round, decreaseExponent, totalExponent_shiftLeft hm, htarget, hamount,
    Nat.shiftLeft_zero, Nat.cast_zero, sub_zero]
  exact roundWithAccuracy_shiftLeft s hm htarget k

/-! ## Bits and unpacked forms -/

/-- A sign is one bit. -/
theorem toBitVec_ofBitVec (b : BitVec 1) : (Sign.ofBitVec b).toBitVec = b := by
  revert b
  decide

/-- A pattern is made of its three parts. -/
theorem packComponents_unpack (b : BitVec spec.numBits) :
    packComponents spec (Sign.ofBitVec (unpackSign b)) (unpackExponent b) (unpackMantissa b) = b := by
  have hm := spec.hm
  have he := spec.he
  rw [packComponents, toBitVec_ofBitVec]
  refine BitVec.eq_of_getLsbD_eq fun i hi => ?_
  simp only [BitVec.getLsbD_append, unpackSign, unpackExponent, unpackMantissa, BitVec.getLsbD_cast,
    BitVec.getLsbD_extractLsb]
  split_ifs with hmantissa hexponent
  · simp
    omega
  · rw [Nat.add_sub_cancel' (by omega)]
    simp
    omega
  · have hplace : spec.mantissaBitsWithoutImplicit + spec.exponentBits +
        (i - spec.mantissaBitsWithoutImplicit - spec.exponentBits) = i := by omega
    rw [hplace]
    simp
    omega

@[simp] theorem unpackSign_packComponents (s : Sign) (x : BitVec spec.exponentBits)
    (v : BitVec spec.mantissaBitsWithoutImplicit) :
    Sign.ofBitVec (unpackSign (packComponents spec s x v)) = s := by
  have hbit : unpackSign (packComponents spec s x v) = s.toBitVec := by
    refine BitVec.eq_of_getLsbD_eq fun i hi => ?_
    obtain rfl : i = 0 := by omega
    simp [unpackSign, packComponents, BitVec.getLsbD_append, BitVec.getElem_append]
  rw [hbit]
  cases s <;> rfl

/-- The smallest exponent is the one that subnormal numbers have. -/
theorem minExponent_eq (spec : Format) :
    spec.minExponent = 1 - (spec.exponentBias + spec.mantissaBitsWithoutImplicit : Int) := by
  have hpos : 0 < 2 ^ (spec.exponentBits - 1) := by positivity
  have hcast : ((2 : Int) ^ (spec.exponentBits - 1)) = (2 ^ (spec.exponentBits - 1) : Nat) := by
    push_cast
    rfl
  rw [Format.minExponent, Format.exponentBias, Format.mantissaBits, hcast]
  omega

/-- An exponent of all ones is the largest there is. -/
theorem ne_neg_one_iff {n : Nat} {x : BitVec n} : x ≠ -1#n ↔ x.toNat + 1 < 2 ^ n := by
  have hlt := x.isLt
  rw [BitVec.neg_one_eq_allOnes, Ne, ← BitVec.toNat_inj, BitVec.toNat_allOnes]
  omega

theorem ne_zero_iff {n : Nat} {x : BitVec n} : x ≠ 0#n ↔ 0 < x.toNat := by
  rw [Ne, ← BitVec.toNat_inj, BitVec.toNat_zero]
  omega

theorem finite_congr {s : Sign} {m' : Nat} {e' : Int} (hm : m = m') (he : e = e') (hpos : 0 < m) :
    UnpackedFloat.finite s m e hpos = .finite s m' e' (hm ▸ hpos) := by
  subst hm he
  rfl

/-- What a pattern stands for, by its exponent and mantissa. -/
theorem unpack_cases (b : BitVec spec.numBits) :
    let s := Sign.ofBitVec (unpackSign b)
    let x := unpackExponent b
    let v := unpackMantissa b
    x = -1#_ ∧ v = 0#_ ∧ UnpackedFloat.unpack spec b = .infinity s ∨
    x = -1#_ ∧ v ≠ 0#_ ∧ UnpackedFloat.unpack spec b = .notANumber ∨
    x = 0#_ ∧ v = 0#_ ∧ UnpackedFloat.unpack spec b = .zero s ∨
    x = 0#_ ∧ v ≠ 0#_ ∧
      (∃ hpos, UnpackedFloat.unpack spec b = .finite s v.toNat spec.minExponent hpos) ∨
    x ≠ -1#_ ∧ x ≠ 0#_ ∧ ∃ hpos, UnpackedFloat.unpack spec b =
      .finite s (2 ^ spec.mantissaBitsWithoutImplicit + v.toNat)
        (x.toNat - (spec.exponentBias + spec.mantissaBitsWithoutImplicit)) hpos := by
  intro s x v
  by_cases hx : x = -1#_
  · by_cases hv : v = 0#_
    · exact Or.inl ⟨hx, hv, by rw [UnpackedFloat.unpack, if_pos hx, if_pos hv]⟩
    · exact Or.inr (Or.inl ⟨hx, hv, by rw [UnpackedFloat.unpack, if_pos hx, if_neg hv]⟩)
  by_cases hx0 : x = 0#_
  · by_cases hv : v = 0#_
    · refine Or.inr (Or.inr (Or.inl ⟨hx0, hv, ?_⟩))
      rw [UnpackedFloat.unpack, if_neg hx, if_pos hx0, dif_pos hv]
    · refine Or.inr (Or.inr (Or.inr (Or.inl ⟨hx0, hv, ?_⟩)))
      have hzero : (unpackExponent b).toNat = 0 := by
        rw [show unpackExponent b = 0#_ from hx0]
        rfl
      have hexponent : ((unpackExponent b).toNat : Int) -
          (spec.exponentBias + spec.mantissaBitsWithoutImplicit) + 1 = spec.minExponent := by
        rw [minExponent_eq, hzero]
        push_cast
        ring
      rw [UnpackedFloat.unpack, if_neg hx, if_pos hx0, dif_neg hv]
      exact ⟨_, finite_congr rfl hexponent _⟩
  · refine Or.inr (Or.inr (Or.inr (Or.inr ⟨hx, hx0, ?_⟩)))
    -- a normal number has a digit more than are written
    have hmantissa : (1#1 ++ v).toNat = 2 ^ spec.mantissaBitsWithoutImplicit + v.toNat := by
      rw [BitVec.toNat_append, ← Nat.shiftLeft_add_eq_or_of_lt v.isLt, Nat.shiftLeft_eq]
      simp
    rw [UnpackedFloat.unpack, if_neg hx, if_neg hx0]
    exact ⟨_, finite_congr hmantissa rfl _⟩

/-! ### Subnormal and normal numbers -/

section Subnormal

variable {v : Nat} (hpos : 0 < v) (hv : v < 2 ^ spec.mantissaBitsWithoutImplicit)
include hpos hv

theorem log2_subnormal : v.log2 < spec.mantissaBitsWithoutImplicit :=
  (Nat.log2_lt (by omega)).mpr hv

variable (hbits : 2 ≤ spec.exponentBits)
include hbits

theorem canonical_subnormal : Canonical spec v spec.minExponent where
  pos := hpos
  target := by
    have hlog := log2_subnormal hpos hv
    rw [Format.targetExponent, totalExponent, Format.mantissaBits]
    omega
  fits := by
    have hpow : 2 ^ 2 ≤ 2 ^ spec.exponentBits := Nat.pow_le_pow_right (by decide) hbits
    have hcast : (4 : Int) ≤ 2 ^ spec.exponentBits := by exact_mod_cast hpow
    rw [minExponent_eq]
    omega

theorem pack_subnormal (s : Sign) : UnpackedFloat.pack spec (.finite s v spec.minExponent hpos) =
    packComponents spec s 0#_ (BitVec.ofNat _ v) := by
  have hpow : 2 ^ 2 ≤ 2 ^ spec.exponentBits := Nat.pow_le_pow_right (by decide) hbits
  have hlog := log2_subnormal hpos hv
  have hbiased : (spec.minExponent + spec.exponentBias + spec.mantissaBitsWithoutImplicit).toNat
      = 1 := by
    rw [minExponent_eq]
    omega
  simp only [UnpackedFloat.pack, hbiased, Format.mantissaBits]
  rw [if_neg (by omega), if_neg (by omega)]

omit hbits in
theorem unpack_subnormal (s : Sign) :
    UnpackedFloat.unpack spec (packComponents spec s 0#_ (BitVec.ofNat _ v)) =
      .finite s v spec.minExponent hpos := by
  have hmantissa : (BitVec.ofNat spec.mantissaBitsWithoutImplicit v).toNat = v :=
    Nat.mod_eq_of_lt hv
  have hzero : (0#(spec.exponentBits)) ≠ -1#_ := by
    have hpow : 2 ^ 1 ≤ 2 ^ spec.exponentBits := Nat.pow_le_pow_right (by decide) spec.he
    rw [ne_neg_one_iff, BitVec.toNat_zero]
    omega
  have hcases := unpack_cases (packComponents spec s 0#_ (BitVec.ofNat _ v))
  simp only [unpackExponent_packComponents, unpackMantissa_packComponents,
    unpackSign_packComponents] at hcases
  rcases hcases with ⟨h, -⟩ | ⟨h, -⟩ | ⟨-, h, -⟩ | ⟨-, -, hp, heq⟩ | ⟨-, h, -⟩
  · exact absurd h hzero
  · exact absurd h hzero
  · exact absurd h (ne_zero_iff.mpr (hmantissa.symm ▸ hpos))
  · rw [heq]
    exact finite_congr hmantissa rfl _
  · exact absurd rfl h

end Subnormal

section Normal

variable {v x : Nat} (hv : v < 2 ^ spec.mantissaBitsWithoutImplicit)
  (hfits : x + 1 < 2 ^ spec.exponentBits)
include hv

theorem log2_normal :
    (2 ^ spec.mantissaBitsWithoutImplicit + v).log2 = spec.mantissaBitsWithoutImplicit := by
  rw [Nat.log2_eq_iff (by omega)]
  omega

include hfits

theorem canonical_normal (hx : 0 < x) :
    Canonical spec (2 ^ spec.mantissaBitsWithoutImplicit + v)
      (x - (spec.exponentBias + spec.mantissaBitsWithoutImplicit)) where
  pos := by positivity
  target := by
    have hmin := minExponent_eq spec
    rw [Format.targetExponent, totalExponent, Format.mantissaBits, log2_normal hv]
    omega
  fits := by
    have hcast : (x : Int) + 1 < 2 ^ spec.exponentBits := by exact_mod_cast hfits
    omega

theorem pack_normal (s : Sign) (hpos : 0 < 2 ^ spec.mantissaBitsWithoutImplicit + v) :
    UnpackedFloat.pack spec (.finite s (2 ^ spec.mantissaBitsWithoutImplicit + v)
        (x - (spec.exponentBias + spec.mantissaBitsWithoutImplicit)) hpos) =
      packComponents spec s (BitVec.ofNat _ x) (BitVec.ofNat _ v) := by
  have hbiased : ((x - (spec.exponentBias + spec.mantissaBitsWithoutImplicit) : Int) +
      spec.exponentBias + spec.mantissaBitsWithoutImplicit).toNat = x := by omega
  have hmantissa : BitVec.ofNat spec.mantissaBitsWithoutImplicit
      (2 ^ spec.mantissaBitsWithoutImplicit + v) = BitVec.ofNat _ v := by
    apply BitVec.eq_of_toNat_eq
    simp
  simp only [UnpackedFloat.pack, hbiased, Format.mantissaBits, log2_normal hv, hmantissa]
  rw [if_neg (by omega), if_pos (by omega)]

theorem unpack_normal (s : Sign) (hx : 0 < x)
    (hpos : 0 < 2 ^ spec.mantissaBitsWithoutImplicit + v) :
    UnpackedFloat.unpack spec (packComponents spec s (BitVec.ofNat _ x) (BitVec.ofNat _ v)) =
      .finite s (2 ^ spec.mantissaBitsWithoutImplicit + v)
        (x - (spec.exponentBias + spec.mantissaBitsWithoutImplicit)) hpos := by
  have hexponent : (BitVec.ofNat spec.exponentBits x).toNat = x := Nat.mod_eq_of_lt (by omega)
  have hmantissa : (BitVec.ofNat spec.mantissaBitsWithoutImplicit v).toNat = v :=
    Nat.mod_eq_of_lt hv
  have htop : BitVec.ofNat spec.exponentBits x ≠ -1#_ :=
    ne_neg_one_iff.mpr (hexponent.symm ▸ hfits)
  have hne : BitVec.ofNat spec.exponentBits x ≠ 0#_ := ne_zero_iff.mpr (hexponent.symm ▸ hx)
  have hcases := unpack_cases (packComponents spec s (BitVec.ofNat _ x) (BitVec.ofNat _ v))
  simp only [unpackExponent_packComponents, unpackMantissa_packComponents,
    unpackSign_packComponents] at hcases
  rcases hcases with ⟨h, -⟩ | ⟨h, -⟩ | ⟨h, -⟩ | ⟨h, -⟩ | ⟨-, -, hp, heq⟩
  · exact absurd h htop
  · exact absurd h htop
  · exact absurd h hne
  · exact absurd h hne
  · rw [heq]
    exact finite_congr (by rw [hmantissa]) (by rw [hexponent]) _

end Normal

/-- A canonical form is subnormal or normal. -/
theorem Canonical.cases (h : Canonical spec m e) :
    m < 2 ^ spec.mantissaBitsWithoutImplicit ∧ e = spec.minExponent ∨
    ∃ v x : Nat, v < 2 ^ spec.mantissaBitsWithoutImplicit ∧ 0 < x ∧ x + 1 < 2 ^ spec.exponentBits ∧
      m = 2 ^ spec.mantissaBitsWithoutImplicit + v ∧
      e = x - (spec.exponentBias + spec.mantissaBitsWithoutImplicit) := by
  have hne : m ≠ 0 := Nat.pos_iff_ne_zero.mp h.pos
  have htarget := h.target
  rw [Format.targetExponent, totalExponent, Format.mantissaBits] at htarget
  by_cases hm : m < 2 ^ spec.mantissaBitsWithoutImplicit
  · have hlog := log2_subnormal h.pos hm
    exact Or.inl ⟨hm, by omega⟩
  · have hlow : spec.mantissaBitsWithoutImplicit ≤ m.log2 := (Nat.le_log2 hne).mpr (by omega)
    have hhigh : m < 2 ^ (spec.mantissaBitsWithoutImplicit + 1) := (Nat.log2_lt hne).mp (by omega)
    have hmin := minExponent_eq spec
    have hfits := h.fits
    have hcast : ((2 : Int) ^ spec.exponentBits) = (2 ^ spec.exponentBits : Nat) := by
      push_cast
      rfl
    rw [hcast] at hfits
    rw [Nat.pow_succ] at hhigh
    refine Or.inr ⟨m - 2 ^ spec.mantissaBitsWithoutImplicit,
      (e + spec.exponentBias + spec.mantissaBitsWithoutImplicit).toNat, ?_, ?_, ?_, ?_, ?_⟩
    all_goals omega

section Formats

variable (hbits : 2 ≤ spec.exponentBits)
include hbits

/-- What is read from a pattern is in canonical form, and its mantissa is no longer than the format
allows. -/
theorem canonical_unpack {b : BitVec spec.numBits} {s : Sign} {hpos : 0 < m}
    (h : UnpackedFloat.unpack spec b = .finite s m e hpos) :
    Canonical spec m e ∧ m < 2 ^ spec.mantissaBits := by
  have hv := (unpackMantissa b).isLt
  have hpow : 2 ^ spec.mantissaBits = 2 * 2 ^ spec.mantissaBitsWithoutImplicit := by
    rw [Format.mantissaBits, Nat.pow_add]
  rcases unpack_cases b with ⟨-, -, hb⟩ | ⟨-, -, hb⟩ | ⟨-, -, hb⟩ | ⟨-, hne, hp, hb⟩ |
    ⟨htop, hne, hp, hb⟩
  · cases h.symm.trans hb
  · cases h.symm.trans hb
  · cases h.symm.trans hb
  · cases h.symm.trans hb
    exact ⟨canonical_subnormal hpos hv hbits, by omega⟩
  · cases h.symm.trans hb
    exact ⟨canonical_normal hv (ne_neg_one_iff.mp htop) (ne_zero_iff.mp hne), by omega⟩

/-- **Packing what has been unpacked** gives the pattern back. -/
theorem pack_unpack {b : BitVec spec.numBits} (hb : spec.Valid b) :
    UnpackedFloat.pack spec (UnpackedFloat.unpack spec b) = b := by
  have hv := (unpackMantissa b).isLt
  have hparts := packComponents_unpack b
  rcases unpack_cases b with ⟨hx, hv0, heq⟩ | ⟨hx, hv0, heq⟩ | ⟨hx, hv0, heq⟩ |
    ⟨hx, hv0, hpos, heq⟩ | ⟨htop, hne, hpos, heq⟩
  · rw [hx, hv0] at hparts
    rw [heq]
    exact hparts
  · rw [heq]
    exact (hb.eq_packedNaN hx hv0).symm
  · rw [hx, hv0] at hparts
    rw [heq]
    exact hparts
  · rw [heq, pack_subnormal hpos hv hbits, BitVec.ofNat_toNat, BitVec.setWidth_eq, ← hx]
    exact hparts
  · rw [heq, pack_normal hv (ne_neg_one_iff.mp htop), BitVec.ofNat_toNat, BitVec.setWidth_eq,
      BitVec.ofNat_toNat, BitVec.setWidth_eq]
    exact hparts

/-- **Unpacking what has been packed** gives a canonical form back. -/
theorem unpack_pack (h : Canonical spec m e) (s : Sign) :
    UnpackedFloat.unpack spec (UnpackedFloat.pack spec (.finite s m e h.pos)) =
      .finite s m e h.pos := by
  rcases h.cases with ⟨hm, rfl⟩ | ⟨v, x, hv, hx, hfits, rfl, rfl⟩
  · rw [pack_subnormal h.pos hm hbits, unpack_subnormal h.pos hm]
  · rw [pack_normal hv hfits, unpack_normal hv hfits s hx]

end Formats

/-! ## There and back -/

/-- A single-precision number is finite if its unpacked form is. -/
theorem isFinite_eq (x : Float32) : x.isFinite = (unpack x).isFinite := rfl

/-- The bits of a single-precision number make the number. -/
theorem ofBits_toBits (x : Float32) : Float32.ofBits ⟨x.toBits.toBitVec⟩ = x := by
  obtain ⟨⟨bits, hvalid⟩⟩ := x
  have hbits : UnpackedFloat.pack Format.binary32
      (UnpackedFloat.unpack Format.binary32 bits.toBitVec) = bits.toBitVec :=
    pack_unpack (by decide) hvalid
  simp only [Float32.ofBits, Float32.Model.ofBits, Float32.Model.pack, Float32.toBits, hbits]

/-- Double-precision numbers are unpacked to what their bits stand for. -/
theorem unpackDouble_ofBits {b : BitVec 64} (hb : Format.binary64.Valid b) :
    unpackDouble (Float.ofBits ⟨b⟩) = UnpackedFloat.unpack Format.binary64 b := by
  have hbits : UnpackedFloat.pack Format.binary64 (UnpackedFloat.unpack Format.binary64 b) = b :=
    pack_unpack (by decide) hb
  show UnpackedFloat.unpack Format.binary64 (UnpackedFloat.pack Format.binary64
    (UnpackedFloat.unpack Format.binary64 b)) = _
  rw [hbits]

theorem unpackDouble_widen_zero {x : Float32} {s : Sign} (h : unpack x = .zero s) :
    unpackDouble (widen x) = .zero s := by
  simp only [widen, h, packDouble]
  rw [unpackDouble_ofBits valid_pack]
  cases s <;> rfl

/-- In double precision, zeros are appended to the mantissa of a number. -/
theorem unpackDouble_widen {x : Float32} {s : Sign} {hpos : 0 < m}
    (h : unpack x = .finite s m e hpos) :
    ∃ (k : Nat) (hpos' : 0 < m <<< k),
      unpackDouble (widen x) = .finite s (m <<< k) (e - k) hpos' := by
  have hread : UnpackedFloat.unpack Format.binary32 x.toBits.toBitVec = .finite s m e hpos := h
  obtain ⟨hcanonical, hlt⟩ := canonical_unpack (by decide) hread
  have htarget := hcanonical.target
  have hfits := hcanonical.fits
  have hlog : m.log2 < 24 := (Nat.log2_lt (Nat.pos_iff_ne_zero.mp hpos)).mpr hlt
  simp only [Format.targetExponent, totalExponent, minExponent_eq, Format.mantissaBits,
    Format.exponentBias] at htarget hfits
  norm_num at htarget hfits
  -- double precision has room for more digits and for smaller and larger exponents
  have hroom : Format.binary64.targetExponent (totalExponent m e) ≤ e := by
    simp only [Format.targetExponent, totalExponent, minExponent_eq, Format.mantissaBits,
      Format.exponentBias]
    norm_num
    omega
  obtain ⟨k, hpos', hk, hround⟩ := round_of_le s hpos hroom
  have hcanonical' : Canonical Format.binary64 (m <<< k) (e - k) := by
    refine ⟨hpos', by rw [totalExponent_shiftLeft hpos, hk], ?_⟩
    simp only [Format.targetExponent, totalExponent, minExponent_eq, Format.mantissaBits,
      Format.exponentBias] at hk ⊢
    norm_num at hk ⊢
    omega
  refine ⟨k, hpos', ?_⟩
  simp only [widen, h, packDouble, hround]
  rw [unpackDouble_ofBits valid_pack, unpack_pack (by decide) hcanonical']

/-- **Single precision survives double precision**, bit for bit. -/
theorem narrow_widen {x : Float32} (hx : x.isFinite = true) : narrow (widen x) = x := by
  have hbits : UnpackedFloat.pack Format.binary32 (unpack x) = x.toBits.toBitVec :=
    pack_unpack (by decide) x.toModel.valid
  rw [isFinite_eq] at hx
  cases hunpack : unpack x with
  | infinity s => simp [hunpack, UnpackedFloat.isFinite] at hx
  | notANumber => simp [hunpack, UnpackedFloat.isFinite] at hx
  | zero s =>
    rw [hunpack] at hbits
    simp only [narrow, unpackDouble_widen_zero hunpack, pack, hbits, ofBits_toBits]
  | finite s m e hpos =>
    obtain ⟨k, hpos', hdouble⟩ := unpackDouble_widen hunpack
    have hread : UnpackedFloat.unpack Format.binary32 x.toBits.toBitVec = .finite s m e hpos :=
      hunpack
    obtain ⟨hcanonical, -⟩ := canonical_unpack (by decide) hread
    rw [hunpack] at hbits
    rw [narrow, hdouble, pack, round_shiftLeft s hpos hcanonical.target k, hbits, ofBits_toBits]

/-- A finite number is finite in double precision. -/
theorem isFinite_widen {x : Float32} (hx : x.isFinite = true) : (widen x).isFinite = true := by
  show (unpackDouble (widen x)).isFinite = true
  rw [isFinite_eq] at hx
  cases hunpack : unpack x with
  | infinity s => simp [hunpack, UnpackedFloat.isFinite] at hx
  | notANumber => simp [hunpack, UnpackedFloat.isFinite] at hx
  | zero s =>
    rw [unpackDouble_widen_zero hunpack]
    rfl
  | finite s m e hpos =>
    obtain ⟨k, hpos', hdouble⟩ := unpackDouble_widen hunpack
    rw [hdouble]
    rfl

/-- A number that is not finite is not finite in double precision either. -/
theorem isFinite_widen_of_not {x : Float32} (hx : x.isFinite = false) :
    (widen x).isFinite = false := by
  show (unpackDouble (widen x)).isFinite = false
  rw [isFinite_eq] at hx
  cases hunpack : unpack x with
  | infinity s =>
    simp only [widen, hunpack, packDouble]
    rw [unpackDouble_ofBits valid_pack]
    cases s <;> rfl
  | notANumber =>
    simp only [widen, hunpack, packDouble]
    rw [unpackDouble_ofBits valid_pack]
    rfl
  | zero s => simp [hunpack, UnpackedFloat.isFinite] at hx
  | finite s m e hpos => simp [hunpack, UnpackedFloat.isFinite] at hx

end Patchbay.Single
