import Mathlib.Tactic
import Patchbay.Uuid

/-!
# Identifiers are read as they were written

Writing an identifier goes from the number to digits, and from digits to groups joined by hyphens;
each of the two steps has its inverse. Reading chooses between the accepted forms by their length,
and the written form is the only one with thirty-six characters.
-/

namespace Patchbay

/-! ## Digits -/

namespace Hex

/-- A digit has the value that it was made for. -/
theorem value?_digit {n : Nat} (h : n < 16) : value? (digit n) = some n := by
  interval_cases n <;> rfl

/-- One more digit at the end. -/
theorem number?_concat (cs : List Char) (c : Char) :
    number? (cs ++ [c]) = (number? cs).bind fun n => (value? c).map (16 * n + ·) := by
  simp [number?, List.foldlM_append]

end Hex

namespace Uuid

@[simp] theorem length_hexDigits (k n : Nat) : (hexDigits k n).length = k := by
  induction k generalizing n with
  | zero => rfl
  | succ k ih => rw [hexDigits, List.length_append, ih, List.length_singleton]

/-- So many digits give a number back up to what they leave out. -/
theorem number?_hexDigits (k n : Nat) : Hex.number? (hexDigits k n) = some (n % 16 ^ k) := by
  induction k generalizing n with
  | zero => simp [hexDigits, Hex.number?, Nat.mod_one]
  | succ k ih =>
    have hlow : n % 16 < 16 := Nat.mod_lt _ (by decide)
    have hsplit : 16 * (n / 16 % 16 ^ k) + n % 16 = n % 16 ^ (k + 1) := by
      rw [Nat.pow_succ', Nat.mod_mul]
      omega
    rw [hexDigits, Hex.number?_concat, ih, Hex.value?_digit hlow, Option.bind_some,
      Option.map_some, hsplit]

/-! ## Groups -/

theorem hyphenate_cons (k j : Nat) (ks : List Nat) (cs : List Char) :
    hyphenate (k :: j :: ks) cs = cs.take k ++ '-' :: hyphenate (j :: ks) (cs.drop k) := rfl

theorem dehyphenate_cons {k j : Nat} {ks : List Nat} {cs rest : List Char}
    (h : cs.drop k = '-' :: rest) :
    dehyphenate (k :: j :: ks) cs = (dehyphenate (j :: ks) rest).map (cs.take k ++ ·) := by
  simp only [dehyphenate, h]

/-- Each hyphen adds a character. -/
theorem length_hyphenate {k : Nat} {ks : List Nat} {cs : List Char}
    (h : cs.length = (k :: ks).sum) : (hyphenate (k :: ks) cs).length = cs.length + ks.length := by
  induction ks generalizing k cs with
  | nil => rfl
  | cons j ks ih =>
    have hdrop : (cs.drop k).length = (j :: ks).sum := by
      rw [List.length_drop, h, List.sum_cons, Nat.add_sub_cancel_left]
    have htake : (cs.take k).length + (cs.drop k).length = cs.length := by
      rw [← List.length_append, List.take_append_drop]
    rw [hyphenate_cons, List.length_append, List.length_cons, ih hdrop, List.length_cons]
    omega

/-- Groups that use up the digits can be joined and taken apart again. -/
theorem dehyphenate_hyphenate {k : Nat} {ks : List Nat} {cs : List Char}
    (h : cs.length = (k :: ks).sum) : dehyphenate (k :: ks) (hyphenate (k :: ks) cs) = some cs := by
  induction ks generalizing k cs with
  | nil => exact if_pos h
  | cons j ks ih =>
    have hdrop : (cs.drop k).length = (j :: ks).sum := by
      rw [List.length_drop, h, List.sum_cons, Nat.add_sub_cancel_left]
    have hlen : (cs.take k).length = k := by
      rw [List.length_take, Nat.min_eq_left]
      rw [h, List.sum_cons]
      exact Nat.le_add_right _ _
    rw [hyphenate_cons, dehyphenate_cons (List.drop_left' hlen), List.take_left' hlen, ih hdrop,
      Option.map_some, List.take_append_drop]

/-! ## Identifiers -/

/-- **Round trip of identifiers.** -/
theorem ofText?_toText (u : Uuid) : ofText? u.toText = some u := by
  set ds := hexDigits 32 u.bits.toNat with hds
  have hlen : ds.length = groupSizes.sum := length_hexDigits 32 _
  have hnumber : Hex.number? ds = some u.bits.toNat := by
    have hfits : u.bits.toNat < 16 ^ 32 := by
      have := u.bits.isLt
      norm_num at this ⊢
      exact this
    rw [hds, number?_hexDigits, Nat.mod_eq_of_lt hfits]
  have hdigits : ofDigits? ds = some u := by
    have hlen' : ds.length = 32 := hlen
    rw [ofDigits?, if_pos hlen', hnumber, Option.map_some, ofNat, BitVec.ofNat_toNat,
      BitVec.setWidth_eq]
  have hwritten : (hyphenate groupSizes ds).length = 36 := by
    rw [groupSizes, length_hyphenate hlen, hlen]
    rfl
  have hread : ofHyphenated? (hyphenate groupSizes ds) = some u := by
    rw [ofHyphenated?, groupSizes, dehyphenate_hyphenate hlen, Option.bind_some, hdigits]
  rw [ofText?, toText, String.toList_ofList, ofChars?, ← hds, if_neg (by omega), if_pos hwritten,
    hread]

end Uuid

end Patchbay
