import Patchbay.Proofs.Frame.Placing

/-!
# Copying a layer row by row

A layer is clipped to the canvas and what is left of it is copied row by row, with checked arithmetic and
within the buffers. **`Layer.paste?_eq`** says that a layer whose size fields describe its samples can be
copied onto every canvas that is not too large, whatever its offset, and that this comes to taking its samples
place by place.

A layer is seen where it covers the canvas, and this is what its windows say (`Layer.covers_iff`). What is left
after clipping lies within the canvas and within the layer, so all that is worked out from there on stays
small. A layer without pixels may have a width or height beyond the range of offsets; it is clipped away by
the other one.
-/

namespace Patchbay

/-! ## Checked arithmetic -/

namespace Checked

theorem toInt_max (a b : Int64) : (max a b).toInt = max a.toInt b.toInt := by
  show (if a ≤ b then b else a).toInt = _
  simp only [Int64.le_iff_toInt_le, max_def]
  split <;> rfl

theorem toInt_min (a b : Int64) : (min a b).toInt = min a.toInt b.toInt := by
  show (if a ≤ b then a else b).toInt = _
  simp only [Int64.le_iff_toInt_le, min_def]
  split <;> rfl

theorem size?_of_lt {n : Nat} (h : n < Frame.sizeLimit) : size? n = some n := if_pos h

theorem offset?_of_mem {n : Int} (h : -2 ^ 63 ≤ n) (h' : n < 2 ^ 63) : offset? n = some (.ofInt n) := by
  refine if_pos ⟨?_, ?_⟩
  · rwa [Int64.toInt_minValue]
  · rw [Int64.toInt_maxValue]
    omega

/-- An offset that is not negative is the same number as a size. -/
theorem toSize_eq {a : Int64} {n : Nat} (h : a.toInt = n) : toSize a = n := by
  have hnat : toSize a = a.toInt.toNat :=
    Int64.toNat_toUInt64_of_le (Int64.le_iff_toInt_le.mpr (h ▸ Int.natCast_nonneg n))
  rw [hnat, h, Int.toNat_natCast]

theorem toSize_ofInt {n : Nat} (h : n < 2 ^ 63) : toSize (.ofInt n) = n :=
  toSize_eq (Int64.toInt_ofInt_of_le (by omega) (by omega))

/-- A sum of offsets that is out of range is too large to matter where a smaller one is asked for. -/
theorem min_addClamped {a b c : Int64} (h : 0 ≤ b.toInt) :
    (min (addClamped a b) c).toInt = min (a.toInt + b.toInt) c.toInt := by
  have ha := a.le_toInt
  have hmin := Int64.toInt_minValue
  have hmax := Int64.toInt_maxValue
  have hc := c.toInt_lt
  rw [toInt_min, addClamped, Int64.ofIntClamp]
  split_ifs with hlow hhigh
  · rw [Int64.toInt_ofIntLE]
  · omega
  · omega

/-- The place of a pixel in a buffer that is not too large. -/
theorem place?_eq {width channels row column : Nat} (hchannels : 0 < channels)
    (h : (row * width + column) * channels < Frame.sizeLimit) :
    place? width channels row column = some ((row * width + column) * channels) := by
  have hpixel : row * width + column < Frame.sizeLimit :=
    (Nat.le_mul_of_pos_right _ hchannels).trans_lt h
  have hstart : row * width < Frame.sizeLimit := (Nat.le_add_right _ _).trans_lt hpixel
  simp [place?, size?_of_lt, hstart, hpixel, h]

section Overwrite

variable (source : Array Float32) (i : Nat) (target : Array Float32) (j count : Nat)

@[simp] theorem size_overwrite : (overwrite source i target j count).size = target.size := by
  induction count with
  | zero => rfl
  | succ count ih => simpa [overwrite] using ih

theorem overwrite_succ : overwrite source i target j (count + 1) =
    (overwrite source i target j count).setIfInBounds (j + count) (source.getD (i + count) 0) := by
  rw [overwrite, Nat.fold_succ]
  rfl

/-- Samples of the source are found where they have been copied to, and those of the target elsewhere. -/
theorem getElem?_overwrite (hsource : i + count ≤ source.size) (htarget : j + count ≤ target.size)
    (k : Nat) : (overwrite source i target j count)[k]? =
      if j ≤ k ∧ k < j + count then source[i + (k - j)]? else target[k]? := by
  induction count with
  | zero => simp [overwrite]
  | succ count ih =>
    rw [overwrite_succ, Array.getElem?_setIfInBounds, size_overwrite, ih (by omega) (by omega)]
    rcases lt_trichotomy k (j + count) with hlt | rfl | hgt
    · rw [if_neg (by omega)]
      exact if_congr (by omega) rfl rfl
    · have hin : i + count < source.size := by omega
      rw [if_pos rfl, if_pos (by omega), if_pos (by omega), Nat.add_sub_cancel_left,
        Array.getElem?_eq_getElem hin, Array.getD_eq_getD_getElem?, Array.getElem?_eq_getElem hin,
        Option.getD_some]
    · rw [if_neg (by omega), if_neg (by omega), if_neg (by omega)]

theorem overwrite?_eq (hsource : i + count ≤ source.size) (htarget : j + count ≤ target.size)
    (hsmall : source.size < Frame.sizeLimit) (hsmall' : target.size < Frame.sizeLimit) :
    overwrite? source i target j count = some (overwrite source i target j count) := by
  simp [overwrite?, size?_of_lt, hsource.trans_lt hsmall, htarget.trans_lt hsmall', hsource, htarget]

end Overwrite

end Checked

/-! ## Stretches of a row -/

/-- The samples of some columns of a row, among all places of a buffer. -/
theorem stretch_iff {width channels first last row x y c : Nat} (hlast : last ≤ width) (hx : x < width)
    (hc : c < channels) :
    ((row * width + first) * channels ≤ (y * width + x) * channels + c ∧
        (y * width + x) * channels + c < (row * width + last) * channels) ↔
      y = row ∧ first ≤ x ∧ x < last := by
  have hpos : 0 < channels := Nat.zero_lt_of_lt hc
  have hpixel : ∀ a b : Nat, a * channels ≤ b * channels + c ↔ a ≤ b := by
    intro a b
    constructor
    · intro h
      by_contra hlt
      have hsucc := Nat.mul_le_mul_right channels (Nat.succ_le_of_lt (not_le.mp hlt))
      rw [Nat.succ_mul] at hsucc
      omega
    · exact fun h => (Nat.mul_le_mul_right _ h).trans (Nat.le_add_right _ _)
  rw [hpixel, ← not_le, hpixel, not_le]
  constructor
  · rintro ⟨hfirst, hafter⟩
    have hrow : ∀ a b : Nat, a * width < b * width + width → a ≤ b := fun a b h =>
      Nat.lt_succ_iff.mp (Nat.lt_of_mul_lt_mul_right (a := width) (by rwa [Nat.succ_mul]))
    obtain rfl : y = row := le_antisymm (hrow y row (by omega)) (hrow row y (by omega))
    omega
  · rintro ⟨rfl, hfirst, hafter⟩
    omega

/-- A place in a stretch of a row is counted from its beginning. -/
theorem stretch_sub {width channels first row x c : Nat} (hfirst : first ≤ x) (start : Nat) :
    start * channels + ((row * width + x) * channels + c - (row * width + first) * channels) =
      (start + (x - first)) * channels + c := by
  obtain ⟨k, rfl⟩ := Nat.exists_eq_add_of_le hfirst
  have hsplit : (row * width + (first + k)) * channels + c =
      (row * width + first) * channels + (k * channels + c) := by ring
  rw [hsplit, Nat.add_sub_cancel_left, Nat.add_sub_cancel_left]
  ring

/-- A stretch of a row ends within the buffer. -/
theorem stretch_le {width height channels first last row : Nat} (hrow : row < height)
    (hfirst : first ≤ last) (hlast : last ≤ width) :
    (row * width + first) * channels + (last - first) * channels ≤ width * height * channels := by
  have hend : row * width + first + (last - first) ≤ width * height := by
    have hnext := Nat.mul_le_mul_right width (Nat.succ_le_of_lt hrow)
    rw [Nat.succ_mul, Nat.mul_comm height] at hnext
    omega
  rw [← Nat.add_mul]
  exact Nat.mul_le_mul_right _ hend

/-! ## Clipping -/

/-- A buffer for a canvas that has samples and not too many. -/
structure IsCanvas (width height channels : Nat) (canvas : Array Float32) : Prop where
  size : canvas.size = width * height * channels
  pos : 0 < canvas.size
  le : canvas.size ≤ Frame.maxSamples

theorem maxSamples_lt : Frame.maxSamples < 2 ^ 63 ∧ Frame.maxSamples < Frame.sizeLimit := by
  decide

/-- The factors of a product that is not zero are not larger. -/
theorem factors_le {a b c n : Nat} (hpos : 0 < a * b * c) (hle : a * b * c ≤ n) :
    a ≤ n ∧ b ≤ n ∧ 0 < c := by
  obtain ⟨⟨ha, hb⟩, hc⟩ : (0 < a ∧ 0 < b) ∧ 0 < c := by
    simpa only [Nat.pos_iff_ne_zero, Nat.mul_ne_zero_iff] using hpos
  have hab : a * b ≤ n := (Nat.le_mul_of_pos_right _ hc).trans hle
  exact ⟨(Nat.le_mul_of_pos_right _ hb).trans hab, (Nat.le_mul_of_pos_left _ ha).trans hab, hc⟩

namespace IsCanvas

variable {width height channels : Nat} {canvas : Array Float32} (h : IsCanvas width height channels canvas)
include h

theorem bounds : width ≤ Frame.maxSamples ∧ height ≤ Frame.maxSamples ∧ 0 < channels :=
  factors_le (h.size ▸ h.pos) (h.size ▸ h.le)

/-- Another buffer of the same size. -/
theorem of_size {canvas' : Array Float32} (hsize : canvas'.size = canvas.size) :
    IsCanvas width height channels canvas' := by
  constructor <;> rw [hsize]
  exacts [h.size, h.pos, h.le]

theorem getElem?_eq {x y c : Nat} (hx : x < width) (hy : y < height) (hc : c < channels) :
    canvas[(y * width + x) * channels + c]? =
      some (canvas.getD ((y * width + x) * channels + c) 0) := by
  have hlt : (y * width + x) * channels + c < canvas.size := by
    rw [h.size, Nat.mul_comm width]
    exact place_lt (place_lt hy hx) hc
  rw [Array.getD_eq_getD_getElem?, Array.getElem?_eq_getElem hlt, Option.getD_some]

/-- Canvases that look the same are the same. -/
theorem ext {canvas' : Array Float32} (hsize : canvas'.size = canvas.size)
    (heq : ∀ x y c, x < width → y < height → c < channels →
      canvas'[(y * width + x) * channels + c]? = canvas[(y * width + x) * channels + c]?) :
    canvas' = canvas := by
  refine Array.ext_getElem? fun i => ?_
  by_cases hi : i < canvas.size
  · obtain ⟨x, y, c, hx, hy, hc, rfl⟩ := exists_place (h.size ▸ hi)
    exact heq x y c hx hy hc
  · rw [Array.getElem?_eq_none (by omega), Array.getElem?_eq_none (by omega)]

end IsCanvas

namespace Layer

/-- Where a layer is seen along one side of the canvas. -/
theorem window_spec (offset : Int64) {extent canvas : Nat} (hextent : extent < 2 ^ 63)
    (hcanvas : canvas < 2 ^ 63) :
    (window offset extent canvas).1.toInt = max offset.toInt 0 ∧
      (window offset extent canvas).2.toInt = min (offset.toInt + extent) canvas := by
  have he := Int64.toInt_ofNat_of_lt hextent
  have hc := Int64.toInt_ofNat_of_lt hcanvas
  refine ⟨Checked.toInt_max _ _, ?_⟩
  rw [window, Checked.min_addClamped (by omega), he, hc]

/-- A layer that has no extent along one side of the canvas is not seen. -/
theorem window_zero (offset : Int64) {extent canvas : Nat} (hextent : extent = 0)
    (hcanvas : canvas < 2 ^ 63) :
    (window offset extent canvas).2 ≤ (window offset extent canvas).1 := by
  rw [Int64.le_iff_toInt_le]
  obtain ⟨hfirst, hlast⟩ := window_spec offset (show extent < 2 ^ 63 by omega) hcanvas
  omega

variable {l : Layer} {width height channels : Nat} {canvas : Array Float32}

/-- A layer covers what its windows show. -/
theorem covers_iff (hframe : l.frame.width < 2 ^ 63 ∧ l.frame.height < 2 ^ 63)
    (hcanvas : width < 2 ^ 63 ∧ height < 2 ^ 63) {x y : Nat} (hx : x < width) (hy : y < height) :
    l.Covers x y ↔
      ((window l.dx l.frame.width width).1.toInt ≤ x ∧ x < (window l.dx l.frame.width width).2.toInt) ∧
      ((window l.dy l.frame.height height).1.toInt ≤ y ∧
        y < (window l.dy l.frame.height height).2.toInt) := by
  obtain ⟨hx0, hx1⟩ := window_spec l.dx hframe.1 hcanvas.1
  obtain ⟨hy0, hy1⟩ := window_spec l.dy hframe.2 hcanvas.2
  simp only [Covers, offset]
  omega

/-! ## Copying -/

section Windows

variable {x0 x1 y0 y1 : Int64} (hx : window l.dx l.frame.width width = (x0, x1))
  (hy : window l.dy l.frame.height height = (y0, y1))
include hx hy

theorem paste?_of_hidden (h : x1 ≤ x0 ∨ y1 ≤ y0) :
    l.paste? width height channels canvas = some canvas := by
  rw [paste?, hx, hy]
  exact if_pos h

theorem paste?_of_not_hidden (h : ¬ (x1 ≤ x0 ∨ y1 ≤ y0)) :
    l.paste? width height channels canvas = (do
      let columns ← Checked.offset? (x1.toInt - x0.toInt)
      let count ← Checked.size? (Checked.toSize columns * channels)
      (List.range (y1.toInt - y0.toInt).toNat).foldlM
        (fun canvas k => l.copyRow? width channels x0 count canvas (y0 + .ofNat k)) canvas) := by
  rw [paste?, hx, hy]
  exact if_neg h

end Windows

/-- A layer that covers nothing of the canvas leaves it as it is. -/
theorem paste_of_not_covers (hchannels : l.frame.channels = channels)
    (hcanvas : IsCanvas width height channels canvas)
    (hcovers : ∀ x y, x < width → y < height → ¬ l.Covers x y) :
    l.paste width channels canvas = canvas := by
  refine hcanvas.ext Array.size_mapIdx fun x y c hx hy hc => ?_
  rw [l.getElem?_paste hchannels hx hc, sample?_of_not_covers (hcovers x y hx hy)]
  exact Option.map_id'

section Copying

variable (hl : l.frame.isConsistent = true) (hchannels : l.frame.channels = channels)
  (hcanvas : IsCanvas width height channels canvas)
include hl hchannels hcanvas

/-- **A row is copied** if the stretch is on the layer and on the canvas. -/
theorem copyRow?_spec {x y : Int64} {first last row : Nat} (hfirst : x.toInt = first)
    (hrow : y.toInt = row) (hlt : first < last) (hwidth : last ≤ width) (hheight : row < height)
    (hcovers : ∀ k, first ≤ k → k < last → l.Covers k row) :
    ∃ next, l.copyRow? width channels x ((last - first) * channels) canvas y = some next ∧
      next.size = canvas.size ∧ ∀ k m c, k < width → c < channels →
        next[(m * width + k) * channels + c]? =
          if m = row ∧ first ≤ k ∧ k < last then l.sample? k m c
          else canvas[(m * width + k) * channels + c]? := by
  obtain ⟨hdx, hdy⟩ : l.offset.1 = l.dx.toInt ∧ l.offset.2 = l.dy.toInt := ⟨rfl, rfl⟩
  obtain ⟨hsmall, hlimit⟩ := maxSamples_lt
  have hpos : 0 < channels := hcanvas.bounds.2.2
  -- the row and the column of the layer where the stretch begins
  obtain ⟨column, hcolumn⟩ : ∃ column : Nat, (first : Int) - l.dx.toInt = column :=
    ⟨_, (Int.toNat_of_nonneg (hcovers first le_rfl hlt).1).symm⟩
  obtain ⟨line, hline⟩ : ∃ line : Nat, (row : Int) - l.dy.toInt = line :=
    ⟨_, (Int.toNat_of_nonneg (hcovers first le_rfl hlt).2.2.1).symm⟩
  have hlast := hcovers (last - 1) (by omega) (by omega)
  simp only [Layer.Covers, hdx, hdy] at hlast
  have hspan : 0 < (last - first) * channels := Nat.mul_pos (by omega) hpos
  have hsource : (line * l.frame.width + column) * channels + (last - first) * channels ≤
      l.frame.samples.size := by
    have hend : (line * l.frame.width + column) * channels +
        (column + (last - first) - column) * channels ≤ l.frame.width * l.frame.height * channels :=
      stretch_le (by omega) (by omega) (by omega)
    rwa [Frame.size_samples hl, hchannels, ← Nat.add_sub_cancel_left (n := column) (m := last - first)]
  have htarget : (row * width + first) * channels + (last - first) * channels ≤ canvas.size :=
    hcanvas.size ▸ stretch_le hheight hlt.le hwidth
  have hcount := Frame.size_samples_le hl
  have hcount' := hcanvas.le
  obtain ⟨hwide, hhigh, -⟩ : l.frame.width ≤ Frame.maxSamples ∧ l.frame.height ≤ Frame.maxSamples ∧ _ :=
    factors_le (c := l.frame.channels) (by rw [← Frame.size_samples hl]; omega)
      (by rwa [← Frame.size_samples hl])
  refine ⟨Checked.overwrite l.frame.samples ((line * l.frame.width + column) * channels) canvas
    ((row * width + first) * channels) ((last - first) * channels), ?_,
    Checked.size_overwrite .., fun k m c hk hc => ?_⟩
  · rw [copyRow?, hrow, hfirst, hline, hcolumn, Checked.offset?_of_mem (by omega) (by omega),
      Checked.offset?_of_mem (by omega) (by omega), Checked.toSize_eq hrow, Checked.toSize_eq hfirst]
    simp only [Option.bind_eq_bind, Option.bind_some]
    rw [Checked.toSize_ofInt (by omega), Checked.toSize_ofInt (by omega),
      Checked.place?_eq hpos (by omega), Checked.place?_eq hpos (by omega)]
    exact Checked.overwrite?_eq _ _ _ _ _ hsource htarget (by omega) (by omega)
  · rw [Checked.getElem?_overwrite _ _ _ _ _ hsource htarget]
    have hend : (row * width + first) * channels + (last - first) * channels =
        (row * width + last) * channels := by
      rw [← Nat.add_mul]
      congr 1
      omega
    rw [hend]
    refine (if_congr (stretch_iff hwidth hk hc) rfl rfl).trans ?_
    split_ifs with hin
    · obtain ⟨rfl, hle, hbefore⟩ := hin
      have hcolumn' : ((k : Int) - l.dx.toInt).toNat = column + (k - first) := by omega
      have hline' : ((m : Int) - l.dy.toInt).toNat = line := by omega
      rw [stretch_sub hle, sample?_of_covers (hcovers k hle hbefore) (hchannels ▸ hc), hdx, hdy,
        hchannels, hcolumn', hline', Nat.add_assoc]
    · rfl

/-- **The rows are copied** one after the other if all of them are on the layer and on the canvas. -/
theorem copyRows?_spec {x y : Int64} {first last top : Nat} (hfirst : x.toInt = first)
    (htop : y.toInt = top) (hlt : first < last) (hwidth : last ≤ width) (n : Nat)
    (hheight : top + n ≤ height)
    (hcovers : ∀ m k, top ≤ m → m < top + n → first ≤ k → k < last → l.Covers k m) :
    ∃ next, (List.range n).foldlM (fun canvas k =>
        l.copyRow? width channels x ((last - first) * channels) canvas (y + .ofNat k)) canvas =
          some next ∧
      next.size = canvas.size ∧ ∀ k m c, k < width → c < channels →
        next[(m * width + k) * channels + c]? =
          if (top ≤ m ∧ m < top + n) ∧ first ≤ k ∧ k < last then l.sample? k m c
          else canvas[(m * width + k) * channels + c]? := by
  induction n with
  | zero => exact ⟨canvas, rfl, rfl, fun k m c _ _ => (if_neg (by omega)).symm⟩
  | succ n ih =>
    obtain ⟨next, hnext, hsize, hsample⟩ := ih (by omega) fun m k hm hm' =>
      hcovers m k hm (by omega)
    have hrow : (y + .ofNat n).toInt = ((top + n : Nat) : Int) := by
      have hbound := hcanvas.bounds.2.1.trans_lt maxSamples_lt.1
      rw [Int64.toInt_add, Int64.toInt_ofNat_of_lt (by omega), htop, Int.bmod_eq_of_le (by omega)
        (by omega), Nat.cast_add]
    obtain ⟨next', hnext', hsize', hsample'⟩ := l.copyRow?_spec hl hchannels (hcanvas.of_size hsize)
      hfirst hrow hlt hwidth (by omega) fun k hk hk' => hcovers _ k (by omega) (by omega) hk hk'
    refine ⟨next', ?_, hsize'.trans hsize, fun k m c hk hc => ?_⟩
    · rw [List.range_succ, List.foldlM_append, hnext]
      simpa using hnext'
    · rw [hsample' k m c hk hc, hsample k m c hk hc]
      by_cases hnew : m = top + n
      · subst hnew
        rw [if_neg (c := (top ≤ top + n ∧ top + n < top + n) ∧ _) (by omega)]
        exact if_congr (by omega) rfl rfl
      · rw [if_neg (c := m = top + n ∧ _) (by omega)]
        exact if_congr (by omega) rfl rfl

/-- A layer that is seen in some columns and rows of the canvas is copied there. -/
theorem paste?_of_seen {x0 x1 y0 y1 : Int64} {first last top bottom : Nat}
    (hx : window l.dx l.frame.width width = (x0, x1))
    (hy : window l.dy l.frame.height height = (y0, y1))
    (hfirst : x0.toInt = first) (hlast : x1.toInt = last) (htop : y0.toInt = top)
    (hbottom : y1.toInt = bottom)
    (hcolumns : first < last ∧ last ≤ width) (hrows : top < bottom ∧ bottom ≤ height)
    (hcovers : ∀ x y, x < width → y < height →
      (l.Covers x y ↔ (first ≤ x ∧ x < last) ∧ top ≤ y ∧ y < bottom)) :
    l.paste? width height channels canvas = some (l.paste width channels canvas) := by
  obtain ⟨hsmall, hlimit⟩ := maxSamples_lt
  obtain ⟨hwidth, -, hpos⟩ := hcanvas.bounds
  have hcount : (last - first) * channels < Frame.sizeLimit := by
    have hend : (top * width + first) * channels + (last - first) * channels ≤ canvas.size :=
      hcanvas.size ▸ stretch_le (by omega) hcolumns.1.le hcolumns.2
    have hle := hcanvas.le
    omega
  obtain ⟨next, hnext, hsize, hsample⟩ := l.copyRows?_spec hl hchannels hcanvas hfirst htop
    hcolumns.1 hcolumns.2 (bottom - top) (by omega) fun m k hm hm' hk hk' =>
      (hcovers k m (by omega) (by omega)).mpr (by omega)
  have hpaste : next = l.paste width channels canvas := by
    refine (hcanvas.of_size (size_paste ..)).ext (by rw [hsize, size_paste]) fun x y c hx hy hc => ?_
    rw [hsample x y c hx hc, l.getElem?_paste hchannels hx hc]
    by_cases hover : l.Covers x y
    · obtain ⟨v, hv⟩ := l.exists_sample?_of_covers hl hover (hchannels ▸ hc)
      have hin := (hcovers x y hx hy).mp hover
      rw [if_pos (by omega), hcanvas.getElem?_eq hx hy hc, hv]
      rfl
    · have hout := mt (hcovers x y hx hy).mpr hover
      rw [sample?_of_not_covers hover, if_neg (by omega)]
      exact Option.map_id'.symm
  have hseen : ¬ (x1 ≤ x0 ∨ y1 ≤ y0) := by
    simp only [Int64.le_iff_toInt_le]
    omega
  have hspan : Checked.offset? (x1.toInt - x0.toInt) = some (.ofInt (last - first : Nat)) := by
    rw [Checked.offset?_of_mem (by omega) (by omega), hlast, hfirst, Nat.cast_sub hcolumns.1.le]
  have hlines : (y1.toInt - y0.toInt).toNat = bottom - top := by omega
  rw [paste?_of_not_hidden hx hy hseen, hspan, hlines, ← hpaste, ← hnext]
  simp only [Option.bind_eq_bind, Option.bind_some]
  rw [Checked.toSize_ofInt (by omega), Checked.size?_of_lt hcount, Option.bind_some]

/-- **Copying a layer** comes to taking its samples place by place. -/
theorem paste?_eq : l.paste? width height channels canvas = some (l.paste width channels canvas) := by
  obtain ⟨hsmall, -⟩ := maxSamples_lt
  obtain ⟨hwidth, hheight, hpos⟩ := hcanvas.bounds
  have hborder : width < 2 ^ 63 ∧ height < 2 ^ 63 := by omega
  obtain ⟨⟨x0, x1⟩, hx⟩ : ∃ w, window l.dx l.frame.width width = w := ⟨_, rfl⟩
  obtain ⟨⟨y0, y1⟩, hy⟩ : ∃ w, window l.dy l.frame.height height = w := ⟨_, rfl⟩
  by_cases hempty : l.frame.width = 0 ∨ l.frame.height = 0
  · -- one of the extents may be beyond the range of offsets, but the other one is zero
    have hhidden : x1 ≤ x0 ∨ y1 ≤ y0 :=
      hempty.imp (fun h => by simpa only [hx] using window_zero l.dx h hborder.1)
        (fun h => by simpa only [hy] using window_zero l.dy h hborder.2)
    rw [paste?_of_hidden hx hy hhidden, paste_of_not_covers hchannels hcanvas]
    intro x y _ _ hcovers
    simp only [Covers] at hcovers
    omega
  have hsize := Frame.size_samples hl
  obtain ⟨hwide, hhigh, -⟩ : l.frame.width ≤ Frame.maxSamples ∧
      l.frame.height ≤ Frame.maxSamples ∧ _ :=
    factors_le (c := l.frame.channels)
      (Nat.mul_pos (Nat.mul_pos (by omega) (by omega)) (hchannels ▸ hpos))
      (hsize ▸ Frame.size_samples_le hl)
  have hframe : l.frame.width < 2 ^ 63 ∧ l.frame.height < 2 ^ 63 := by omega
  obtain ⟨hx0, hx1⟩ := window_spec l.dx hframe.1 hborder.1
  obtain ⟨hy0, hy1⟩ := window_spec l.dy hframe.2 hborder.2
  have hcovers := fun x y => l.covers_iff hframe hborder (x := x) (y := y)
  simp only [hx, hy] at hx0 hx1 hy0 hy1 hcovers
  by_cases hhidden : x1 ≤ x0 ∨ y1 ≤ y0
  · rw [paste?_of_hidden hx hy hhidden, paste_of_not_covers hchannels hcanvas]
    intro x y hx hy hover
    have hshown := (hcovers x y hx hy).mp hover
    simp only [Int64.le_iff_toInt_le] at hhidden
    omega
  · simp only [Int64.le_iff_toInt_le, not_or, not_le] at hhidden
    have hnat : ∀ n : Int, 0 ≤ n → ∃ m : Nat, n = m := fun n hn => ⟨_, (Int.toNat_of_nonneg hn).symm⟩
    obtain ⟨first, hfirst⟩ := hnat x0.toInt (by omega)
    obtain ⟨last, hlast⟩ := hnat x1.toInt (by omega)
    obtain ⟨top, htop⟩ := hnat y0.toInt (by omega)
    obtain ⟨bottom, hbottom⟩ := hnat y1.toInt (by omega)
    refine paste?_of_seen hl hchannels hcanvas hx hy hfirst hlast htop hbottom (by omega) (by omega)
      fun x y hx hy => (hcovers x y hx hy).trans ?_
    omega

end Copying

/-- Copying layers one after the other. -/
theorem foldlM_paste? (layers : List Layer) (hlayers : ∀ l ∈ layers, l.frame.isConsistent = true)
    (hchannels : ∀ l ∈ layers, l.frame.channels = channels)
    (hcanvas : IsCanvas width height channels canvas) :
    layers.foldlM (paste? width height channels) canvas =
      some (layers.foldl (paste width channels) canvas) := by
  induction layers generalizing canvas with
  | nil => rfl
  | cons l layers ih =>
    rw [List.foldlM_cons, paste?_eq (hlayers l List.mem_cons_self) (hchannels l List.mem_cons_self)
      hcanvas]
    exact ih (fun k hk => hlayers k (List.mem_cons_of_mem _ hk))
      (fun k hk => hchannels k (List.mem_cons_of_mem _ hk)) (hcanvas.of_size (size_paste ..))

end Layer

end Patchbay
