import Mathlib.Tactic
import Patchbay.Frame.Composite

/-!
# Pixels and places in a buffer

Compositing works on buffers; what is meant are pictures. Pixels and places in the buffer correspond as long
as the size fields of a frame describe its buffer (`Frame.exists_sample?`, `Frame.samples_eq`).

`Frame.placed?` is the sample that a frame has over a place of the canvas when it is put at an offset, worked
out over the integers. `Layer.paste` takes the samples of a layer over those of a canvas place by place, and
`Layer.getElem?_foldl_paste` says what is seen after several layers.
-/

namespace Patchbay

/-! ## Places in a buffer -/

/-- Places in a row of `n` places each are counted below the number of all places. -/
theorem place_lt {m n i j : Nat} (hi : i < m) (hj : j < n) : i * n + j < m * n :=
  calc i * n + j < i * n + n := Nat.add_lt_add_left hj _
    _ = (i + 1) * n := by ring
    _ ≤ m * n := Nat.mul_le_mul_right _ hi

/-- A place is read back as its row and its place in the row. -/
theorem place_div_mod {n i j : Nat} (hj : j < n) : (i * n + j) / n = i ∧ (i * n + j) % n = j :=
  (Nat.div_mod_unique (Nat.zero_lt_of_lt hj)).mpr ⟨by ring, hj⟩

/-- What comes before the end of a buffer is a channel of a pixel. -/
theorem exists_place {width height channels i : Nat} (h : i < width * height * channels) :
    ∃ x y c, x < width ∧ y < height ∧ c < channels ∧ i = (y * width + x) * channels + c := by
  have hchannels : 0 < channels := Nat.pos_of_ne_zero (by rintro rfl; simp at h)
  have hpixel : i / channels < width * height := (Nat.div_lt_iff_lt_mul hchannels).mpr h
  have hwidth : 0 < width := Nat.pos_of_ne_zero (by rintro rfl; simp at hpixel)
  refine ⟨i / channels % width, i / channels / width, i % channels, Nat.mod_lt _ hwidth, ?_,
    Nat.mod_lt _ hchannels, ?_⟩
  · exact (Nat.div_lt_iff_lt_mul hwidth).mpr (Nat.mul_comm width height ▸ hpixel)
  · rw [Nat.div_add_mod', Nat.div_add_mod']

namespace Frame

theorem eq_of_sampleCount? {width height channels count : Nat}
    (h : sampleCount? width height channels = some count) : count = width * height * channels := by
  rw [sampleCount?] at h
  split_ifs at h
  exact (Option.some.inj h).symm

theorem le_of_sampleCount? {width height channels count : Nat}
    (h : sampleCount? width height channels = some count) : count ≤ maxSamples := by
  rw [sampleCount?] at h
  split_ifs at h with hfits
  exact Option.some.inj h ▸ hfits.2

/-- The size fields of a consistent frame describe its buffer. -/
theorem size_samples {f : Frame} (hf : f.isConsistent = true) :
    f.samples.size = f.width * f.height * f.channels :=
  eq_of_sampleCount? (beq_iff_eq.mp hf)

theorem size_samples_le {f : Frame} (hf : f.isConsistent = true) : f.samples.size ≤ maxSamples :=
  le_of_sampleCount? (beq_iff_eq.mp hf)

variable {f g : Frame} {x y c : Nat}

theorem sample?_of_lt (hx : x < f.width) (hy : y < f.height) (hc : c < f.channels) :
    f.sample? x y c = f.samples[(y * f.width + x) * f.channels + c]? :=
  if_pos ⟨hx, hy, hc⟩

/-- A frame has a sample nowhere but within its size. -/
theorem lt_of_sample? {v : Float32} (h : f.sample? x y c = some v) :
    x < f.width ∧ y < f.height ∧ c < f.channels := by
  rw [sample?] at h
  split_ifs at h with hlt
  exact hlt

/-- A consistent frame has a sample wherever its size fields say so. -/
theorem exists_sample? (hf : f.isConsistent = true) (hx : x < f.width) (hy : y < f.height)
    (hc : c < f.channels) : ∃ v, f.sample? x y c = some v := by
  have hlt : (y * f.width + x) * f.channels + c < f.samples.size := by
    rw [size_samples hf, Nat.mul_comm f.width]
    exact place_lt (place_lt hy hx) hc
  rw [sample?_of_lt hx hy hc]
  exact ⟨_, Array.getElem?_eq_getElem hlt⟩

/-- Consistent frames of one size that look the same have the same buffers. -/
theorem samples_eq (hf : f.isConsistent = true) (hg : g.isConsistent = true)
    (hwidth : f.width = g.width) (hheight : f.height = g.height) (hchannels : f.channels = g.channels)
    (h : ∀ x y c, x < g.width → y < g.height → c < g.channels → f.sample? x y c = g.sample? x y c) :
    f.samples = g.samples := by
  have hsize : f.samples.size = g.samples.size := by
    rw [size_samples hf, size_samples hg, hwidth, hheight, hchannels]
  refine Array.ext hsize fun i hi hi' => ?_
  have hi'' := hi'
  rw [size_samples hg] at hi''
  obtain ⟨x, y, c, hx, hy, hc, rfl⟩ := exists_place hi''
  have hsame := h x y c hx hy hc
  rw [sample?_of_lt (hwidth ▸ hx) (hheight ▸ hy) (hchannels ▸ hc), sample?_of_lt hx hy hc, hwidth,
    hchannels] at hsame
  rwa [Array.getElem?_eq_getElem hi, Array.getElem?_eq_getElem hi', Option.some.injEq] at hsame

/-- The sample that a frame has over channel `c` of the pixel in column `x` and row `y` of a canvas, if it
reaches there when its first pixel is put at `offset`. -/
def placed? (f : Frame) (offset : Int × Int) (x y c : Nat) : Option Float32 :=
  if 0 ≤ x - offset.1 ∧ 0 ≤ y - offset.2 then
    f.sample? (x - offset.1).toNat (y - offset.2).toNat c
  else none

/-- A frame that is not offset. -/
@[simp] theorem placed?_zero (f : Frame) (x y c : Nat) : f.placed? (0, 0) x y c = f.sample? x y c := by
  simp [placed?]

end Frame

/-! ## Layers -/

namespace Layer

/-- Where the first pixel of a layer is put. -/
def offset (l : Layer) : Int × Int := (l.dx.toInt, l.dy.toInt)

/-- The sample that a layer has over a place of the canvas, if it reaches there. -/
def sample? (l : Layer) (x y c : Nat) : Option Float32 := l.frame.placed? l.offset x y c

/-- The layer lies over the pixel in column `x` and row `y` of the canvas. -/
def Covers (l : Layer) (x y : Nat) : Prop :=
  0 ≤ (x : Int) - l.offset.1 ∧ (x : Int) - l.offset.1 < l.frame.width ∧
    0 ≤ (y : Int) - l.offset.2 ∧ (y : Int) - l.offset.2 < l.frame.height

instance (l : Layer) (x y : Nat) : Decidable (l.Covers x y) := inferInstanceAs (Decidable (_ ∧ _))

/-- A layer has no sample over a pixel that it does not cover. -/
theorem sample?_of_not_covers {l : Layer} {x y : Nat} (h : ¬ l.Covers x y) (c : Nat) :
    l.sample? x y c = none := by
  rw [sample?, Frame.placed?, Frame.sample?]
  split_ifs with hreach hin
  · exact absurd ⟨hreach.1, by omega, hreach.2, by omega⟩ h
  · rfl
  · rfl

/-- A layer has over a pixel that it covers what is at the corresponding place of its buffer. -/
theorem sample?_of_covers {l : Layer} {x y c : Nat} (h : l.Covers x y) (hc : c < l.frame.channels) :
    l.sample? x y c = l.frame.samples[(((y : Int) - l.offset.2).toNat * l.frame.width +
      ((x : Int) - l.offset.1).toNat) * l.frame.channels + c]? := by
  obtain ⟨hx, hwidth, hy, hheight⟩ := h
  rw [sample?, Frame.placed?, if_pos ⟨hx, hy⟩]
  exact Frame.sample?_of_lt (by omega) (by omega) hc

/-- A consistent layer has a sample over every pixel that it covers. -/
theorem exists_sample?_of_covers {l : Layer} (hl : l.frame.isConsistent = true) {x y c : Nat}
    (h : l.Covers x y) (hc : c < l.frame.channels) : ∃ v, l.sample? x y c = some v := by
  obtain ⟨hx, hwidth, hy, hheight⟩ := h
  rw [sample?, Frame.placed?, if_pos ⟨hx, hy⟩]
  exact Frame.exists_sample? hl (by omega) (by omega) hc

/-- The place in the buffer of the layer that lies under column `x`, row `y` and channel `c` of the
canvas, if the layer reaches there. -/
def index? (l : Layer) (x y c : Nat) : Option Nat :=
  let sx := Int.ofNat x - l.dx.toInt
  let sy := Int.ofNat y - l.dy.toInt
  if 0 ≤ sx ∧ sx < l.frame.width ∧ 0 ≤ sy ∧ sy < l.frame.height then
    some ((sy.toNat * l.frame.width + sx.toNat) * l.frame.channels + c)
  else none

/-- The samples of a canvas of the given width and channels, with those of the layer wherever it reaches. -/
def paste (width channels : Nat) (canvas : Array Float32) (l : Layer) : Array Float32 :=
  canvas.mapIdx fun i old =>
    let pixel := i / channels
    match l.index? (pixel % width) (pixel / width) (i % channels) with
    | some j => l.frame.samples[j]?.getD old
    | none => old

/-- A place in the buffer of a layer that lies under the canvas holds the sample that the layer has
there. -/
theorem index?_getD (l : Layer) {x y c : Nat} (hc : c < l.frame.channels) (old : Float32) :
    (match l.index? x y c with
      | some j => l.frame.samples[j]?.getD old
      | none => old) = (l.sample? x y c).getD old := by
  obtain ⟨hdx, hdy⟩ : l.offset.1 = l.dx.toInt ∧ l.offset.2 = l.dy.toInt := ⟨rfl, rfl⟩
  simp only [index?, sample?, Frame.placed?, Int.ofNat_eq_natCast]
  by_cases hreach : 0 ≤ (x : Int) - l.offset.1 ∧ 0 ≤ (y : Int) - l.offset.2
  · rw [if_pos hreach, Frame.sample?]
    by_cases hin : ((x : Int) - l.offset.1).toNat < l.frame.width ∧
        ((y : Int) - l.offset.2).toNat < l.frame.height
    · rw [if_pos (by omega), if_pos ⟨hin.1, hin.2, hc⟩, hdx, hdy]
    · rw [if_neg (by omega), if_neg (by omega)]
      rfl
  · rw [if_neg hreach, if_neg (by omega)]
    rfl

@[simp] theorem size_paste (width channels : Nat) (canvas : Array Float32) (l : Layer) :
    (l.paste width channels canvas).size = canvas.size :=
  Array.size_mapIdx

/-- **Drawing a layer** replaces the samples of the canvas where the layer reaches. -/
theorem getElem?_paste (l : Layer) {width channels x y c : Nat} (hchannels : l.frame.channels = channels)
    (hx : x < width) (hc : c < channels) (canvas : Array Float32) :
    (l.paste width channels canvas)[(y * width + x) * channels + c]? =
      canvas[(y * width + x) * channels + c]?.map (l.sample? x y c).getD := by
  obtain ⟨hpixel, hchannel⟩ := place_div_mod (i := y * width + x) hc
  obtain ⟨hrow, hcolumn⟩ := place_div_mod (i := y) hx
  rw [paste, Array.getElem?_mapIdx]
  refine congrArg (Option.map · _) (funext fun old => ?_)
  simp only [hpixel, hchannel, hcolumn, hrow]
  exact l.index?_getD (hchannels ▸ hc) old

/-- Drawing layers one after the other. The last one that reaches a place is seen there. -/
theorem getElem?_foldl_paste {width channels x y c : Nat} (hx : x < width) (hc : c < channels)
    (layers : List Layer) (hlayers : ∀ l ∈ layers, l.frame.channels = channels)
    (canvas : Array Float32) :
    (layers.foldl (paste width channels) canvas)[(y * width + x) * channels + c]? =
      canvas[(y * width + x) * channels + c]?.map
        (layers.reverse.findSome? (·.sample? x y c)).getD := by
  induction layers generalizing canvas with
  | nil => exact Option.map_id'.symm
  | cons l layers ih =>
    rw [List.foldl_cons, ih fun k hk => hlayers k (List.mem_cons_of_mem _ hk),
      l.getElem?_paste (hlayers l List.mem_cons_self) hx hc, Option.map_map]
    refine congrArg (Option.map · _) (funext fun old => ?_)
    rw [List.reverse_cons, List.findSome?_append, List.findSome?_singleton]
    cases layers.reverse.findSome? (·.sample? x y c) <;> rfl

/-- Drawing layers keeps the size of the canvas. -/
theorem size_foldl_paste (width channels : Nat) (layers : List Layer) (canvas : Array Float32) :
    (layers.foldl (paste width channels) canvas).size = canvas.size := by
  induction layers generalizing canvas with
  | nil => rfl
  | cons l layers ih => rw [List.foldl_cons, ih, size_paste]

end Layer

end Patchbay
