import Patchbay.Frame.Picture
import Patchbay.Proofs.Frame.Placing
import Patchbay.Proofs.Run.Once

/-!
# What test pictures show

A ramp is made by a loop over the rows, in each row over the pixels and in each pixel over the channels, while
`Frame.sample?` finds a sample by counting places. The loops put chunks of one size one after the other, so
the place of an element is read off its chunk (`getElem?_fold_append`), once for the pixels of a row and once
for the rows of a picture. `Picture.sample?_render` says what a picture shows at each of its places.

**`Node.execute_picture`** says what a picture source makes of a size, whichever it is.
-/

namespace Patchbay

open Patchbay.Action RunM

/-! ## Loops that append chunks -/

section Chunks

variable {α : Type} (chunk : Nat → Array α)

/-- What a loop appends does not depend on what is there already. -/
theorem fold_append (n : Nat) (start : Array α) :
    n.fold (fun i _ a => a ++ chunk i) start = start ++ n.fold (fun i _ a => a ++ chunk i) #[] := by
  induction n with
  | zero => simp
  | succ n ih => rw [Nat.fold_succ, Nat.fold_succ, ih, Array.append_assoc]

variable {chunk} {k : Nat} (hsize : ∀ i, (chunk i).size = k)
include hsize

theorem size_fold_append (n : Nat) : (n.fold (fun i _ a => a ++ chunk i) #[]).size = n * k := by
  induction n with
  | zero => simp
  | succ n ih => rw [Nat.fold_succ, Array.size_append, ih, hsize, Nat.succ_mul]

/-- The elements of chunk `i` come after `i` chunks. -/
theorem getElem?_fold_append {n i j : Nat} (hi : i < n) (hj : j < k) :
    (n.fold (fun i _ a => a ++ chunk i) #[])[i * k + j]? = (chunk i)[j]? := by
  induction n with
  | zero => exact absurd hi (Nat.not_lt_zero i)
  | succ n ih =>
    rw [Nat.fold_succ]
    rcases Nat.lt_succ_iff_lt_or_eq.mp hi with hlt | rfl
    · have hbefore : i * k + j < (n.fold (fun i _ a => a ++ chunk i) #[]).size := by
        rw [size_fold_append hsize]
        exact place_lt hlt hj
      rw [Array.getElem?_append_left hbefore, ih hlt]
    · have hafter : (i.fold (fun i _ a => a ++ chunk i) #[]).size ≤ i * k + j := by
        rw [size_fold_append hsize]
        exact Nat.le_add_right _ _
      rw [Array.getElem?_append_right hafter, size_fold_append hsize, Nat.add_sub_cancel_left]

end Chunks

namespace Frame

variable {width height channels : Nat}

theorem ofSamples_eq {samples : Array Float32}
    (h : sampleCount? width height channels = some samples.size) :
    ofSamples width height channels samples =
      { width, height, channels, elementType := .float32, device := .cpu
        timeStamp := 0, rate := (0, 1), flags := 0, samples } :=
  if_pos h

end Frame

/-! ## The samples of a picture -/

namespace Picture

variable {p : Picture} {count : Nat}

/-- The samples of one pixel in column `x`. -/
def pixel (p : Picture) (x : Nat) : Array Float32 := Array.replicate p.channels (ramp p.width x * p.fill)

/-- The samples of one row. -/
def row (p : Picture) : Array Float32 := p.width.fold (fun x _ samples => samples ++ p.pixel x) #[]

theorem size_pixel (x : Nat) : (p.pixel x).size = p.channels := Array.size_replicate

theorem size_row : p.row.size = p.width * p.channels := size_fold_append size_pixel p.width

theorem getElem?_row {x c : Nat} (hx : x < p.width) (hc : c < p.channels) :
    p.row[x * p.channels + c]? = some (ramp p.width x * p.fill) := by
  rw [row, getElem?_fold_append size_pixel hx hc, pixel, Array.getElem?_replicate, if_pos hc]

/-- The loops put one row after the other. -/
theorem rampSamples_eq (h : Frame.sampleCount? p.width p.height p.channels = some count) :
    p.rampSamples count = p.height.fold (fun _ _ samples => samples ++ p.row) #[] := by
  rw [rampSamples]
  split_ifs with hzero
  · refine (Array.eq_empty_of_size_eq_zero ?_).symm
    rw [size_fold_append (fun _ => size_row), ← hzero, Frame.eq_of_sampleCount? h]
    ring
  · rw [Array.emptyWithCapacity_eq]
    congr 1
    funext _ _ samples
    exact fold_append p.pixel p.width samples

theorem size_rampSamples (h : Frame.sampleCount? p.width p.height p.channels = some count) :
    (p.rampSamples count).size = count := by
  rw [rampSamples_eq h, size_fold_append (fun _ => size_row), Frame.eq_of_sampleCount? h]
  ring

/-- The place that a frame gives to a sample is where the loops have put it. -/
theorem getElem?_rampSamples (h : Frame.sampleCount? p.width p.height p.channels = some count) {x y c : Nat}
    (hx : x < p.width) (hy : y < p.height) (hc : c < p.channels) :
    (p.rampSamples count)[(y * p.width + x) * p.channels + c]? = some (ramp p.width x * p.fill) := by
  have hplace : (y * p.width + x) * p.channels + c =
      y * (p.width * p.channels) + (x * p.channels + c) := by ring
  rw [rampSamples_eq h, hplace, getElem?_fold_append (fun _ => size_row) hy (place_lt hx hc),
    getElem?_row hx hc]

/-- What the picture shows in column `x`, in every row and channel. -/
def shade (p : Picture) (x : Nat) : Float32 :=
  match p.pattern with
  | .solid => p.fill
  | .gradient =>
    (if 1 < p.width then Single.ofInt (Int.ofNat x) / Single.ofInt (Int.ofNat (p.width - 1)) else 1) * p.fill

/-- A frame shows the picture: its buffer has the size of the picture, and the right sample at each place. -/
structure Shows (p : Picture) (f : Frame) : Prop where
  consistent : f.isConsistent = true
  size : (f.width, f.height, f.channels) = (p.width, p.height, p.channels)
  sample : ∀ x y c, x < p.width → y < p.height → c < p.channels → f.sample? x y c = some (p.shade x)

/-- Samples that are right at each place make a frame that shows the picture. -/
theorem shows_ofSamples {samples : Array Float32}
    (h : Frame.sampleCount? p.width p.height p.channels = some samples.size)
    (hsample : ∀ x y c, x < p.width → y < p.height → c < p.channels →
      samples[(y * p.width + x) * p.channels + c]? = some (p.shade x)) :
    p.Shows (.ofSamples p.width p.height p.channels samples) := by
  rw [Frame.ofSamples_eq h]
  refine ⟨beq_iff_eq.mpr h, rfl, fun x y c hx hy hc => ?_⟩
  rw [Frame.sample?_of_lt hx hy hc]
  exact hsample x y c hx hy hc

/-- **A picture of a size that a frame may have is shown by its frame.** -/
theorem shows_render (h : Frame.sampleCount? p.width p.height p.channels = some count) :
    p.Shows p.render := by
  rw [render, h]
  cases hpattern : p.pattern with
  | solid =>
    rw [Frame.filled, h]
    refine shows_ofSamples (by rwa [Array.size_replicate]) fun x y c hx hy hc => ?_
    rw [Array.getElem?_replicate, if_pos, shade, hpattern]
    rw [Frame.eq_of_sampleCount? h, Nat.mul_comm p.width]
    exact place_lt (place_lt hy hx) hc
  | gradient =>
    refine shows_ofSamples (by rwa [size_rampSamples h]) fun x y c hx hy hc => ?_
    rw [getElem?_rampSamples h hx hy hc, shade, hpattern, ramp]

theorem render_of_rejected (h : Frame.sampleCount? p.width p.height p.channels = none) :
    p.render = .empty := by
  rw [render, h]

/-- A picture is usable if its frame has samples. -/
theorem isUsable_iff : p.isUsable = true ↔
    ∃ count, Frame.sampleCount? p.width p.height p.channels = some count ∧ 0 < count := by
  rw [isUsable]
  cases Frame.sampleCount? p.width p.height p.channels <;> simp

end Picture

/-! ## Picture sources -/

/-- **What a picture source makes of its size.** A size that no frame may have is rendered as the empty frame,
any other one as a frame that shows the picture. When the source is executed, a size with samples is rendered
and published, and with any other size nothing is published and one failure is reported. -/
theorem Node.execute_picture {n : Node} {out : PinId} {p : Picture} (hbody : n.body = .picture out p)
    (g : Graph) (mode : RunMode) (pull : Pin → RunM Value) (entry : Option PinId) (s : RunState) :
    (Frame.sampleCount? p.width p.height p.channels = none → p.render = .empty) ∧
    ((Frame.sampleCount? p.width p.height p.channels).isSome = true → p.Shows p.render) ∧
    ((∃ count, Frame.sampleCount? p.width p.height p.channels = some count ∧ 0 < count) →
      n.execute g mode pull entry s = (.ok none, (s.logged n.id).published out (.frame p.render))) ∧
    ((¬ ∃ count, Frame.sampleCount? p.width p.height p.channels = some count ∧ 0 < count) →
      n.execute g mode pull entry s = (.ok none, (s.logged n.id).failed g n.id
        ("invalid frame size " ++ sizeText p.width p.height p.channels))) := by
  have hexecute : n.execute g mode pull entry s = executePicture g n.id out p (s.logged n.id) := by
    rw [execute, hbody]
    exact bind_ok (logExecution_apply n.id s)
  rw [hexecute, executePicture_apply, ← Picture.isUsable_iff]
  refine ⟨Picture.render_of_rejected, fun h => ?_, fun h => ?_, fun h => ?_⟩
  · obtain ⟨count, hcount⟩ := Option.isSome_iff_exists.mp h
    exact Picture.shows_render hcount
  · rw [if_pos h]
  · rw [if_neg h]

/-- A ramp of three columns, and what becomes of it if it is made too wide. -/
theorem ramp_executed :
    let ramp := fun width => Picture.mk width 2 2 4 .gradient
    let n := fun width => Graph.exampleNode 1 (.picture ⟨Uuid.ofNat 11⟩ (ramp width))
    let g : Graph := { name := "ramp", nodes := [n 3], owners := [], links := [] }
    let pull : Pin → RunM Value := fun p => return p.type.defaultValue
    let s := RunState.initial .empty
    ((ramp 3).render.sample? 1 1 1 = some 2 ∧
      (Node.execute g ⟨false, true⟩ pull (n 3) none s).2.cache.get? ⟨Uuid.ofNat 11⟩ =
        some (.frame (ramp 3).render)) ∧
    ((ramp (2 ^ 63)).render = .empty ∧
      (Node.execute g ⟨false, true⟩ pull (n (2 ^ 63)) none s).2.failures.length = 1) := by
  intro ramp n g pull s
  have hspec := fun width => Node.execute_picture (n := n width) rfl g ⟨false, true⟩ pull none s
  obtain ⟨-, hshows, hpublished, -⟩ := hspec 3
  obtain ⟨hrejected, -, -, hfailed⟩ := hspec (2 ^ 63)
  refine ⟨⟨?_, ?_⟩, hrejected (by decide), ?_⟩
  · rw [(hshows (by decide)).sample 1 1 1 (by decide) (by decide) (by decide)]
    decide +kernel
  · rw [hpublished ⟨12, by decide, by decide⟩]
    rfl
  · rw [hfailed (by decide)]
    rfl

end Patchbay
