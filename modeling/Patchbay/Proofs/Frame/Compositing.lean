import Patchbay.Proofs.Frame.Rows

/-!
# What a composite looks like

`Composite.top?` is the sample of the last layer that reaches a place of the canvas. **`Composite.draw_spec`**
says that these are the samples of the composite, with zeros where no layer reaches, and
**`Composite.draw_exact`** that no arithmetic goes wrong on the way, whatever the offsets are, and that the
canvas and the layers alone decide whether there is a composite.
-/

namespace Patchbay

/-- What is seen in a channel of a pixel of the canvas: what the last of the layers has there that covers the
pixel, or zero if none does. -/
inductive Layer.Seen (layers : List Layer) (x y c : Nat) : Float32 → Prop
  | layer {below above : List Layer} {l : Layer} {v : Float32} (split : layers = below ++ l :: above)
    (covers : l.Covers x y) (last : ∀ k ∈ above, ¬ k.Covers x y)
    (sample : l.frame.sample? ((x : Int) - l.dx.toInt).toNat ((y : Int) - l.dy.toInt).toNat c = some v) :
    Seen layers x y c v
  | canvas (uncovered : ∀ l ∈ layers, ¬ l.Covers x y) : Seen layers x y c 0

/-- What is seen below a layer that does not cover the pixel is seen. -/
theorem Layer.Seen.concat {layers : List Layer} {x y c : Nat} {v : Float32}
    (h : Layer.Seen layers x y c v) {l : Layer} (hl : ¬ l.Covers x y) :
    Layer.Seen (layers ++ [l]) x y c v := by
  cases h with
  | layer split covers last sample =>
    refine .layer (by rw [split, List.append_assoc, List.cons_append]) covers (fun k hk => ?_) sample
    rcases List.mem_append.mp hk with hk | hk
    · exact last k hk
    · exact List.mem_singleton.mp hk ▸ hl
  | canvas uncovered =>
    refine .canvas fun k hk => ?_
    rcases List.mem_append.mp hk with hk | hk
    · exact uncovered k hk
    · exact List.mem_singleton.mp hk ▸ hl

/-- The sample of the last layer that has one is what is seen. -/
theorem Layer.seen_findSome? {channels : Nat} (layers : List Layer)
    (hlayers : ∀ l ∈ layers, l.frame.isConsistent = true ∧ l.frame.channels = channels) (x y : Nat)
    {c : Nat} (hc : c < channels) :
    Layer.Seen layers x y c ((layers.reverse.findSome? (·.sample? x y c)).getD 0) := by
  induction layers using List.reverseRecOn with
  | nil => exact .canvas fun l hl => absurd hl List.not_mem_nil
  | append_singleton layers l ih =>
    obtain ⟨hconsistent, hchannels⟩ := hlayers l (List.mem_append_right _ (List.mem_singleton_self l))
    rw [List.reverse_append, List.reverse_singleton, List.singleton_append, List.findSome?_cons]
    by_cases hcovers : l.Covers x y
    · obtain ⟨v, hv⟩ := l.exists_sample?_of_covers hconsistent hcovers (hchannels ▸ hc)
      have hsample := hv
      rw [Layer.sample?, Frame.placed?, if_pos ⟨hcovers.1, hcovers.2.2.1⟩] at hsample
      rw [hv]
      exact .layer rfl hcovers (fun k hk => absurd hk List.not_mem_nil) hsample
    · rw [Layer.sample?_of_not_covers hcovers]
      exact (ih fun k hk => hlayers k (List.mem_append_left _ hk)).concat hcovers

/-! ## Composites -/

namespace Composite

/-- The sample of the last layer that reaches a place of the canvas, if any does. -/
def top? (job : Composite) (x y c : Nat) : Option Float32 :=
  job.layers.reverse.findSome? (·.sample? x y c)

/-- What the composite is to be: a frame of the size of the canvas that shows the last layer wherever one
reaches, and zeros elsewhere. -/
structure Shows (job : Composite) (device : Device) (f : Frame) : Prop where
  width : f.width = job.width
  height : f.height = job.height
  channels : f.channels = job.channels
  elementType : f.elementType = job.elementType
  device : f.device = device
  consistent : f.isConsistent = true
  sample : ∀ x y c, x < job.width → y < job.height → c < job.channels →
    f.sample? x y c = some ((job.top? x y c).getD 0)

/-- Time stamps do not change what is shown. -/
theorem Shows.withTimingOf {job : Composite} {device : Device} {f : Frame} (h : job.Shows device f)
    (g : Frame) : job.Shows device (f.withTimingOf g) :=
  ⟨h.width, h.height, h.channels, h.elementType, h.device, h.consistent, h.sample⟩

/-- The canvas has samples and not too many, and every layer has its channels and is described by its size
fields. -/
def Drawable (job : Composite) : Prop :=
  (0 < job.width * job.height * job.channels ∧
    job.width * job.height * job.channels ≤ Frame.maxSamples) ∧
  ∀ l ∈ job.layers, l.frame.isConsistent = true ∧ l.frame.channels = job.channels

instance (job : Composite) : Decidable job.Drawable := inferInstanceAs (Decidable (_ ∧ _))

variable {job : Composite}

theorem canvasCount?_eq_some_iff {n : Nat} : job.canvasCount? = some n ↔
    n = job.width * job.height * job.channels ∧ 0 < n ∧ n ≤ Frame.maxSamples := by
  rw [canvasCount?, Option.filter_eq_some_iff, decide_eq_true_iff]
  constructor
  · rintro ⟨hcount, hpos⟩
    exact ⟨Frame.eq_of_sampleCount? hcount, hpos, Frame.le_of_sampleCount? hcount⟩
  · rintro ⟨rfl, hpos, hle⟩
    have hpixels : job.width * job.height < Frame.sizeLimit :=
      calc job.width * job.height ≤ job.width * job.height * job.channels :=
            Nat.le_mul_of_pos_right _ (factors_le hpos hle).2.2
        _ ≤ Frame.maxSamples := hle
        _ < Frame.sizeLimit := maxSamples_lt.2
    exact ⟨if_pos ⟨hpixels, hle⟩, hpos⟩

theorem fault?_eq_none_iff {channels : Nat} {l : Layer} : l.fault? channels = none ↔
    l.frame.isConsistent = true ∧ l.frame.channels = channels := by
  rw [Layer.fault?]
  split_ifs with hchannels hconsistent
  · simp [hchannels]
  · simp [hconsistent, not_not.mp hchannels]
  · simp [hconsistent]

theorem drawable_iff : job.Drawable ↔
    job.canvasCount?.isSome = true ∧ ∀ l ∈ job.layers, l.fault? job.channels = none := by
  simp only [Drawable, Option.isSome_iff_exists, canvasCount?_eq_some_iff, exists_eq_left,
    fault?_eq_none_iff]

/-- **A composite is drawn** if the canvas is usable and nothing is wrong with a layer. -/
theorem draw_spec (device : Device) (hcanvas : job.canvasCount?.isSome = true)
    (hlayers : ∀ l ∈ job.layers, l.fault? job.channels = none) :
    ∃ f, job.draw device = .ok f ∧ job.Shows device f := by
  obtain ⟨count, hcount⟩ := Option.isSome_iff_exists.mp hcanvas
  obtain ⟨hsize, hpos, hle⟩ := canvasCount?_eq_some_iff.mp hcount
  have hchannels : ∀ l ∈ job.layers, l.frame.channels = job.channels := fun l hl =>
    (fault?_eq_none_iff.mp (hlayers l hl)).2
  set canvas := job.layers.foldl (Layer.paste job.width job.channels) (Array.replicate count 0)
    with hdrawn
  have hpaste : job.layers.foldlM (Layer.paste? job.width job.height job.channels)
      (Array.replicate count 0) = some canvas :=
    Layer.foldlM_paste? job.layers (fun l hl => (fault?_eq_none_iff.mp (hlayers l hl)).1) hchannels
      (by constructor <;> rwa [Array.size_replicate])
  have hfits : Frame.sampleCount? job.width job.height job.channels = some canvas.size := by
    rw [hdrawn, Layer.size_foldl_paste, Array.size_replicate]
    exact (Option.filter_eq_some_iff.mp hcount).1
  have hdraw : job.draw device = .ok { Frame.ofSamples job.width job.height job.channels canvas with
      elementType := job.elementType, device := device } := by
    simp only [draw, hcount, List.findSome?_eq_none_iff.mpr hlayers, hpaste]
  refine ⟨_, hdraw, ?_⟩
  rw [Frame.ofSamples, if_pos hfits]
  refine ⟨rfl, rfl, rfl, rfl, rfl, beq_iff_eq.mpr hfits, fun x y c hx hy hc => ?_⟩
  have hplace : (y * job.width + x) * job.channels + c < count := by
    rw [hsize, Nat.mul_comm job.width]
    exact place_lt (place_lt hy hx) hc
  rw [Frame.sample?_of_lt hx hy hc]
  dsimp only
  rw [hdrawn, Layer.getElem?_foldl_paste hx hc job.layers hchannels,
    Array.getElem?_replicate, if_pos hplace, Option.map_some, top?]

/-- Nothing is drawn if the canvas is unusable or something is wrong with a layer, and it is this that is
reported. -/
theorem draw_of_not_drawable (device : Device) (h : ¬ job.Drawable) :
    ∃ e, job.draw device = .error e ∧ e ≠ .outOfRange := by
  rw [drawable_iff, not_and] at h
  cases hcount : job.canvasCount? with
  | none =>
    refine ⟨.unusableCanvas job.width job.height job.channels, ?_, by simp⟩
    simp only [draw, hcount]
  | some count =>
    obtain ⟨l, hl, hfault⟩ : ∃ l ∈ job.layers, l.fault? job.channels ≠ none := by
      simpa using h (by rw [hcount]; rfl)
    obtain ⟨e, he⟩ : ∃ e, job.layers.findSome? (Layer.fault? job.channels) = some e :=
      Option.ne_none_iff_exists'.mp fun hnone =>
        hfault (List.findSome?_eq_none_iff.mp hnone l hl)
    refine ⟨e, by simp only [draw, hcount, he], ?_⟩
    rintro rfl
    obtain ⟨k, -, hk⟩ := List.exists_of_findSome?_eq_some he
    rw [Layer.fault?] at hk
    split_ifs at hk <;> injection hk with hk <;> cases hk

/-- Only what is drawable has a composite, which shows it. -/
theorem shows_of_draw {device : Device} {f : Frame} (h : job.draw device = .ok f) :
    job.Drawable ∧ job.Shows device f := by
  by_cases hdrawable : job.Drawable
  · obtain ⟨hcanvas, hlayers⟩ := drawable_iff.mp hdrawable
    obtain ⟨frame, hdraw, hshows⟩ := draw_spec device hcanvas hlayers
    obtain rfl := Except.ok.inj (h.symm.trans hdraw)
    exact ⟨hdrawable, hshows⟩
  · obtain ⟨e, hdraw, -⟩ := draw_of_not_drawable device hdrawable
    cases h.symm.trans hdraw

/-- **Compositing is exact and stays in range.** Whatever the canvas, the layers and their offsets are, no
number and no place leaves its range; there is a composite exactly if the canvas has samples and not too many
and every layer is consistent and has its channels; and the composite is consistent, has the size of the
canvas, and shows at every pixel the last layer that covers it. -/
theorem draw_exact (job : Composite) (device : Device) :
    job.draw device ≠ .error .outOfRange ∧
    ((∃ f, job.draw device = .ok f) ↔ job.Drawable) ∧
    ∀ f, job.draw device = .ok f → job.Shows device f ∧
      ∀ x y c, x < job.width → y < job.height → c < job.channels →
        ∃ v, f.sample? x y c = some v ∧ Layer.Seen job.layers x y c v := by
  by_cases hdrawable : job.Drawable
  · obtain ⟨f, hf, hshows⟩ := draw_spec device (drawable_iff.mp hdrawable).1
      (drawable_iff.mp hdrawable).2
    rw [hf]
    refine ⟨by simp, iff_of_true ⟨f, rfl⟩ hdrawable, ?_⟩
    rintro g ⟨rfl⟩
    refine ⟨hshows, fun x y c hx hy hc => ⟨_, hshows.sample x y c hx hy hc, ?_⟩⟩
    exact Layer.seen_findSome? job.layers hdrawable.2 x y hc
  · obtain ⟨e, he, hne⟩ := draw_of_not_drawable device hdrawable
    rw [he]
    refine ⟨fun h => hne (by injection h), iff_of_false (by simp) hdrawable, ?_⟩
    rintro g ⟨⟩

/-- A layer as wide as a size can be, but without rows, at the ends of the range of offsets, over one that is
shifted in from the left. -/
def extreme : Composite where
  width := 2
  height := 1
  channels := 1
  elementType := .float32
  layers := [
    { frame := { Frame.empty with width := 2, height := 1, channels := 1, samples := #[1, 2] }
      dx := -1, dy := 0 },
    { frame := { Frame.empty with width := Frame.sizeLimit - 1, channels := 1 }
      dx := .minValue, dy := .maxValue }]

theorem draw_exact_extreme : extreme.Drawable ∧ ∃ f, extreme.draw .cpu = .ok f ∧ f.isConsistent = true ∧
    ∃ v, f.sample? 0 0 0 = some v ∧ Layer.Seen extreme.layers 0 0 0 v := by
  have hdrawable : extreme.Drawable := by decide
  obtain ⟨-, hiff, hshows⟩ := extreme.draw_exact .cpu
  obtain ⟨f, hf⟩ := hiff.mpr hdrawable
  exact ⟨hdrawable, f, hf, (hshows f hf).1.consistent,
    (hshows f hf).2 0 0 0 (by decide) (by decide) (by decide)⟩

end Composite

end Patchbay
