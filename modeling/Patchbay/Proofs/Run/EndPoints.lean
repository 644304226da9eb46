import Patchbay.Proofs.Frame.Compositing
import Patchbay.Proofs.Number.Extent
import Patchbay.Proofs.Run.Transition

/-!
# Transitions at both ends

At progress zero a transition is to show its first picture, and at one its second. Both are placed by the
size of the first one alone (`Move.far`), so this need not be so if their sizes differ.

At one it is so: the first picture has left the canvas. At zero the second picture is next to the canvas, but
if it comes from the left or from the top and is larger than the first one, the rest of it lies over the
first (`Move.overhang?`). **`Node.execute_endPoints`** says what a transition publishes at both ends, and that
it shows its first picture at zero exactly if nothing else is seen in the part that lies over it.
-/

namespace Patchbay

open RunM

/-! ## Where pictures are placed -/

namespace Move

/-- Where the second picture is when the first one has not been pushed: next to the canvas, by the size of
the canvas. -/
def far (m : Move) (width height : Nat) : Int × Int :=
  match m with
  | right => (width, 0)
  | left => (-width, 0)
  | bottom => (0, height)
  | top => (0, -height)

/-- Offsets that come from sizes can be negated. -/
theorem toInt_neg {a : Int64} {n : Nat} (h : a.toInt = n) : (-a).toInt = -n := by
  have hlt := a.toInt_lt
  rw [Int64.toInt_neg, h]
  exact Int.bmod_eq_of_le (by omega) (by omega)

section Offsets

variable (m : Move) {pos : Float32} {width height : Nat} (hwidth : width ≤ 2 ^ 24)
  (hheight : height ≤ 2 ^ 24)
include hwidth hheight

/-- At zero the first picture is on the canvas and the second next to it. -/
theorem offsets_zero (hpos : (pos == 0) = true) :
    ((m.offsets pos width height).1.1.toInt, (m.offsets pos width height).1.2.toInt) = (0, 0) ∧
      ((m.offsets pos width height).2.1.toInt, (m.offsets pos width height).2.2.toInt) =
        m.far width height := by
  have hlead : ∀ n, (-lead pos n).toInt = 0 := fun n => toInt_neg (lead_zero hpos n)
  have htrail : ∀ n ≤ 2 ^ 24, (-trail pos n).toInt = -n := fun n hn => toInt_neg (trail_zero hpos hn)
  cases m <;>
    simp [offsets, far, lead_zero hpos, trail_zero hpos hwidth, trail_zero hpos hheight, hlead,
      htrail _ hwidth, htrail _ hheight]

/-- At one the second picture is on the canvas and the first next to it, on the other side. -/
theorem offsets_one (hpos : (pos == 1) = true) :
    ((m.offsets pos width height).1.1.toInt, (m.offsets pos width height).1.2.toInt) =
        -m.far width height ∧
      ((m.offsets pos width height).2.1.toInt, (m.offsets pos width height).2.2.toInt) = (0, 0) := by
  have hlead : ∀ n ≤ 2 ^ 24, (-lead pos n).toInt = -n := fun n hn => toInt_neg (lead_one hpos hn)
  have htrail : ∀ n, (-trail pos n).toInt = 0 := fun n => toInt_neg (trail_one hpos n)
  cases m <;>
    simp [offsets, far, trail_one hpos, lead_one hpos hwidth, lead_one hpos hheight, htrail,
      hlead _ hwidth, hlead _ hheight]

end Offsets

/-! ## What is seen of the second picture at zero -/

/-- The sample of the second picture over a place of the canvas, if the picture is next to the canvas and
reaches there all the same. -/
def overhang? (m : Move) (first second : Frame) (x y c : Nat) : Option Float32 :=
  match m with
  | right | bottom => none
  | left => second.sample? (x + first.width) y c
  | top => second.sample? x (y + first.height) c

/-- Where the second picture lies over the first one at zero, it looks the same. -/
def Clear (m : Move) (first second : Frame) : Prop :=
  ∀ x y c, x < first.width → y < first.height → ∀ v ∈ m.overhang? first second x y c,
    first.sample? x y c = some v

/-- The second picture is no larger than the first one on the side from which it comes, or it comes from the
right or the bottom. -/
def Fits (m : Move) (first second : Frame) : Prop :=
  match m with
  | right | bottom => True
  | left => second.width ≤ first.width
  | top => second.height ≤ first.height

variable {m : Move} {first second : Frame}

theorem Fits.overhang?_eq_none (h : m.Fits first second) (x y c : Nat) :
    m.overhang? first second x y c = none := by
  have hno : ∀ x y, second.width ≤ x ∨ second.height ≤ y → second.sample? x y c = none :=
    fun x y hxy => if_neg (by omega)
  cases m with
  | right => rfl
  | bottom => rfl
  | left => exact hno _ _ (Or.inl (Nat.le_add_left_of_le h))
  | top => exact hno _ _ (Or.inr (Nat.le_add_left_of_le h))

/-- A second picture that fits does not lie over the first one. -/
theorem Fits.clear (h : m.Fits first second) : m.Clear first second := by
  intro x y c _ _ v hv
  rw [h.overhang?_eq_none] at hv
  cases hv

theorem lt_channels_of_overhang? {x y c : Nat} {v : Float32}
    (h : v ∈ m.overhang? first second x y c) : c < second.channels := by
  cases m with
  | right => cases h
  | bottom => cases h
  | left => exact (Frame.lt_of_sample? h).2.2
  | top => exact (Frame.lt_of_sample? h).2.2

/-- What is seen of a picture that is next to the canvas. -/
theorem placed?_far (m : Move) {x y : Nat} (hx : x < first.width) (hy : y < first.height) (c : Nat) :
    second.placed? (m.far first.width first.height) x y c = m.overhang? first second x y c := by
  cases m with
  | right => exact if_neg (by simp only [far]; omega)
  | bottom => exact if_neg (by simp only [far]; omega)
  | left =>
    have hcolumn : ((x : Int) - -(first.width : Int)).toNat = x + first.width := by omega
    simp only [Frame.placed?, far, hcolumn, sub_zero, Int.toNat_natCast]
    exact if_pos (by omega)
  | top =>
    have hrow : ((y : Int) - -(first.height : Int)).toNat = y + first.height := by omega
    simp only [Frame.placed?, far, hrow, sub_zero, Int.toNat_natCast]
    exact if_pos (by omega)

/-- Nothing is seen of the first picture when it has left the canvas. -/
theorem placed?_neg_far (m : Move) {x y : Nat} (hx : x < first.width) (hy : y < first.height) (c : Nat) :
    first.placed? (-m.far first.width first.height) x y c = none := by
  rw [Frame.placed?, Frame.sample?]
  split_ifs with hreach hin
  · cases m <;> simp only [far, Prod.neg_mk] at hreach hin <;> omega
  · rfl
  · rfl

end Move

namespace Transition

variable (t : Transition) {first second : Frame}

section Composite

variable {pos : Float32}

/-- What is seen at a place of a composite: the second picture if it reaches there, or else the first. -/
theorem top?_composite (x y c : Nat) : (t.composite first second pos).top? x y c =
    (second.placed? ((t.move.offsets pos first.width first.height).2.1.toInt,
        (t.move.offsets pos first.width first.height).2.2.toInt) x y c).or
      (first.placed? ((t.move.offsets pos first.width first.height).1.1.toInt,
        (t.move.offsets pos first.width first.height).1.2.toInt) x y c) := by
  have hpair : ∀ (f : Layer → Option Float32) (k l : Layer),
      [l, k].findSome? f = (f l).or (f k) := by
    intro f k l
    cases h : f l <;> simp [h]
  simp only [Composite.top?, composite, List.reverse_cons, List.reverse_nil, List.nil_append,
    List.cons_append, hpair, Layer.sample?, Layer.offset]

variable {x y : Nat} (hwidth : first.width ≤ 2 ^ 24) (hheight : first.height ≤ 2 ^ 24)
  (hx : x < first.width) (hy : y < first.height)
include hwidth hheight hx hy

/-- At zero the second picture is seen where it lies over the first one. -/
theorem top?_zero (hpos : (pos == 0) = true) (c : Nat) : (t.composite first second pos).top? x y c =
    (t.move.overhang? first second x y c).or (first.sample? x y c) := by
  obtain ⟨hfirst, hsecond⟩ := t.move.offsets_zero hwidth hheight hpos
  rw [top?_composite, hfirst, hsecond, t.move.placed?_far hx hy, Frame.placed?_zero]

/-- At one nothing is seen of the first picture. -/
theorem top?_one (hpos : (pos == 1) = true) (c : Nat) :
    (t.composite first second pos).top? x y c = second.sample? x y c := by
  obtain ⟨hfirst, hsecond⟩ := t.move.offsets_one hwidth hheight hpos
  rw [top?_composite, hfirst, hsecond, t.move.placed?_neg_far hx hy, Frame.placed?_zero,
    Option.or_none]

end Composite

/-- Two pictures can be blended: they are described by their size fields and have as many channels. -/
structure Blendable (f g : Frame) : Prop where
  first : f.isConsistent = true
  second : g.isConsistent = true
  channels : g.channels = f.channels

/-- The composite of two pictures that are there can be drawn exactly if they can be blended. -/
theorem drawable_composite (pos : Float32) (hsome : first.isEmpty = false) :
    (t.composite first second pos).Drawable ↔ Blendable first second := by
  have hlayers : (∀ l ∈ (t.composite first second pos).layers,
      l.frame.isConsistent = true ∧ l.frame.channels = first.channels) ↔ Blendable first second := by
    simp only [composite, List.forall_mem_cons, List.not_mem_nil, false_implies, implies_true,
      and_true]
    exact ⟨fun h => ⟨h.1, h.2.1, h.2.2⟩, fun h => ⟨h.first, h.second, h.channels⟩⟩
  refine ⟨fun h => hlayers.mp h.2, fun h => ⟨?_, hlayers.mpr h⟩⟩
  have hpos : 0 < first.samples.size :=
    Array.size_pos_iff.mpr fun hnil => by simp [Frame.isEmpty, hnil] at hsome
  have hsize := Frame.size_samples h.first
  exact ⟨hsize ▸ hpos, hsize ▸ Frame.size_samples_le h.first⟩

/-- Two pictures that can be blended are. -/
theorem draw_composite (hfits : Blendable first second) (hsome : first.isEmpty = false)
    (pos : Float32) (device : Device) : ∃ f, (t.composite first second pos).draw device = .ok f ∧
      (t.composite first second pos).Shows device f := by
  obtain ⟨hcanvas, hlayers⟩ := Composite.drawable_iff.mp ((t.drawable_composite pos hsome).mpr hfits)
  exact Composite.draw_spec device hcanvas hlayers

/-- What a transition shows at zero, over its first picture. -/
structure Begins (first second out : Frame) : Prop where
  /-- The second picture is seen where it lies over the first one. -/
  sample : ∀ x y c, x < first.width → y < first.height → c < first.channels →
    out.sample? x y c = (t.move.overhang? first second x y c).or (first.sample? x y c)
  /-- The first picture is all that is seen exactly if this makes no difference. -/
  samples_iff : out.samples = first.samples ↔ t.move.Clear first second
  /-- It makes none if the second picture fits. -/
  of_fits : t.move.Fits first second → out.samples = first.samples

/-- What a transition shows at one: the second picture, and zeros where it does not reach. -/
structure Ends (first second out : Frame) : Prop where
  sample : ∀ x y c, x < first.width → y < first.height → c < first.channels →
    out.sample? x y c = some ((second.sample? x y c).getD 0)

section Shows

variable {pos : Float32} {device : Device} {out : Frame}
  (hshows : (t.composite first second pos).Shows device out) (hwidth : first.width ≤ 2 ^ 24)
  (hheight : first.height ≤ 2 ^ 24)
include hshows hwidth hheight

theorem begins_of_shows (hpos : (pos == 0) = true) (hfirst : first.isConsistent = true)
    (hchannels : second.channels = first.channels) : t.Begins first second out := by
  have hsample : ∀ x y c, x < first.width → y < first.height → c < first.channels →
      out.sample? x y c = (t.move.overhang? first second x y c).or (first.sample? x y c) := by
    intro x y c hx hy hc
    obtain ⟨v, hv⟩ := first.exists_sample? hfirst hx hy hc
    rw [hshows.sample x y c hx hy hc, t.top?_zero hwidth hheight hx hy hpos, hv]
    cases t.move.overhang? first second x y c <;> rfl
  have hiff : out.samples = first.samples ↔ t.move.Clear first second := by
    constructor
    · intro hsame x y c hx hy v hv
      have hc : c < first.channels := hchannels ▸ Move.lt_channels_of_overhang? hv
      have hout := hsample x y c hx hy hc
      rw [Option.mem_def.mp hv] at hout
      rw [← show out.sample? x y c = some v from hout, Frame.sample?, Frame.sample?, hsame,
        hshows.width, hshows.height, hshows.channels]
      rfl
    · intro hclear
      refine Frame.samples_eq hshows.consistent hfirst hshows.width hshows.height hshows.channels ?_
      intro x y c hx hy hc
      rw [hsample x y c hx hy hc]
      cases hover : t.move.overhang? first second x y c with
      | none => rfl
      | some v => exact (hclear x y c hx hy v hover).symm
  exact ⟨hsample, hiff, fun hfits => hiff.mpr hfits.clear⟩

theorem ends_of_shows (hpos : (pos == 1) = true) : Ends first second out where
  sample x y c hx hy hc := by
    rw [hshows.sample x y c hx hy hc, t.top?_one hwidth hheight hx hy hpos]

end Shows

end Transition

namespace Node

/-- **Transitions at both ends.** A transition that is switched on and has two usable pictures with as many
channels publishes a picture of the size of the first one. At zero it shows the first picture, exactly if
nothing else is seen in what lies over it; it does if the second picture is no larger. At one it shows the
second picture, and zeros where that does not reach, but nothing of the first. -/
theorem execute_endPoints {n : Node} {pins : TransitionPins} {settings : Transition}
    {pull : Pin → RunM Value} {s u : RunState} (g : Graph) (mode : RunMode)
    (hbody : n.body = .transition pins settings) (entry : Option PinId) (hon : n.enabled = true)
    {first second : Frame} {c : Value}
    (h : n.Gathers pull s (.ok [.frame first, .frame second, c]) u) (hrunning : u.stopped = false)
    (hfirst : first.isEmpty = false ∧ first.isConsistent = true)
    (hsecond : second.isEmpty = false ∧ second.isConsistent = true)
    (hchannels : second.channels = first.channels)
    (hsize : first.width ≤ 2 ^ 24 ∧ first.height ≤ 2 ^ 24) : ∃ out t,
    n.execute g mode pull entry s = (.ok (some pins.exit), t) ∧
      t.memory.value pins.outPin = .frame out ∧ t.cache.get? pins.out = some (.frame out) ∧
      out.isConsistent = true ∧
      (out.width, out.height, out.channels) = (first.width, first.height, first.channels) ∧
      ((Single.clampUnit (c.asFloat 0) == 0) = true → settings.Begins first second out) ∧
      ((Single.clampUnit (c.asFloat 0) == 1) = true → Transition.Ends first second out) := by
  obtain ⟨frame, hdraw, hshows⟩ := settings.draw_composite
    ⟨hfirst.2, hsecond.2, hchannels⟩ hfirst.1
    (Single.clampUnit (c.asFloat 0)) (u.memory.compositor n.id first.device).device
  refine ⟨frame.withTimingOf first, _,
    execute_blended g mode hbody entry hon h hrunning hfirst.1 hsecond.1 hdraw,
    Memory.value_store _ pins.outPin _, (Table.get?_set ..).trans (if_pos rfl), hshows.consistent,
    ?_, fun hpos => ?_, fun hpos => ?_⟩
  · exact Prod.ext hshows.width (Prod.ext hshows.height hshows.channels)
  · exact settings.begins_of_shows (hshows.withTimingOf first) hsize.1 hsize.2 hpos hfirst.2 hchannels
  · exact settings.ends_of_shows (hshows.withTimingOf first) hsize.1 hsize.2 hpos

end Node

namespace Graph

/-- A picture of two pixels in a row is replaced from the left by one of a single pixel. At zero it is seen
as it is, and at one there is nothing next to that pixel. -/
theorem alone_endPoints :
    let first := Frame.ofSamples 2 1 1 #[1, 2]
    let second := Frame.ofSamples 1 1 1 #[3]
    let run := fun pos => ((alone true .left).executeNode ⟨false, true⟩ (alone.node true .left) none
      (alone.state first second pos)).2
    (∃ out, (run 0).cache.get? (examplePins 20).out = some (.frame out) ∧
      out.samples = first.samples) ∧
    ∃ out, (run 1).cache.get? (examplePins 20).out = some (.frame out) ∧
      out.sample? 0 0 0 = some 3 ∧ out.sample? 1 0 0 = some 0 := by
  intro first second run
  have hspec := fun pos => Node.execute_endPoints (alone true .left) ⟨false, true⟩
    (show (alone.node true .left).body = .transition (examplePins 20) ⟨.left, .undefined⟩ from rfl)
    none rfl (alone_gathers true .left first second pos) rfl (by decide +kernel) (by decide +kernel)
    (by decide +kernel) (by decide +kernel)
  refine ⟨?_, ?_⟩
  · obtain ⟨out, t, ht, -, hcache, -, -, hzero, -⟩ := hspec 0
    have hfits : Move.left.Fits first second := show second.width ≤ first.width by decide +kernel
    have hend : run 0 = t := congrArg Prod.snd ht
    exact ⟨out, hend ▸ hcache, (hzero (by decide +kernel)).of_fits hfits⟩
  · obtain ⟨out, t, ht, -, hcache, -, -, -, hone⟩ := hspec 1
    have hend : run 1 = t := congrArg Prod.snd ht
    refine ⟨out, hend ▸ hcache, ?_, ?_⟩
    · rw [(hone (by decide +kernel)).sample 0 0 0 (by decide +kernel) (by decide +kernel)
        (by decide +kernel)]
      decide +kernel
    · rw [(hone (by decide +kernel)).sample 1 0 0 (by decide +kernel) (by decide +kernel)
        (by decide +kernel)]
      decide +kernel

/-- A picture of a single pixel is replaced from the left by one of two pixels in a row. At zero, the second
of them is seen in place of the first picture. -/
theorem alone_overhang :
    let first := Frame.ofSamples 1 1 1 #[1]
    let second := Frame.ofSamples 2 1 1 #[2, 3]
    let t := ((alone true .left).executeNode ⟨false, true⟩ (alone.node true .left) none
      (alone.state first second 0)).2
    (first.isEmpty = false ∧ first.isConsistent = true) ∧
      (second.isEmpty = false ∧ second.isConsistent = true) ∧ second.channels = first.channels ∧
      t.stopped = false ∧ first.samples = #[1] ∧
      (t.cache.get? (examplePins 20).out).map (fun v => v.toFrame.samples) = some #[3] := by
  decide +kernel

end Graph

end Patchbay
