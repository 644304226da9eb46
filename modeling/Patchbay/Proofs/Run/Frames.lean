import Patchbay.Proofs.Frame.Pictures
import Patchbay.Proofs.Run.Chronicle
import Patchbay.Proofs.Run.EndPoints

/-!
# Frames in circulation

The size fields of a frame and its buffer are set together wherever frames are made, but a frame may be stored,
published, passed on, composed and tagged with the time of another one before somebody looks at its buffer.
What nodes make of sound frames is sound (`Node.Yields.sound`), and picture sources and transitions make no
empty frames (`Node.Yields.nonempty`).

**`Graph.frames_sound`** says that frames stay sound in every chronicle of a graph, if those that come from the
host are consistent. The invariant covers the values that a node has been given, for by the time it concludes
they may be on no pin any more.
-/

namespace Patchbay

open Patchbay.Action RunM

/-! ## Sound frames -/

namespace Frame

/-- The size fields of a frame describe its buffer, which is not too large. -/
structure Sound (f : Frame) : Prop where
  consistent : f.isConsistent = true
  size : f.samples.size = f.width * f.height * f.channels
  bounded : f.samples.size ≤ maxSamples

theorem sound_of_isConsistent {f : Frame} (hf : f.isConsistent = true) : f.Sound :=
  ⟨hf, size_samples hf, size_samples_le hf⟩

theorem sound_empty : empty.Sound := sound_of_isConsistent (by decide)

/-- A sound frame is empty only if its size says so. -/
theorem Sound.isEmpty_eq_false {f : Frame} (hf : f.Sound) (hpos : 0 < f.width * f.height * f.channels) :
    f.isEmpty = false := by
  rw [← Bool.not_eq_true, isEmpty, Array.isEmpty_iff_size_eq_zero, hf.size]
  exact hpos.ne'

end Frame

namespace Value

/-- A frame that the host may store. -/
def Consistent (v : Value) : Prop := ∀ f, v = .frame f → f.isConsistent = true

/-- If the value is a frame, it is a sound one. -/
def Sound (v : Value) : Prop := ∀ f, v = .frame f → f.Sound

theorem Consistent.sound {v : Value} (h : v.Consistent) : v.Sound := fun f hf =>
  Frame.sound_of_isConsistent (h f hf)

theorem sound_frame {f : Frame} (hf : f.Sound) : (frame f).Sound := fun _ h => frame.inj h ▸ hf

theorem Sound.toFrame {v : Value} (h : v.Sound) : v.toFrame.Sound := by
  cases v with
  | frame f => exact h f rfl
  | _ => exact Frame.sound_empty

end Value

/-- Pins without a value of their own show no other frame than the empty one. -/
theorem PinType.consistent_defaultValue (t : PinType) : t.defaultValue.Consistent := by
  cases t with
  | frame =>
    intro f hf
    exact Value.frame.inj hf ▸ Frame.sound_empty.consistent
  | _ => exact nofun

/-- The frame of a usable picture. -/
theorem Picture.sound_render {p : Picture} (h : p.isUsable = true) :
    p.render.Sound ∧ p.render.isEmpty = false := by
  obtain ⟨count, hcount, hpos⟩ := isUsable_iff.mp h
  have hshows := shows_render hcount
  have hsound := Frame.sound_of_isConsistent hshows.consistent
  obtain ⟨hwidth, hsize⟩ := Prod.mk.inj hshows.size
  obtain ⟨hheight, hchannels⟩ := Prod.mk.inj hsize
  rw [Frame.eq_of_sampleCount? hcount] at hpos
  exact ⟨hsound, hsound.isEmpty_eq_false (by rwa [hwidth, hheight, hchannels])⟩

/-- A composite that is drawn, whatever time it is tagged with. -/
theorem Composite.sound_draw {job : Composite} {device : Device} {f : Frame} (h : job.draw device = .ok f)
    (first : Frame) : (f.withTimingOf first).Sound ∧ (f.withTimingOf first).isEmpty = false := by
  obtain ⟨hdrawable, hshows⟩ := shows_of_draw h
  have htimed := hshows.withTimingOf first
  have hsound := Frame.sound_of_isConsistent htimed.consistent
  have hpos := hdrawable.1.1
  exact ⟨hsound, hsound.isEmpty_eq_false (by rwa [htimed.width, htimed.height, htimed.channels])⟩

/-! ## What nodes make -/

namespace Node

/-- The node makes pictures: it is a picture source or a transition. -/
def paints (n : Node) : Bool :=
  match n.body with
  | .picture _ _ | .transition _ _ => true
  | _ => false

variable {n : Node} {vs : List Value} {p : Pin} {v : Value}

/-- **What is made of sound values is sound.** -/
theorem Yields.sound (h : n.Yields vs p v) (hvs : ∀ w ∈ vs, w.Sound) : v.Sound := by
  cases h with
  | constant => exact nofun
  | picture _ usable => exact Value.sound_frame (Picture.sound_render usable).1
  | passed _ mem => exact Value.sound_frame (hvs _ mem).toFrame
  | blended _ _ draws => exact Value.sound_frame (Composite.sound_draw draws _).1
  | kept _ mem => exact hvs v mem

/-- **Picture sources and transitions make no empty frames.** -/
theorem Yields.nonempty (h : n.Yields vs p v) (hpaints : n.paints = true) :
    ∃ f, v = .frame f ∧ f.isEmpty = false := by
  cases h with
  | constant body => simp [paints, body] at hpaints
  | picture _ usable => exact ⟨_, rfl, (Picture.sound_render usable).2⟩
  | passed _ _ some => exact ⟨_, rfl, some⟩
  | blended _ _ draws => exact ⟨_, rfl, (Composite.sound_draw draws _).2⟩
  | kept body => simp [paints, body] at hpaints

end Node

/-! ## Graphs -/

namespace Graph

/-- The frames of a graph are sound: those on its pins and those published, and what picture sources and
transitions have published are frames with samples. -/
structure FramesSound (g : Graph) (s : RunState) : Prop where
  stored : ∀ p ∈ g.pins, (s.memory.value p).Sound
  published : ∀ i v, s.cache.get? i = some v → v.Sound
  painted : ∀ n ∈ g.nodes, n.paints = true → ∀ p ∈ n.outputs, ∀ v, s.cache.get? p.id = some v →
    ∃ f, v = .frame f ∧ f.isEmpty = false

variable {g : Graph} {s t u : RunState}

namespace FramesSound

theorem initial {m : Memory} (hm : ∀ p ∈ g.pins, (m.value p).Consistent) : g.FramesSound (.initial m) :=
  ⟨fun p hp => (hm p hp).sound, nofun, fun _ _ _ _ _ => nofun⟩

/-- The frames on the pins of one state and those published in another one. -/
theorem of_values (hs : g.FramesSound s) (ht : g.FramesSound t) (values : u.memory.values = s.memory.values)
    (cache : u.cache = t.cache) : g.FramesSound u where
  stored p hp := by
    rw [Memory.value, values]
    exact hs.stored p hp
  published := by
    rw [cache]
    exact ht.published
  painted := by
    rw [cache]
    exact ht.painted

/-- Nothing has been published. -/
theorem cleared (h : g.FramesSound t) (values : u.memory.values = t.memory.values) (cache : u.cache = []) :
    g.FramesSound u := by
  have hnone : g.FramesSound { t with cache := [] } := ⟨h.stored, nofun, fun _ _ _ _ _ => nofun⟩
  exact h.of_values hnone values cache

/-- A sound value is stored and not published. -/
theorem stores (h : g.FramesSound t) {i : PinId} {v : Value} (hv : v.Sound)
    (values : u.memory.values = t.memory.values.set i v) (cache : u.cache = t.cache) : g.FramesSound u := by
  suffices hstored : g.FramesSound (t.stored i v) from hstored.of_values h values cache
  refine ⟨fun p hp => ?_, h.published, h.painted⟩
  rw [Memory.value]
  show (((t.memory.values.set i v).get? p.id).getD p.initial).Sound
  rw [Table.get?_set]
  split_ifs
  · exact hv
  · exact h.stored p hp

/-- What a pin is known to give is sound. -/
theorem answer (h : g.FramesSound t) {p : Pin} (hp : p ∈ g.pins) {v : Value} (hv : g.answer? t p = some v) :
    v.Sound := by
  rw [answer?] at hv
  cases hsource : g.sourceOf? p with
  | none =>
    rw [hsource] at hv
    obtain rfl := Option.some.inj hv
    cases hcache : t.cache.get? p.id with
    | none => exact h.stored p hp
    | some w => exact h.published _ w hcache
  | some i =>
    simp only [hsource] at hv
    cases hcache : t.cache.get? i with
    | some w =>
      rw [hcache] at hv
      exact Option.some.inj hv ▸ h.published i w hcache
    | none =>
      simp only [hcache] at hv
      split at hv
      · split_ifs at hv
        exact Option.some.inj hv ▸ (PinType.consistent_defaultValue _).sound
      · cases hv

/-- **Concluding a node with sound values keeps frames sound.** -/
theorem concludes (h : g.FramesSound t) (hg : g.WellFormed) (hb : g.IsBuiltin) {n : Node} (hn : n ∈ g.nodes)
    {vs : List Value} (hvs : ∀ v ∈ vs, v.Sound) : g.FramesSound (n.conclude g vs t).2 := by
  cases n.conclude_yields g (hb n hn) vs t with
  | nothing values cache => exact h.of_values h values cache
  | @stored p v yields values cache =>
    have hv := yields.sound hvs
    have hstored : g.FramesSound { (n.conclude g vs t).2 with cache := t.cache } := h.stores hv values rfl
    split_ifs at cache
    case neg => exact hstored.of_values h rfl cache
    refine ⟨hstored.stored, fun i w hw => ?_, fun m hm hpaints q hq w hw => ?_⟩
    · rw [cache, Table.get?_set] at hw
      split_ifs at hw
      · exact Option.some.inj hw ▸ hv
      · exact h.published i w hw
    · rw [cache, Table.get?_set] at hw
      split_ifs at hw with hid
      · -- no other node publishes on a pin of this one
        obtain ⟨rfl, -⟩ := hg.eq_of_pin hn hm (n.writes_subset yields.mem_writes)
          (List.mem_append_right _ hq) hid
        exact Option.some.inj hw ▸ yields.nonempty hpaints
      · exact h.painted m hm hpaints q hq w hw

/-- Telling a node of a stop keeps frames sound. -/
theorem tells (h : g.FramesSound t) {n : Node} (hn : n.body.isBuiltin = true) :
    g.FramesSound (n.onStop t).2 := by
  rcases n.onStop_cases hn t with heq | ⟨pins, settings, -, heq⟩
  · rwa [heq]
  · rw [heq]
    exact h.stores (Value.sound_frame Frame.sound_empty) rfl rfl

end FramesSound

/-- **Frames stay sound in chronicles**, and so are all values that nodes are given on the way. -/
theorem Chronicle.framesSound (hg : g.WellFormed) (hb : g.IsBuiltin) (hs : g.FramesSound s)
    {known : List Value} (h : g.Chronicle Value.Consistent s known t) :
    g.FramesSound t ∧ ∀ v ∈ known, v.Sound := by
  induction h with
  | here => exact ⟨hs, nofun⟩
  | books _ values cache ih => exact ⟨ih.1.of_values ih.1 values cache, ih.2⟩
  | clears _ values cache ih => exact ⟨ih.1.cleared values cache, ih.2⟩
  | resumes _ _ values cache ih ih' => exact ⟨ih.1.of_values ih'.1 values cache, ih'.2⟩
  | gives _ mem answer ih =>
    refine ⟨ih.1, fun v hv => ?_⟩
    rcases List.mem_cons.mp hv with rfl | hv
    · exact ih.1.answer mem answer
    · exact ih.2 v hv
  | concludes _ mem given concludes ih =>
    have hconcludes := ih.1.concludes hg hb mem fun v hv => ih.2 v (given hv)
    rw [concludes] at hconcludes
    exact ⟨hconcludes, ih.2⟩
  | tells _ mem ih => exact ⟨ih.1.tells (hb _ mem), ih.2⟩
  | stores _ _ holds ih => exact ⟨ih.1.stores holds.sound rfl rfl, ih.2⟩

/-- **Frames stay sound.** A host stores frames on the pins of a graph, all of them consistent, and from then
on it has the graph run and stops it as often as it likes. At every point every frame that has been published
and every frame on a pin is sound, and whatever a picture source or a transition has published is a frame with
samples. -/
theorem frames_sound (hg : g.WellFormed) (hb : g.IsBuiltin) {m : Memory}
    (hm : ∀ p ∈ g.pins, (m.value p).Consistent) (t : RunState)
    (h : g.Chronicled Value.Consistent (.initial m) t) :
    g.FramesSound t ∧ g.Continues Value.Consistent (.initial m) t :=
  let ⟨_, hchronicle⟩ := h
  ⟨(hchronicle.framesSound hg hb (.initial hm)).1, h.continues hg hb⟩

/-- Flow runs from a start node through a transition to an end node. The transition goes from one picture to
another, and the end node keeps what it shows. -/
def gallery : Graph :=
  let nodes := [exampleNode 1 (.start ⟨Uuid.ofNat 11⟩),
    exampleNode 2 (.transition (examplePins 20) .standard),
    exampleNode 3 (.finish ⟨⟨Uuid.ofNat 31⟩, ⟨Uuid.ofNat 32⟩⟩),
    exampleNode 4 (.picture ⟨Uuid.ofNat 41⟩ ⟨2, 1, 1, 4, .solid⟩),
    exampleNode 5 (.picture ⟨Uuid.ofNat 51⟩ ⟨2, 1, 1, 6, .gradient⟩)]
  { name := "gallery", nodes, owners := indexOf nodes
    links := [exampleLink 61 1 11 2 20 true, exampleLink 62 2 24 3 31 true,
      exampleLink 63 4 41 2 21 false, exampleLink 64 5 51 2 22 false, exampleLink 65 2 25 3 32 false] }

theorem gallery_wellFormed : gallery.WellFormed := by
  refine wellFormed_of_indexOf rfl (by decide) (by decide) (fun l hl => ?_) (by decide)
  simp only [gallery, List.mem_cons, List.not_mem_nil, or_false] at hl
  rcases hl with rfl | rfl | rfl | rfl | rfl
  · exact joins_of_getElem? (i := 0) (j := 1) (k := 0) (m := 0) rfl rfl rfl rfl rfl (by decide) rfl
  · exact joins_of_getElem? (i := 1) (j := 2) (k := 4) (m := 0) rfl rfl rfl rfl rfl (by decide) rfl
  · exact joins_of_getElem? (i := 3) (j := 1) (k := 0) (m := 1) rfl rfl rfl rfl rfl (by decide) rfl
  · exact joins_of_getElem? (i := 4) (j := 1) (k := 0) (m := 2) rfl rfl rfl rfl rfl (by decide) rfl
  · exact joins_of_getElem? (i := 1) (j := 2) (k := 5) (m := 1) rfl rfl rfl rfl rfl (by decide) rfl

theorem gallery_isBuiltin : gallery.IsBuiltin := by
  intro n hn
  simp only [gallery, List.mem_cons, List.not_mem_nil, or_false] at hn
  rcases hn with rfl | rfl | rfl | rfl | rfl <;> rfl

/-- In a run of the example the transition publishes a sound frame with samples. All frames are sound still when
the graph has been stopped and run once more. -/
theorem gallery_framesSound :
    let s := RunState.initial .empty
    let t := (gallery.runFrom ⟨false, true⟩ ⟨Uuid.ofNat 1⟩ s).2
    (∃ f, t.cache.get? (examplePins 20).out = some (.frame f) ∧ f.Sound ∧ f.isEmpty = false) ∧
      gallery.FramesSound (gallery.run ⟨true, true⟩ (gallery.stop t).2).2 := by
  intro s t
  have hm : ∀ p ∈ gallery.pins, (Memory.empty.value p).Consistent := by
    intro p hp
    have hinitial : ∀ p ∈ gallery.pins, p.initial = p.type.defaultValue := by decide +kernel
    show p.initial.Consistent
    exact hinitial p hp ▸ p.type.consistent_defaultValue
  have hspec := frames_sound gallery_wellFormed gallery_isBuiltin hm
  obtain ⟨-, hfirst⟩ := hspec s ⟨[], .here⟩
  obtain ⟨ht, hthen⟩ := hspec t (hfirst.runsFrom _ _)
  have hstopped := (hspec _ hthen.stops).2
  refine ⟨?_, (hspec _ (hstopped.runs _)).1⟩
  obtain ⟨v, hv⟩ := Option.isSome_iff_exists.mp
    (show (t.cache.get? (examplePins 20).out).isSome = true by decide +kernel)
  obtain ⟨f, rfl, hsome⟩ := ht.painted (exampleNode 2 (.transition (examplePins 20) .standard))
    (by decide +kernel) rfl (examplePins 20).outPin (by decide +kernel) v hv
  exact ⟨f, hv, ht.published _ _ hv f rfl, hsome⟩

end Graph

end Patchbay
