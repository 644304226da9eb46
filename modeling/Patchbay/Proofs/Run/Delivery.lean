import Patchbay.Proofs.Run.Once

/-!
# What runs leave on an end node

A run writes on its way: nodes store what they publish, and an end node stores the frame that it is given.
Nothing but concluding the end node touches what is stored on its frame pin (`Graph.Pulls.stored`,
`Graph.Enters.stored`).

An end node stores on the very pin that it reads. If the pin is unlinked, it reads what is stored there, so
nothing changes. Hence **`Graph.runFrom_delivers`**: an end node keeps the frame that it has unless a run
completes there and its frame pin is linked. No run empties it first.
-/

namespace Patchbay

open Patchbay.Action RunM

/-- The value stored on a pin, if any has been stored. -/
def RunState.Stores (i : PinId) (v : Option Value) (s : RunState) : Prop :=
  s.memory.values.get? i = v

/-- A pin on which the same is stored has the same value. -/
theorem RunState.Stores.value {p : Pin} {s t : RunState}
    (h : t.Stores p.id (s.memory.values.get? p.id)) : t.memory.value p = s.memory.value p :=
  congrArg (Option.getD · p.initial) h

/-! ## Concluding a node -/

namespace Node

variable {i : PinId} {v : Option Value}

/-- An end node has its frame pin. -/
theorem framePin_mem {n : Node} {pins : FinishPins} (hbody : n.body = .finish pins) :
    pins.framePin ∈ n.pins :=
  List.mem_append_left _ (by simp [Node.inputs, hbody, Body.inputs])

/-- Concluding a node stores nothing on pins of other nodes. -/
theorem conclude_stored (g : Graph) {n : Node} (hn : n.body.isBuiltin = true)
    (hi : ∀ p ∈ n.pins, p.id ≠ i) (values : List Value) :
    Keeps (RunState.Stores i v) (n.conclude g values) := by
  intro s hs
  rw [Leaves, RunState.Stores]
  cases n.conclude_written g hn values s with
  | nothing hvalues hcache =>
    rw [hvalues]
    exact hs
  | stored hmem hvalues hcache =>
    rw [hvalues, Table.get?_set, if_neg (hi _ (n.writes_subset hmem))]
    exact hs

end Node

namespace Graph

variable {g : Graph} {i : PinId} {v : Option Value} {s t : RunState}

/-! ## On the way -/

section Stored

variable (hb : g.IsBuiltin) (hi : ∀ n ∈ g.nodes, n.isExit = false → ∀ p ∈ n.pins, p.id ≠ i)
include hb hi

/-- **Asking for data stores nothing on end nodes**, whether it succeeds or not. -/
theorem Pulls.stored {ps : List Pin} {r : Except RunError (List Value)} (h : g.Pulls s ps r t)
    (hs : s.Stores i v) : t.Stores i v := by
  refine h.invariant hb (fun _ _ hs _ => hs) ?_ ?_ hs
  · intro below s n hs hbusy
    rw [hbusy.ended_eq]
    exact hs
  · intro below s t n vs exit hs hbusy hinner hlen hconclude
    obtain ⟨-, hc⟩ := Node.concludes_of_eq (hb n hbusy.mem) hlen hconclude
    have hconcluded := Node.conclude_stored g (hb n hbusy.mem) (hi n hbusy.mem hinner) vs s hs
    rw [Leaves, hconclude] at hconcluded
    rw [(hbusy.conclude hc hinner).ended_eq]
    exact hconcluded

variable {n : Node}

/-- A node that cannot be entered stores nothing on end nodes. -/
theorem Enters.stored_of_error {e : RunError} (h : g.Enters n s (.error e) t) (hs : s.Stores i v) :
    t.Stores i v := by
  cases h with
  | busy mem => exact hs
  | failing idle new executes =>
    cases executes with
    | failing reads => exact reads.stored hb hi hs

/-- Entering a node stores nothing on other end nodes. -/
theorem Enters.stored (hn : n ∈ g.nodes) (hpins : ∀ p ∈ n.pins, p.id ≠ i) {exit : Option PinId}
    (h : g.Enters n s (.ok exit) t) (hs : s.Stores i v) : t.Stores i v := by
  cases h with
  | again idle kept =>
    rw [RunState.Stores, RunState.mark_memory]
    exact hs
  | executing idle new executes =>
    cases executes with
    | @concluding u _ vs _ reads conclude =>
      have hconcluded := Node.conclude_stored g (hb n hn) hpins vs u (reads.stored hb hi hs)
      rw [Leaves, conclude] at hconcluded
      rw [RunState.Stores, RunState.mark_memory]
      exact hconcluded

end Stored

/-! ## At the end node -/

/-- The frame pin belongs to an end node with these pins, if to any node of the graph. -/
def Dedicates (g : Graph) (pins : FinishPins) : Prop :=
  ∀ n ∈ g.nodes, ∀ p ∈ n.pins, p.id = pins.frame → n.body = .finish pins

variable {pins : FinishPins}

/-- An end node of a well-formed graph has its frame pin for itself. -/
theorem WellFormed.dedicates (hg : g.WellFormed) {n : Node} (hn : n ∈ g.nodes)
    (hbody : n.body = .finish pins) : g.Dedicates pins := by
  intro m hm p hp hid
  obtain ⟨rfl, -⟩ := hg.eq_of_pin hm hn hp (Node.framePin_mem hbody) hid
  exact hbody

theorem Dedicates.ne_of_inner (h : g.Dedicates pins) (hb : g.IsBuiltin) :
    ∀ n ∈ g.nodes, n.isExit = false → ∀ p ∈ n.pins, p.id ≠ pins.frame := by
  intro n hn hinner p hp hid
  rw [(Node.isExit_iff (hb n hn)).mpr ⟨pins, h n hn p hp hid⟩] at hinner
  cases hinner

/-- Asking for an unlinked pin alone gives what is known of it, and does nothing. -/
theorem Pulls.of_unlinked {p : Pin} (hsource : g.sourceOf? p = none) {w : Value}
    (hw : g.answer? s p = some w) {vs : List Value} (h : g.Pulls s [p] (.ok vs) t) :
    t = s ∧ vs = [w] := by
  generalize hr : Except.ok vs = r at h
  have hno : ∀ n, ¬g.Awaits s p n := by
    rintro n ⟨q, hq, -, -⟩
    rw [hq.source] at hsource
    cases hsource
  cases h with
  | known answer rest =>
    cases rest
    rw [hw, Option.some.injEq] at answer
    exact ⟨rfl, answer ▸ Except.ok.inj hr⟩
  | cyclic awaits | failing awaits | supplied awaits => exact absurd awaits (hno _)

/-- An input without a link has no source. -/
theorem sourceOf?_of_unlinked {p : Pin} (hdirection : p.direction = .input)
    (hlinked : g.isLinked p.id = false) : g.sourceOf? p = none := by
  have hnone : g.linkTo? p.id = none := List.find?_eq_none.mpr fun l hl hto => by
    have hinvolves := List.any_eq_false.mp hlinked l hl
    simp [Link.involvesPin, hto] at hinvolves
  rw [sourceOf?, hdirection]
  exact congrArg (Option.map Link.fromPin) hnone

end Graph

/-- The run completed at the end node with these pins. -/
def RunReport.EndsAt (r : RunReport) (g : Graph) (pins : FinishPins) : Prop :=
  r.status = .completed ∧ ∃ n ∈ g.nodes, n.body = .finish pins ∧ r.path.getLast? = some n.id

instance (r : RunReport) (g : Graph) (pins : FinishPins) : Decidable (r.EndsAt g pins) :=
  inferInstanceAs (Decidable (_ ∧ _))

namespace FlowPoint

open Patchbay.Graph

variable {g : Graph} (hg : g.WellFormed) (hb : g.IsBuiltin) {pins : FinishPins} {c : FlowPoint}
  {n : Node} (hn : n ∈ g.nodes) {t : RunState} {exit : Option PinId}

include hg hb hn in
/-- An end node whose frame pin is unlinked stores what is stored there. -/
theorem Sound.frame_of_unlinked (hc : c.Sound g) (hbody : n.body = .finish pins)
    (hlinked : g.isLinked pins.frame = false) (h : g.Enters n c.state (.ok exit) t) :
    t.memory.value pins.framePin = c.state.memory.value pins.framePin := by
  have hsource : g.sourceOf? pins.framePin = none := sourceOf?_of_unlinked rfl hlinked
  have hreads : n.reads = [pins.framePin] := by simp [Node.reads, hbody]
  have hmem : pins.framePin ∈ g.pins := reads_subset_pins hn (hreads ▸ List.mem_singleton_self _)
  cases h with
  | again idle kept => rw [RunState.mark_memory]; rfl
  | executing idle new executes =>
    cases executes with
    | concluding reads conclude =>
      rw [hreads] at reads
      have hanswer : g.answer? ((c.state.push n.id).logged n.id) pins.framePin =
          some (c.state.memory.value pins.framePin) :=
        hc.orderly.answer?_of_unlinked hg hb hmem hsource
      obtain ⟨rfl, rfl⟩ := reads.of_unlinked hsource hanswer
      simp only [Node.conclude, hbody] at conclude
      obtain ⟨-, rfl⟩ := Prod.mk.inj conclude
      rw [RunState.mark_memory]
      exact Memory.value_store _ pins.framePin _

variable (hpins : g.Dedicates pins)

include hb hn hpins in
/-- Entering a node that is no end node leaves the frames of end nodes alone. -/
theorem frame_of_inner (hinner : n.isExit = false) (h : g.Enters n c.state (.ok exit) t) :
    t.memory.value pins.framePin = c.state.memory.value pins.framePin := by
  have hne := hpins.ne_of_inner hb
  have hstored : t.Stores pins.frame (c.state.memory.values.get? pins.frame) :=
    h.stored hb hne hn (hne n hn hinner) rfl
  exact hstored.value

include hg hb hpins

/-- Flow on its way leaves the frames of end nodes alone. -/
theorem frame_of_reached {mode : RunMode} {d : FlowPoint} (h : g.Reached mode c d) (hc : c.Sound g) :
    d.state.memory.value pins.framePin = c.state.memory.value pins.framePin := by
  induction h with
  | refl => rfl
  | tail hreached hstep ih =>
    have hsound := sound_of_reached hg hb hreached hc
    cases goes_of_next? hg hb hsound hstep with
    | onward hn hid hinner hrunning henters hfirst =>
      exact (frame_of_inner hb hn hpins hinner henters).trans ih

include hn in
/-- **Entering a node leaves the frame of an end node alone**, unless the node is that end node and its
frame pin is linked. -/
theorem Sound.frame_of_enters (hc : c.Sound g) (h : g.Enters n c.state (.ok exit) t) :
    t.memory.value pins.framePin = c.state.memory.value pins.framePin ∨
      g.isLinked pins.frame = true ∧ n.body = .finish pins := by
  by_cases hbody : n.body = .finish pins
  · cases hlinked : g.isLinked pins.frame with
    | true => exact .inr ⟨rfl, hbody⟩
    | false => exact .inl (hc.frame_of_unlinked hg hb hn hbody hlinked h)
  · have hstored : t.Stores pins.frame (c.state.memory.values.get? pins.frame) :=
      h.stored hb (hpins.ne_of_inner hb) hn (fun p hp hid => hbody (hpins n hn p hp hid)) rfl
    exact .inl hstored.value

/-- The end of a walk leaves the frame of an end node alone, unless flow gets to that end node and its
frame pin is linked. -/
theorem Ends.frame {r : Except RunError (RunStatus × List NodeId)} (h : c.Ends g r t)
    (hc : c.Sound g) :
    t.memory.value pins.framePin = c.state.memory.value pins.framePin ∨
      g.isLinked pins.frame = true ∧ ∃ n ∈ g.nodes, n.body = .finish pins ∧
        r = .ok (.completed, c.path ++ [n.id]) := by
  cases h with
  | stopped raised => exact .inl rfl
  | failed hn hid running enters =>
    have hstored : t.Stores pins.frame (c.state.memory.values.get? pins.frame) :=
      enters.stored_of_error hb (hpins.ne_of_inner hb) rfl
    exact .inl hstored.value
  | completed hn hid outer running enters =>
    refine (hc.frame_of_enters hg hb hn hpins enters).imp_right fun ⟨hlinked, hbody⟩ => ?_
    exact ⟨hlinked, _, hn, hbody, by rw [hid]⟩
  | halted hn hid inner running enters nowhere =>
    exact .inl (frame_of_inner hb hn hpins inner enters)

end FlowPoint

namespace Graph

variable {g : Graph} (hg : g.WellFormed) (hb : g.IsBuiltin) {pins : FinishPins}
  (hpins : g.Dedicates pins) (mode : RunMode) {s : RunState} (hs : s.stack = [])
include hg hb hpins hs

/-! ## Runs -/

/-- **What an end node has stays until a run delivers a frame to it.** However a run goes, it leaves the
frame of an end node as it was, unless it completes at that node and the frame pin is linked. -/
theorem runFrom_delivers (start : NodeId) :
    (g.runFrom mode start s).2.memory.value pins.framePin = s.memory.value pins.framePin ∨
      g.isLinked pins.frame = true ∧
        ∃ r, (g.runFrom mode start s).1 = .ok r ∧ r.EndsAt g pins := by
  cases hstart : g.hasNode start with
  | false =>
    rw [runFrom_absent g mode hs hstart]
    exact .inl rfl
  | true =>
    obtain ⟨d, r, t, hreached, hsound, -, hends, hrun⟩ :=
      runFrom_spec hg hb mode (hasNode_iff.mp hstart) hs
    have hbegin := FlowPoint.sound_begin (g := g) hs (hasNode_iff.mp hstart)
    have hd : d.state.memory.value pins.framePin = s.memory.value pins.framePin :=
      FlowPoint.frame_of_reached hg hb hpins hreached hbegin
    have hconclusion : (conclusion r t).2.memory = t.memory := by
      cases r <;> rfl
    rw [hrun, hconclusion, ← hd]
    refine (hends.frame hg hb hpins hsound).imp_right fun ⟨hlinked, n, hn, hbody, hr⟩ => ?_
    rw [hr]
    exact ⟨hlinked, _, rfl, rfl, n, hn, hbody, List.getLast?_concat⟩

/-- The same holds of a run from the entry node. -/
theorem run_delivers :
    (g.run mode s).2.memory.value pins.framePin = s.memory.value pins.framePin ∨
      g.isLinked pins.frame = true ∧ ∃ r, (g.run mode s).1 = .ok r ∧ r.EndsAt g pins := by
  rw [run]
  cases g.checkRunnable with
  | error e => exact .inl rfl
  | ok entry => exact runFrom_delivers hg hb hpins mode hs entry

end Graph

end Patchbay
