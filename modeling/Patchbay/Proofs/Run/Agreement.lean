import Patchbay.Proofs.Run.Determined
import Patchbay.Proofs.Run.Ending
import Patchbay.Proofs.Run.Mirror

/-!
# Graphs that run alike

A graph and the same graph with its pins renamed run alike, each from a state of its own, as long as both
find the unlinked inputs as they were made: **`Graph.Renamed.runFrom_agree`**. The outcome is the same to
the letter, for no outcome over built-in nodes mentions a pin, and the end node at which both complete is
given the same frame.

What a run comes to does not depend on the rest of the state (`Graph.ComesTo`), so both runs can be
compared from a state without a past, which no renaming changes. There one mirrors the other.
-/

namespace Patchbay

namespace Graph

/-- Runs from `start` over the graph, that find the unlinked inputs as they were made, have this outcome
and write these values. -/
def ComesTo (g : Graph) (mode : RunMode) (start : NodeId) (stopped : Bool)
    (outcome : Except RunError RunReport) (written : PinId → Option Value) : Prop :=
  ∀ s, s.stack = [] → s.stopped = stopped → g.Resembles .empty s.memory →
    (g.runFrom mode start s).1 = outcome ∧
      ∀ i, (g.runFrom mode start s).2.memory.values.get? i =
        (written i).or (s.memory.values.get? i)

/-- Nothing has run in this state yet, and the unlinked inputs of the graph keep what they were made
with. -/
structure Pristine (g : Graph) (s : RunState) : Prop where
  stack : s.stack = []
  executed : s.executed = []
  memory : g.Resembles .empty s.memory

/-- Two runs agree: they have the same outcome, and an end node that the first one has executed has been
executed by the second one as well and has been given the same frame. -/
structure Agree (g g' : Graph) (x x' : Except RunError RunReport × RunState) : Prop where
  outcome : x'.1 = x.1
  finish : ∀ n ∈ g.nodes, ∀ pins, n.body = .finish pins → n.id ∈ x.2.executed →
    ∃ n' ∈ g'.nodes, ∃ pins', n'.id = n.id ∧ n'.body = .finish pins' ∧ n'.id ∈ x'.2.executed ∧
      x'.2.memory.value pins'.framePin = x.2.memory.value pins.framePin

variable {g : Graph} (mode : RunMode) (start : NodeId) (stopped : Bool)

theorem exists_comesTo (hb : g.IsBuiltin) :
    ∃ outcome written, g.ComesTo mode start stopped outcome written := by
  obtain ⟨outcome, c, -, hrun⟩ := runFrom_settled hb start .empty stopped
  refine ⟨outcome, fun i => c.memory.values.get? i, fun s hstack hstopped hmemory => ?_⟩
  obtain ⟨t, ht, -, -, -, hvalues⟩ := hrun mode s hstack hstopped hmemory
  rw [ht]
  exact ⟨rfl, hvalues⟩

/-- A memory without a past keeps the unlinked inputs as they were made. -/
theorem resembles_empty (g : Graph) : g.Resembles .empty .empty :=
  ⟨Memory.coherent_empty, fun _ _ _ => rfl⟩

theorem pristine_initial (g : Graph) : g.Pristine (.initial .empty) :=
  ⟨rfl, rfl, g.resembles_empty⟩

namespace Renamed

variable {σ : Equiv.Perm PinId} {g' : Graph} (h : Graph.Renamed σ g g') (hg : g.WellFormed)
  (hb : g.IsBuiltin) {mode start stopped}
include h hg hb

/-- **What a run comes to does not depend on the identities of pins**, and it writes the same values to
the renamed pins. -/
theorem comesTo (hstart : start ∈ g.nodeIds) {outcome : Except RunError RunReport}
    {written : PinId → Option Value} (hcomes : g.ComesTo mode start stopped outcome written) :
    ∃ written', g'.ComesTo mode start stopped outcome written' ∧
      ∀ i, written' (σ i) = written i := by
  obtain ⟨outcome', written', hcomes'⟩ :=
    exists_comesTo (g := g') mode start stopped (h.isBuiltin hb)
  obtain ⟨hleft, hvalues⟩ := hcomes (.blank stopped) rfl rfl g.resembles_empty
  obtain ⟨hright, hvalues'⟩ := hcomes' (.blank stopped) rfl rfl g'.resembles_empty
  -- renaming changes nothing in a state without a past
  have hmirror : g'.runFrom mode start (.blank stopped) = _ :=
    h.runFrom hb mode start (.blank stopped)
  rw [hmirror] at hright hvalues'
  have hsame : outcome' = outcome := by
    rw [← hright, ← hleft]
    cases hrun : (g.runFrom mode start (.blank stopped)).1 with
    | ok report => rfl
    | error e =>
      obtain ⟨n, stack, rfl⟩ := (runFrom_failsOverCycles hg hb mode hstart rfl).1 e hrun
      rfl
  refine ⟨written', hsame ▸ hcomes', fun i => ?_⟩
  have hrenamed : (written' (σ i)).or none = (written i).or none :=
    (hvalues' (σ i)).symm.trans ((Table.get?_rename σ _ i).trans (hvalues i))
  simpa using hrenamed

variable (hg' : g'.WellFormed) {u u' : RunState} (hu : g.Pristine u) (hu' : g'.Pristine u')
  (hstopped : u'.stopped = u.stopped)
include hg' hu hu' hstopped

/-- **Runs from a node agree.** -/
theorem runFrom_agree (mode : RunMode) (start : NodeId) :
    Agree g g' (g.runFrom mode start u) (g'.runFrom mode start u') := by
  cases hstart : g.hasNode start with
  | false =>
    rw [g.runFrom_absent mode hu.stack hstart,
      g'.runFrom_absent mode hu'.stack (h.hasNode start ▸ hstart)]
    exact ⟨rfl, fun n _ pins _ hex => by simp [hu.executed] at hex⟩
  | true =>
    have hmem := hasNode_iff.mp hstart
    have hmem' : start ∈ g'.nodeIds := hasNode_iff.mp (h.hasNode start ▸ hstart)
    obtain ⟨outcome, written, hcomes⟩ := exists_comesTo mode start u.stopped hb
    obtain ⟨written', hcomes', hwritten⟩ := h.comesTo hg hb hmem hcomes
    obtain ⟨hleft, hvalues⟩ := hcomes u hu.stack rfl hu.memory
    obtain ⟨hright, hvalues'⟩ := hcomes' u' hu'.stack hstopped hu'.memory
    refine ⟨hright.trans hleft.symm, fun n hn pins hbody hex => ?_⟩
    obtain ⟨report, hreport, hends⟩ := (runFrom_finish hg hb mode hmem hu.stack hn hbody).1.mp hex
    obtain ⟨n', hn', hnn⟩ := exists_mem_right h.nodes hn
    have hbody' : n'.body = .finish (pins.rename σ) := by
      rw [hnn.body, hbody]
      rfl
    refine ⟨n', hn', _, hnn.id, hbody', ?_, ?_⟩
    · refine (runFrom_finish hg' (h.isBuiltin hb) mode hmem' hu'.stack hn' hbody').1.mpr
        ⟨report, ?_, hnn.id.symm ▸ hends⟩
      rw [hright, ← hleft, hreport]
    · -- the run from a state without a past completes at the node too, so the frame is written
      obtain ⟨hblank, hblankValues⟩ := hcomes (.blank u.stopped) rfl rfl g.resembles_empty
      have hstored := (runFrom_finish hg hb mode hmem (s := .blank u.stopped) rfl hn hbody)
      have hwrote := hstored.2 (hstored.1.mpr ⟨report, by rw [hblank, ← hleft, hreport], hends⟩)
      rw [hblankValues] at hwrote
      have hframe : (written pins.frame).isSome := by
        simpa [RunState.blank, RunState.initial, Memory.empty] using hwrote
      obtain ⟨v, hv⟩ := Option.isSome_iff_exists.mp hframe
      simp [Memory.value, FinishPins.framePin, Pin.input, hvalues, hvalues', FinishPins.rename,
        hwritten, hv]

/-- **Runs from the entry node agree.** -/
theorem run_agree (mode : RunMode) : Agree g g' (g.run mode u) (g'.run mode u') := by
  rw [run, run, h.checkRunnable]
  cases g.checkRunnable with
  | error reason => exact ⟨rfl, fun n _ pins _ hex => by simp [hu.executed] at hex⟩
  | ok entry => exact h.runFrom_agree hg hb hg' hu hu' hstopped mode entry

end Renamed

end Graph

end Patchbay
