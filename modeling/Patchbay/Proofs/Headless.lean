import Patchbay.Headless
import Patchbay.Proofs.Document.Merging
import Patchbay.Proofs.Document.Restored
import Patchbay.Proofs.Run.Determined
import Patchbay.Proofs.Session.Telling

/-!
# What a headless run comes to

Each override of a headless run is followed by a run of the graph, and there are one or two runs more. All of
them share one memory. None sees that another has been there: a run leaves on unlinked inputs what they keep
(`Graph.run_outcome`), and it reads nothing else. So what a run comes to is settled by the graph and the
overrides that are stored by then (`Graph.outcome`, `Graph.overridden`), and the graph itself stays as it was
loaded. `Headless.Stands` says so of a session; overrides and runs keep it.

**`Headless.perform_settled`** draws the consequences for the report and for the file that is written.
-/

namespace Patchbay

open Patchbay.Action

/-! ## Runs of the whole graph -/

namespace Graph

variable {g : Graph} {m m' : Memory}

/-- What a run comes to that finds memory `m`. -/
def outcome (g : Graph) (m : Memory) : Except RunError RunReport :=
  (g.run Session.runMode (.initial m)).1

theorem Resembles.store (h : g.Resembles m m') (i : PinId) (v : Value) :
    g.Resembles (m.store i v) (m'.store i v) where
  coherent := h.coherent.store i v
  value p hp hp' := by
    have hvalue := h.value p hp hp'
    simp only [Memory.value, Memory.store, Table.get?_set] at hvalue ⊢
    split_ifs
    · rfl
    · exact hvalue

/-- A run leaves on unlinked inputs what they keep. -/
theorem Undisturbed.resembles {stopped : Bool} {c : RunState} (hc : g.Undisturbed m stopped c)
    (hids : (g.pins.map Pin.id).Nodup) {before after : Memory} (hbefore : g.Resembles m before)
    (hafter : after.Coherent)
    (hvalues : ∀ i, after.values.get? i = (c.memory.values.get? i).or (before.values.get? i)) :
    g.Resembles m after where
  coherent := hafter
  value p hp hp' := by
    rw [Memory.value, hvalues]
    cases hstored : c.memory.values.get? p.id with
    | none => exact hbefore.value p hp hp'
    | some v => exact (hc.unlinked hids p hp hp').2 v hstored

/-- **A run comes to the same in every memory that resembles `m`**, in any mode, and leaves a memory that
does so too. -/
theorem run_outcome (hb : g.IsBuiltin) (hids : (g.pins.map Pin.id).Nodup) (hm : m.Coherent)
    (h : g.Resembles m m') (mode : RunMode) :
    ∃ t, g.run mode (.initial m') = (g.outcome m, t) ∧ g.Resembles m t.memory := by
  rw [outcome, run]
  cases hentry : g.checkRunnable with
  | error e => exact ⟨.initial m', by simp only [run, hentry]; rfl, h⟩
  | ok entry =>
    obtain ⟨outcome, c, hc, hrun⟩ := runFrom_settled hb entry m false
    obtain ⟨t, ht, -, -, hcoherent, hvalues⟩ := hrun mode (.initial m') rfl rfl h
    obtain ⟨u, hu, -⟩ := hrun Session.runMode (.initial m) rfl rfl ⟨hm, fun _ _ _ => rfl⟩
    refine ⟨t, ?_, hc.resembles hids h hcoherent hvalues⟩
    simp only [run, hentry, ht, hu]

/-! ## Overrides -/

/-- The pin that an override is for. -/
def overriddenPin? (g : Graph) (o : PinOverride) : Option Pin := do
  g.findPin? (← Headless.nodeNamed? g o.node) .input o.pin

def override (g : Graph) (m : Memory) (o : PinOverride) : Memory :=
  match g.overriddenPin? o with
  | some p => m.store p.id (.float o.value.toSingle)
  | none => m

/-- The memory that holds overrides and nothing else. -/
def overridden (g : Graph) (overrides : List PinOverride) : Memory := overrides.foldl g.override .empty

end Graph

namespace Headless

/-! ## Sessions of headless runs -/

/-- The session has graph `g`, and the memory is like `m` as far as runs are concerned. -/
structure Stands (g : Graph) (m : Memory) (s : Session) : Prop where
  graph : s.graph = g
  observer : s.observer = some hostObserver
  coherent : m.Coherent
  memory : g.Resembles m s.memory

/-- The session after an override, before the graph is run. -/
theorem Stands.override {g : Graph} {m : Memory} {s : Session} (h : Stands g m s) {o : PinOverride}
    {n : NodeId} {p : Pin} (hnode : nodeNamed? g o.node = some n)
    (hpin : g.findPin? n .input o.pin = some p) :
    Stands g (g.override m o) { s with memory := s.memory.store p.id (.float o.value.toSingle) } := by
  have hstored : g.override m o = m.store p.id (.float o.value.toSingle) := by
    simp only [Graph.override, Graph.overriddenPin?, hnode, Option.bind_eq_bind, Option.bind_some, hpin]
  rw [hstored]
  exact ⟨h.graph, h.observer, h.coherent.store _ _, h.memory.store _ _⟩

theorem Stands.informed {g : Graph} {m : Memory} {s : Session} (h : Stands g m s) (notice : Notice) :
    Stands g m (s.informed notice) := by
  rw [Session.informed]
  split <;> exact ⟨h.graph, h.observer, h.coherent, h.memory⟩

/-- How a session reacts to a run that it has been asked for. -/
def reactionTo : Except RunError RunReport → Reaction
  | .ok r => .ran r
  | .error e => .runFailed e

section Runs

variable {g : Graph} {m : Memory} {s : Session} (hb : g.IsBuiltin)
  (hids : (g.pins.map Pin.id).Nodup) (h : Stands g m s)
include hb hids h

theorem performRun_stands (mode : RunMode) :
    ∃ t, s.performRun (s.graph.run mode) = (g.outcome m, t) ∧ Stands g m t := by
  obtain ⟨t, ht, hmemory⟩ := Graph.run_outcome hb hids h.coherent h.memory mode
  refine ⟨{ s with memory := t.memory, notes := s.notes ++ t.notes }, ?_,
    ⟨h.graph, h.observer, h.coherent, hmemory⟩⟩
  rw [Session.performRun, h.graph, ht]

theorem runGraph_stands : ∃ t, s.runGraph = (g.outcome m, t) ∧ Stands g m t :=
  performRun_stands hb hids h Session.runMode

/-- Telling the observer that a parameter has changed makes the graph run. -/
theorem tell_stands (notice : Notice) (hkind : notice.kind = .paramChanged) :
    ∃ t, s.tell notice = (reactionTo (g.outcome m), t) ∧ Stands g m t := by
  have hanswer : Observer.answer s.observer notice = .runAgain := by
    simp only [h.observer, Observer.answer, hostObserver, hkind]
  obtain ⟨t, ht, hstands⟩ := runGraph_stands hb hids (h.informed notice)
  refine ⟨t, ?_, hstands⟩
  rw [Session.informed] at ht
  simp only [Session.tell, hanswer, ht]
  cases g.outcome m <;> rfl

/-- An override that is applied is followed by a run. -/
theorem applyOverride_stands {path : String} {o : PinOverride} {r : Option RunReport} {t : Session}
    (happly : applyOverride path o s = .ok (r, t)) :
    (∃ report, r = some report ∧ g.outcome (g.override m o) = .ok report) ∧
      Stands g (g.override m o) t := by
  rw [applyOverride, h.graph] at happly
  cases hnode : nodeNamed? g o.node with
  | none =>
    rw [hnode] at happly
    cases happly
  | some n =>
    rw [hnode] at happly
    dsimp only at happly
    rcases Edit.performs_stored (s := s) n o.pin (.float o.value.toSingle) with
      ⟨refusal, hset⟩ | ⟨stored, _, hmakes, -, hset⟩
    · rw [hset] at happly
      cases happly
    · obtain ⟨p, hpin, rfl⟩ := hmakes.of_setInput
      obtain ⟨u, hu, hstands⟩ := tell_stands hb hids (h.override hnode (h.graph ▸ hpin))
        (Edit.notice (.setInput n o.pin (.float o.value.toSingle)) s _ _) rfl
      rw [hset, hu] at happly
      cases hrun : g.outcome (g.override m o) with
      | error e =>
        rw [hrun] at happly
        cases happly
      | ok report =>
        rw [hrun] at happly
        cases happly
        exact ⟨⟨report, rfl, rfl⟩, hstands⟩

end Runs

/-- What comes last has a value only if what comes first has one. -/
theorem exists_of_bind {α β : Type} {x : Except HeadlessError α} {f : α → Except HeadlessError β}
    {b : β} (h : x >>= f = .ok b) : ∃ a, x = .ok a ∧ f a = .ok b := by
  cases x with
  | error e => cases h
  | ok a => exact ⟨a, rfl, h⟩

/-- **Overrides that are applied are followed by one run each**, which depends on the overrides so far. -/
theorem applyOverrides_stands {g : Graph} (hb : g.IsBuiltin) (hids : (g.pins.map Pin.id).Nodup)
    {path : String} {overrides : List PinOverride} {m : Memory} {s : Session} (h : Stands g m s)
    {rs : List RunReport} {t : Session} (happly : applyOverrides path overrides s = .ok (rs, t)) :
    rs.length = overrides.length ∧
      (∀ k r, rs[k]? = some r → g.outcome ((overrides.take (k + 1)).foldl g.override m) = .ok r) ∧
        Stands g (overrides.foldl g.override m) t := by
  induction overrides generalizing m s rs t with
  | nil =>
    cases happly
    exact ⟨rfl, fun k r hr => by simp at hr, h⟩
  | cons o rest ih =>
    obtain ⟨⟨r, u⟩, hfirst, happly⟩ := exists_of_bind happly
    obtain ⟨⟨reports, v⟩, hrest, happly⟩ := exists_of_bind happly
    cases happly
    obtain ⟨⟨report, rfl, hreport⟩, hstands⟩ := applyOverride_stands hb hids h hfirst
    obtain ⟨hlength, hreports, hlast⟩ := ih hstands hrest
    refine ⟨congrArg Nat.succ hlength, fun k r hr => ?_, hlast⟩
    cases k with
    | zero =>
      cases hr
      exact hreport
    | succ k => exact hreports k r hr

/-! ## The last runs -/

/-- The last runs in the other order: the one in the background comes first. -/
def backgroundFirst (preview : Bool) (s : Session) :
    Except HeadlessError (RunReport × Option RunReport) :=
  let (background, s) :=
    if preview then
      let (r, s) := s.performRun (s.graph.run previewMode)
      (r.map some, s)
    else (.ok none, s)
  match background, s.runGraph.1 with
  | .error e, _ => .error (.run e)
  | .ok _, .error e => .error (.run e)
  | .ok p, .ok f => .ok (f, p)

/-- What the last runs come to if both come to `r`. -/
def lastRuns (preview : Bool) (r : Except RunError RunReport) :
    Except HeadlessError (RunReport × Option RunReport) :=
  (r.mapError .run).map fun r => (r, if preview then some r else none)

section LastRuns

variable {g : Graph} {m : Memory} {s : Session} (hb : g.IsBuiltin)
  (hids : (g.pins.map Pin.id).Nodup) (h : Stands g m s) (preview : Bool)
include hb hids h

theorem runBoth_eq : runBoth preview s = lastRuns preview (g.outcome m) := by
  obtain ⟨t, ht, hstands⟩ := runGraph_stands hb hids h
  obtain ⟨u, hu, -⟩ := performRun_stands hb hids hstands previewMode
  rw [runBoth, ht]
  dsimp only
  rw [hu]
  cases preview <;> cases g.outcome m <;> rfl

theorem backgroundFirst_eq : backgroundFirst preview s = lastRuns preview (g.outcome m) := by
  obtain ⟨t, ht, hstands⟩ := performRun_stands hb hids h previewMode
  obtain ⟨u, hu, -⟩ := runGraph_stands hb hids hstands
  obtain ⟨v, hv, -⟩ := runGraph_stands hb hids h
  rw [backgroundFirst, ht]
  cases preview with
  | false =>
    simp only [Bool.false_eq_true, if_false, hv]
    cases g.outcome m <;> rfl
  | true =>
    simp only [if_true, hu]
    cases g.outcome m <;> rfl

end LastRuns

/-! ## Headless runs -/

/-- The identities that loading a graph draws from the supply differ from each other. -/
def Distinct (supply : Supply) (graphText : Option String) : Prop :=
  ∀ loaded, Graph.loadText .builtin supply graphText = .ok loaded →
    ∀ i j, supply.next ≤ i → i < j → j < loaded.supply.next → supply.draw i ≠ supply.draw j

/-- What stands before the last runs if the graph has been loaded as `loaded`. -/
structure Prepared (settings : Settings) (loaded : Loading) (load : LoadReport)
    (reruns : List RunReport) (s : Session) : Prop where
  load : load = loaded.report
  builtin : loaded.graph.IsBuiltin
  pins_nodup : (loaded.graph.pins.map Pin.id).Nodup
  length : reruns.length = settings.overrides.length
  rerun : ∀ k r, reruns[k]? = some r →
    loaded.graph.outcome (loaded.graph.overridden (settings.overrides.take (k + 1))) = .ok r
  stands : Stands loaded.graph (loaded.graph.overridden settings.overrides) s

/-- The session that begins with a loaded graph. -/
def begun (supply : Supply) (loaded : Loading) : Session :=
  { Session.new .builtin supply with graph := loaded.graph, supply := loaded.supply }

theorem loadText_eq (supply : Supply) (graphText : Option String) :
    Session.loadText graphText (.new .builtin supply) =
      match Graph.loadText .builtin supply graphText with
      | .error e => (.error (.load e), .new .builtin supply)
      | .ok loaded => (.ok loaded.report, begun supply loaded) := by
  show Session.adopt .empty (Graph.loadText .builtin supply graphText) _ = _
  cases Graph.loadText .builtin supply graphText <;> rfl

theorem begun_stands (supply : Supply) (loaded : Loading) :
    Stands loaded.graph .empty { begun supply loaded with observer := some hostObserver } :=
  ⟨rfl, rfl, Memory.coherent_empty, Memory.coherent_empty, fun _ _ _ => rfl⟩

section Run

variable {settings : Settings} {graphText : Option String} {supply : Supply}
  (hdistinct : Distinct supply graphText)
include hdistinct

theorem prepare_prepared {load : LoadReport} {reruns : List RunReport} {s : Session}
    (h : prepare settings graphText supply = .ok (load, reruns, s)) :
    ∃ loaded, Graph.loadText .builtin supply graphText = .ok loaded ∧
      Prepared settings loaded load reruns s := by
  rw [prepare, loadText_eq] at h
  cases hpath : settings.graphPath with
  | none =>
    rw [hpath] at h
    cases h
  | some path =>
    cases hload : Graph.loadText .builtin supply graphText with
    | error e =>
      rw [hpath, hload] at h
      cases h
    | ok loaded =>
      rw [hpath, hload] at h
      obtain ⟨doc, hdoc⟩ := Graph.load_of_loadText hload
      have hbuiltin := (Graph.load_builtin hdoc).1
      have hhealthy := Graph.merge_healthy (Graph.healthy_empty _ (hdistinct loaded hload)) hdoc
      have hids := (hhealthy.wellFormed le_rfl).pins_nodup
      obtain ⟨⟨rs, t⟩, happly, h⟩ := exists_of_bind h
      cases h
      obtain ⟨hlength, hrerun, hlast⟩ :=
        applyOverrides_stands hbuiltin hids (begun_stands supply loaded) happly
      exact ⟨loaded, rfl, rfl, hbuiltin, hids, hlength, hrerun, hlast⟩

/-- A headless run fails before the last runs, or it gets there, and they come to the same in either order. -/
theorem runWith_cases (settings : Settings) :
    (∃ e, prepare settings graphText supply = .error e) ∨
      ∃ loaded load reruns s, Graph.loadText .builtin supply graphText = .ok loaded ∧
        Prepared settings loaded load reruns s ∧
        prepare settings graphText supply = .ok (load, reruns, s) ∧
        ∀ both ∈ [runBoth, backgroundFirst], ∀ preview,
          both preview s = lastRuns preview
            (loaded.graph.outcome (loaded.graph.overridden settings.overrides)) := by
  cases hprepare : prepare settings graphText supply with
  | error e => exact .inl ⟨e, rfl⟩
  | ok x =>
    obtain ⟨load, reruns, s⟩ := x
    obtain ⟨loaded, hload, h⟩ := prepare_prepared hdistinct hprepare
    refine .inr ⟨loaded, load, reruns, s, hload, h, rfl, fun both hboth preview => ?_⟩
    simp only [List.mem_cons, List.not_mem_nil, or_false] at hboth
    rcases hboth with rfl | rfl
    · exact runBoth_eq h.builtin h.pins_nodup h.stands preview
    · exact backgroundFirst_eq h.builtin h.pins_nodup h.stands preview

end Run

theorem runWith_refused {settings : Settings} {graphText : Option String} {supply : Supply}
    {e : HeadlessError} (h : prepare settings graphText supply = .error e)
    (both : Bool → Session → Except HeadlessError (RunReport × Option RunReport)) :
    runWith both settings graphText supply = .error e := by
  rw [runWith, h]
  rfl

theorem runWith_prepared {settings : Settings} {graphText : Option String} {supply : Supply}
    {load : LoadReport} {reruns : List RunReport} {s : Session}
    (h : prepare settings graphText supply = .ok (load, reruns, s))
    (both : Bool → Session → Except HeadlessError (RunReport × Option RunReport)) :
    runWith both settings graphText supply = (both settings.backgroundPreview s).map fun last =>
      { load, reruns, foreground := last.1, preview := last.2
        saving := settings.savePath.map fun path => (path, s.graph.saveText) } := by
  rw [runWith, h]
  simp only [bind, Except.bind]
  cases both settings.backgroundPreview s <;> rfl

/-! ## Files -/

/-- Writes a text on a host that accepts texts for certain paths and records whatever is written. -/
def record (accepts : String → Bool) (path text : String) :
    StateM (List (String × String)) Bool := do
  modify (· ++ [(path, text)])
  return accepts path

/-- Performs a headless run on such a host, which has certain files. Also gives what is written, in order. -/
def performOn (files : String → Option String) (accepts : String → Bool) (settings : Settings)
    (supply : Supply) : Except HeadlessError HeadlessReport × List (String × String) :=
  perform (fun path => pure (files path)) (record accepts) settings supply []

theorem performOn_eq (files : String → Option String) (accepts : String → Bool)
    (settings : Settings) (supply : Supply) : performOn files accepts settings supply =
      save (record accepts) (run settings (settings.graphPath.bind files) supply) [] := by
  rw [performOn, perform]
  cases settings.graphPath <;> rfl

/-- A run that ends well has saved what there was to save. -/
theorem written_of_save {accepts : String → Bool} {result : Except HeadlessError HeadlessReport}
    {report : HeadlessReport} {written : List (String × String)}
    (h : save (record accepts) result [] = (.ok report, written)) :
    result = .ok report ∧ written = report.saving.toList := by
  cases result with
  | error e => cases h
  | ok found =>
    rw [save] at h
    cases hsaving : found.saving with
    | none =>
      rw [hsaving] at h
      cases h
      exact ⟨rfl, by rw [hsaving]; rfl⟩
    | some saved =>
      obtain ⟨path, text⟩ := saved
      rw [hsaving] at h
      change (if accepts path then pure (.ok found) else pure (.error .unwritable) :
        StateM (List (String × String)) (Except HeadlessError HeadlessReport)) [(path, text)] = _ at h
      split_ifs at h
      · cases h
        exact ⟨rfl, by rw [hsaving]; rfl⟩
      · cases h

section Run

variable {settings : Settings} {graphText : Option String} {supply : Supply}
  (hdistinct : Distinct supply graphText)
include hdistinct

/-- The report of a headless run, if there is one. -/
theorem run_reports {report : HeadlessReport} (h : run settings graphText supply = .ok report) :
    ∃ loaded, Graph.loadText .builtin supply graphText = .ok loaded ∧
      report.load = loaded.report ∧
      report.reruns.length = settings.overrides.length ∧
      (∀ k r, report.reruns[k]? = some r → loaded.graph.outcome
        (loaded.graph.overridden (settings.overrides.take (k + 1))) = .ok r) ∧
      loaded.graph.outcome (loaded.graph.overridden settings.overrides) = .ok report.foreground ∧
      report.preview = (if settings.backgroundPreview then some report.foreground else none) ∧
      report.saving = settings.savePath.map fun path => (path, loaded.graph.saveText) := by
  rcases runWith_cases hdistinct settings with
    ⟨e, hprepare⟩ | ⟨loaded, load, reruns, s, hload, hs, hprepare, hlast⟩
  · rw [run, runWith_refused hprepare] at h
    cases h
  · rw [run, runWith_prepared hprepare, hlast runBoth (by simp)] at h
    cases hrun : loaded.graph.outcome (loaded.graph.overridden settings.overrides) with
    | error e =>
      rw [hrun] at h
      cases h
    | ok foreground =>
      rw [hrun] at h
      cases h
      exact ⟨loaded, hload, hs.load, hs.length, hs.rerun, hrun, rfl, by rw [hs.stands.graph]⟩

/-- It does not matter which of the last runs is first. -/
theorem runWith_backgroundFirst :
    runWith backgroundFirst settings graphText supply = run settings graphText supply := by
  rcases runWith_cases hdistinct settings with
    ⟨e, hprepare⟩ | ⟨loaded, load, reruns, s, -, -, hprepare, hlast⟩
  · rw [run, runWith_refused hprepare, runWith_refused hprepare]
  · rw [run, runWith_prepared hprepare, runWith_prepared hprepare, hlast backgroundFirst (by simp),
      hlast runBoth (by simp)]

/-- The run in the background adds its report and has no other effect. -/
theorem run_preview : run { settings with backgroundPreview := true } graphText supply =
    (run { settings with backgroundPreview := false } graphText supply).map
      fun report => { report with preview := some report.foreground } := by
  -- what comes before the last runs does not depend on the preview
  have hsame : ∀ preview, prepare { settings with backgroundPreview := preview } graphText supply =
      prepare settings graphText supply := fun _ => rfl
  rcases runWith_cases hdistinct settings with
    ⟨e, hprepare⟩ | ⟨loaded, load, reruns, s, -, -, hprepare, hlast⟩
  · rw [run, runWith_refused ((hsame true).trans hprepare),
      runWith_refused ((hsame false).trans hprepare)]
    rfl
  · rw [run, runWith_prepared ((hsame true).trans hprepare),
      runWith_prepared ((hsame false).trans hprepare), hlast runBoth (by simp),
      hlast runBoth (by simp)]
    cases loaded.graph.outcome (loaded.graph.overridden settings.overrides) <;> rfl

end Run

/-- **Nothing in a headless run disturbs anything else.** There is one report for each override, of a run that
depends on the overrides up to it. The run in the foreground comes to what the last of these runs has come to,
and the one in the background to the same, whichever is first and with no effect on anything else. What is
saved is the graph as it was loaded. If anything fails before that, nothing is written. -/
theorem perform_settled (settings : Settings) (files : String → Option String)
    (accepts : String → Bool) (supply : Supply)
    (hdistinct : Distinct supply (settings.graphPath.bind files)) :
    (∀ report written, performOn files accepts settings supply = (.ok report, written) →
      ∃ loaded, Graph.loadText .builtin supply (settings.graphPath.bind files) = .ok loaded ∧
        report.load = loaded.report ∧
        report.reruns.length = settings.overrides.length ∧
        (∀ k r, report.reruns[k]? = some r → loaded.graph.outcome
          (loaded.graph.overridden (settings.overrides.take (k + 1))) = .ok r) ∧
        (∀ last ∈ report.reruns.getLast?, report.foreground = last) ∧
        report.preview = (if settings.backgroundPreview then some report.foreground else none) ∧
        written = (settings.savePath.map fun path => (path, loaded.graph.saveText)).toList) ∧
      runWith backgroundFirst settings (settings.graphPath.bind files) supply =
        run settings (settings.graphPath.bind files) supply ∧
      run { settings with backgroundPreview := true } (settings.graphPath.bind files) supply =
        (run { settings with backgroundPreview := false } (settings.graphPath.bind files) supply).map
          (fun report => { report with preview := some report.foreground }) ∧
      ∀ e, run settings (settings.graphPath.bind files) supply = .error e →
        performOn files accepts settings supply = (.error e, []) := by
  refine ⟨fun report written h => ?_, runWith_backgroundFirst hdistinct, run_preview hdistinct,
    fun e he => by rw [performOn_eq, he]; rfl⟩
  rw [performOn_eq] at h
  obtain ⟨hrun, hwritten⟩ := written_of_save h
  obtain ⟨loaded, hload, hreport, hlength, hreruns, hforeground, hpreview, hsaving⟩ :=
    run_reports hdistinct hrun
  refine ⟨loaded, hload, hreport, hlength, hreruns, fun last hlast => ?_, hpreview,
    hwritten.trans (by rw [hsaving])⟩
  -- the last of the runs has come after all overrides
  rw [List.getLast?_eq_getElem?] at hlast
  have hran := hreruns _ _ hlast
  rw [List.take_of_length_le (by omega), hforeground] at hran
  exact Except.ok.inj hran

/-- A start node that leads to an end node. -/
def exampleText : String :=
  let flow : Loading.LinkEntry := ⟨⟨.ofNat 1⟩, "Start", ⟨.ofNat 2⟩, "End"⟩
  (Json.ofFields
    [("version", .ofNat 1),
      ("nodes", .array [Graph.exampleEntry "Start" 1 [], Graph.exampleEntry "End" 2 []]),
      ("links", .array [flow.toJson])]).compact

/-- Two overrides for the same pin, and everything else that settings can ask for. -/
def exampleSettings : Settings :=
  { Settings.standard with
    graphPath := some "graph.json", savePath := some "saved.json", backgroundPreview := true
    overrides := [⟨"End", "In", .number 1⟩, ⟨"End", "In", .number 2⟩] }

theorem exampleSettings_settled : ∃ loaded report written,
    Graph.loadText .builtin (.countingFrom 100) (some exampleText) = .ok loaded ∧
      performOn (fun _ => some exampleText) (fun _ => true) exampleSettings (.countingFrom 100) =
        (.ok report, written) ∧
      report.reruns.length = 2 ∧ report.preview = some report.foreground ∧
      written = [("saved.json", loaded.graph.saveText)] := by
  have heval : (Graph.loadText .builtin (.countingFrom 100) (some exampleText)).toOption.map
        (fun loaded => loaded.supply.next) = some 4 ∧
      (performOn (fun _ => some exampleText) (fun _ => true) exampleSettings
        (.countingFrom 100)).1.toOption.isSome := by
    decide +kernel
  have hdistinct : Distinct (.countingFrom 100) (some exampleText) := by
    intro loaded hloaded i j _ hij hj
    have hnext := heval.1
    rw [hloaded] at hnext
    have hlast : loaded.supply.next = 4 := Option.some.inj hnext
    exact Supply.countingFrom_distinct hij (by omega)
  rcases hperform : performOn (fun _ => some exampleText) (fun _ => true) exampleSettings
    (.countingFrom 100) with ⟨e | report, written⟩
  · rw [hperform] at heval
    cases heval.2
  · obtain ⟨loaded, hload, -, hlength, -, -, hpreview, hwritten⟩ :=
      (perform_settled exampleSettings (fun _ => some exampleText) (fun _ => true) (.countingFrom 100)
        hdistinct).1 report written hperform
    exact ⟨loaded, report, written, hload, rfl, hlength, hpreview, hwritten⟩

end Headless

end Patchbay
