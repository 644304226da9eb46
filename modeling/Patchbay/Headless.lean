import Patchbay.Session
import Patchbay.Settings.Reader

/-!
# Headless runs

A headless run goes by its settings: it loads a graph into a session with the built-in types, applies
the overrides one by one under an observer that runs the graph after each, runs the graph once more,
in the background a second time if a preview is asked for, and says what to save where.

In `Headless.run` the text of the graph file comes in as an argument and the text to save goes out as a
value, so that it is a function of its arguments. `Headless.perform` reads and writes files with actions that
the host provides. `Headless.exitCode` tells how the process ends.
-/

namespace Patchbay

/-- Why a headless run gave up. -/
inductive HeadlessError where
  /-- The settings were refused. -/
  | settings (e : SettingsError)
  /-- The settings name no graph. -/
  | noGraph
  /-- An override names a node that is not in the graph. -/
  | unknownNode (name path : String)
  | session (e : SessionError)
  | run (e : RunError)
  /-- The graph could not be saved. -/
  | unwritable
  deriving DecidableEq

/-- The text of an error; what the system says about files is not repeated. -/
def HeadlessError.message : HeadlessError → String
  | .settings e => e.message
  | .noGraph => "No graph path configured"
  | .unknownNode name path => "No node named '" ++ name ++ "' in " ++ path
  | .session e => e.message
  | .run e => e.message
  | .unwritable => "I/O error"

/-- What a headless run came to. -/
structure HeadlessReport where
  /-- How loading went. -/
  load : LoadReport
  /-- The runs after the overrides, in order. -/
  reruns : List RunReport
  /-- The run in the foreground. -/
  foreground : RunReport
  /-- The run in the background. -/
  preview : Option RunReport
  /-- Where to save the graph, and its text. -/
  saving : Option (String × String)

namespace Headless

/-- The node that an override names: the first one with this display name. -/
def nodeNamed? (g : Graph) (name : String) : Option NodeId :=
  (g.nodes.find? fun n => n.name == name).map Node.id

/-- Applies one override; gives the run that followed, if one did. -/
def applyOverride (path : String) (o : PinOverride) (s : Session) :
    Except HeadlessError (Option RunReport × Session) :=
  match nodeNamed? s.graph o.node with
  | none => .error (.unknownNode o.node path)
  | some n =>
    match Session.setInput n o.pin (.float o.value.toSingle) s with
    | (.error e, _) => .error (.session e)
    | (.ok (.runFailed e), _) => .error (.run e)
    | (.ok (.ran r), s) => .ok (some r, s)
    | (.ok _, s) => .ok (none, s)

/-- Applies overrides in order up to the first that fails; gives the runs that followed. -/
def applyOverrides (path : String) :
    List PinOverride → Session → Except HeadlessError (List RunReport × Session)
  | [], s => .ok ([], s)
  | o :: rest, s => do
    let (r, s) ← applyOverride path o s
    let (rs, s) ← applyOverrides path rest s
    return (r.toList ++ rs, s)

/-- How the run in the background is carried out. -/
def previewMode : RunMode := { threading := true, stoppable := false }

/-- Runs the graph in the foreground and, if asked to, in the background. A failure in the background
is told first. -/
def runBoth (preview : Bool) (s : Session) : Except HeadlessError (RunReport × Option RunReport) :=
  let (foreground, s) := s.runGraph
  let background :=
    if preview then (s.performRun (s.graph.run previewMode)).1.map some else .ok none
  match background, foreground with
  | .error e, _ => .error (.run e)
  | .ok _, .error e => .error (.run e)
  | .ok p, .ok f => .ok (f, p)

/-- What comes before the last runs: the graph is loaded and the overrides are applied. Gives how loading
went, the runs after the overrides, and the session. `graphText` is the text of the graph file, if it could
be read. -/
def prepare (settings : Settings) (graphText : Option String) (supply : Supply) :
    Except HeadlessError (LoadReport × List RunReport × Session) := do
  match settings.graphPath with
  | none => throw .noGraph
  | some path =>
    match Session.loadText graphText (.new .builtin supply) with
    | (.error e, _) => throw (.session e)
    | (.ok load, s) =>
      let (reruns, s) ←
        applyOverrides path settings.overrides { s with observer := some hostObserver }
      return (load, reruns, s)

/-- Performs a headless run, the last runs of which are performed by `both`. -/
def runWith (both : Bool → Session → Except HeadlessError (RunReport × Option RunReport))
    (settings : Settings) (graphText : Option String) (supply : Supply) :
    Except HeadlessError HeadlessReport := do
  let (load, reruns, s) ← prepare settings graphText supply
  let (foreground, preview) ← both settings.backgroundPreview s
  return { load, reruns, foreground, preview
           saving := settings.savePath.map fun path => (path, s.graph.saveText) }

/-- Performs a headless run. -/
def run : Settings → Option String → Supply → Except HeadlessError HeadlessReport :=
  runWith runBoth

/-- Saves the graph if a run has come to a report that says so. `write` tells whether a text could be
written. -/
def save {m : Type → Type} [Monad m] (write : String → String → m Bool) :
    Except HeadlessError HeadlessReport → m (Except HeadlessError HeadlessReport)
  | .error e => return .error e
  | .ok report =>
    match report.saving with
    | none => return .ok report
    | some (path, text) => do
      if ← write path text then return .ok report
      else return .error .unwritable

/-- Performs a headless run on files. `read` gives the text of a file, if it can be read. -/
def perform {m : Type → Type} [Monad m] (read : String → m (Option String))
    (write : String → String → m Bool) (settings : Settings) (supply : Supply) :
    m (Except HeadlessError HeadlessReport) :=
  match settings.graphPath with
  | none => save write (run settings none supply)
  | some path => do save write (run settings (← read path) supply)

/-- How the process ends: with one if anything failed, with two if the run in the foreground was not
clean, and with zero otherwise. -/
def exitCode : Except HeadlessError HeadlessReport → Nat
  | .error _ => 1
  | .ok r => if r.foreground.isClean then 0 else 2

end Headless

end Patchbay
