import Patchbay.Settings.Term

/-!
# Reading settings

Settings are a record whose fields may all be left out; each that is takes its standard value. An
override is a record whose fields must all be there. Fields that neither has mean nothing, whatever
their value; a field of theirs must not stand twice.

`Settings.load` reads settings from a text that must be there, `Settings.loadOrStandard` takes the
standard ones if there is no text.
-/

namespace Patchbay

namespace Term

/-- The fields of a record that is named as expected, or not named where the dialect allows that. -/
def fieldsOf? (d : Dialect) (expected : String) : Term → Option (List (String × Term))
  | .record name fields => if accepts name then some fields else none
  | .tuple name [] => if accepts name then some [] else none
  | _ => none
where
  /-- Whether a record may have this name. -/
  accepts (name : Option String) : Bool :=
    match name with
    | some name => name == expected
    | none => !d.namedRecords

/-- The value of a field that must not stand twice: none if it is not there, and nothing at all if it
stands twice or cannot be read. -/
def field? {α : Type} (fields : List (String × Term)) (key : String) (decode : Term → Option α) :
    Option (Option α) :=
  match fields.filter fun f => f.1 == key with
  | [] => some none
  | [(_, t)] => (decode t).map some
  | _ => none

def bool? : Term → Option Bool
  | .bool b => some b
  | _ => none

def text? : Term → Option String
  | .text s => some s
  | _ => none

/-- An integer of so many bits without sign. -/
def natBelow? (bits : Nat) : Term → Option Nat
  | .number literal => Literal.natBelow? bits literal
  | _ => none

def single? : Term → Option SettingNumber
  | .number literal => Literal.single? literal
  | _ => none

/-- An optional value. -/
def optional? {α : Type} (d : Dialect) (decode : Term → Option α) : Term → Option (Option α)
  | .absent => some none
  | .present t => (decode t).map some
  | t => if d.implicitSome then (decode t).map some else none

def items? {α : Type} (decode : Term → Option α) : Term → Option (List α)
  | .list items => items.mapM decode
  | _ => none

end Term

/-- The override that a term describes. -/
def PinOverride.ofTerm? (d : Dialect) (t : Term) : Option PinOverride := do
  let fields ← t.fieldsOf? d "PinOverride"
  let node ← (← Term.field? fields "node" Term.text?)
  let pin ← (← Term.field? fields "pin" Term.text?)
  let value ← (← Term.field? fields "value" Term.single?)
  return { node, pin, value }

namespace Settings

/-- The settings that a term describes. -/
def ofTerm? (d : Dialect) (t : Term) : Option Settings := do
  let fields ← t.fieldsOf? d "RunnerSettings"
  let version ← Term.field? fields "version" (Term.natBelow? 32)
  let graphPath ← Term.field? fields "graph_path" (Term.optional? d Term.text?)
  let logFilter ← Term.field? fields "log_filter" Term.text?
  let backgroundPreview ← Term.field? fields "background_preview" Term.bool?
  let savePath ← Term.field? fields "save_path" (Term.optional? d Term.text?)
  let overrides ← Term.field? fields "overrides" (Term.items? (PinOverride.ofTerm? d))
  return {
    version := version.getD standard.version
    graphPath := graphPath.getD standard.graphPath
    logFilter := logFilter.getD standard.logFilter
    backgroundPreview := backgroundPreview.getD standard.backgroundPreview
    savePath := savePath.getD standard.savePath
    overrides := overrides.getD standard.overrides }

/-- Reads settings of any version. -/
def parse? (text : String) : Option Settings :=
  (Term.parse? text).bind fun (d, t) => ofTerm? d t

/-- Reads settings from a text that may be missing. -/
def load (text : Option String) : Except SettingsError Settings :=
  match text with
  | none => .error .unreadable
  | some text =>
    match parse? text with
    | none => .error .malformed
    | some s => if formatVersion < s.version then .error (.newerVersion s.version) else .ok s

/-- Reads settings from a text, or takes the standard ones if there is none. -/
def loadOrStandard (text : Option String) : Except SettingsError Settings :=
  match text with
  | none => .ok standard
  | some text => load (some text)

end Settings

end Patchbay
