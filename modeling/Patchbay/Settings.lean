import Patchbay.Number.Single

/-!
# Settings of a headless run

A headless run is described by settings: which graph to load, which inputs to override, whether to
preview and where to save. They are kept in a text of their own notation, read by
`Patchbay.Settings.Reader` and written by `Patchbay.Settings.Writer`. This module holds the values
and the reasons for which settings are refused.
-/

namespace Patchbay

/-- A number as settings write it. What is not a number keeps the sign that was written before it,
which the bits of a number cannot be relied on to do. -/
inductive SettingNumber where
  /-- A finite or infinite number. -/
  | number (x : Float32)
  /-- Not a number, with or without a minus. -/
  | undefined (negative : Bool)
  deriving DecidableEq

namespace SettingNumber

def ofSingle (x : Float32) : SettingNumber := if x.isNaN then .undefined false else .number x

def toSingle : SettingNumber → Float32
  | number x => x
  | undefined _ => 0 / 0

/-- Whether two settings agree, numbers being compared by value. -/
def agrees : SettingNumber → SettingNumber → Bool
  | number x, number y => x == y
  | _, _ => false

end SettingNumber

/-- A value for an input of a node, given by names. -/
structure PinOverride where
  node : String
  pin : String
  value : SettingNumber
  deriving DecidableEq

def PinOverride.agrees (a b : PinOverride) : Bool :=
  a.node == b.node && a.pin == b.pin && a.value.agrees b.value

structure Settings where
  version : Nat
  graphPath : Option String
  logFilter : String
  /-- Whether a second run goes on in the background. -/
  backgroundPreview : Bool
  savePath : Option String
  /-- Values for inputs, applied in order. -/
  overrides : List PinOverride
  deriving DecidableEq

namespace Settings

/-- The newest version of settings, which is also the one written. -/
def formatVersion : Nat := 1

/-- The settings where nothing is set. -/
def standard : Settings :=
  { version := formatVersion
    graphPath := none
    logFilter := "info,blueprint_graph=debug"
    backgroundPreview := false
    savePath := none
    overrides := [] }

def agrees (a b : Settings) : Bool :=
  a.version == b.version && a.graphPath == b.graphPath && a.logFilter == b.logFilter &&
    a.backgroundPreview == b.backgroundPreview && a.savePath == b.savePath &&
    a.overrides.length == b.overrides.length &&
    (a.overrides.zip b.overrides).all fun (x, y) => x.agrees y

end Settings

inductive SettingsError where
  /-- The text could not be had. -/
  | unreadable
  /-- The text is not in the notation, or not settings. -/
  | malformed
  /-- The settings are of a newer version. -/
  | newerVersion (found : Nat)
  deriving DecidableEq

/-- The text of an error; what the system says about files and texts is not repeated. -/
def SettingsError.message : SettingsError → String
  | .unreadable => "Settings I/O error"
  | .malformed => "Invalid settings"
  | .newerVersion found =>
    s!"Settings version {found} is newer than supported version {Settings.formatVersion}"

end Patchbay
