import Patchbay.Number.Text
import Patchbay.Settings
import Patchbay.Text.Quoted

/-!
# Writing settings

Settings are written as a named record with all fields, each on a line of its own and followed by a
comma, four blanks deeper than what holds it. In texts, characters that do not show are written by
number, and both kinds of quotes stand behind a backslash.
-/

namespace Patchbay.Settings

/-- A text in quotes; apostrophes are escaped too. -/
def quotedText (s : String) : String := Quoted.encode true s

def optionText : Option String → String
  | none => "None"
  | some s => "Some(" ++ quotedText s ++ ")"

/-- A number; infinities and what is not a number are words. -/
def numberText : SettingNumber → String
  | .undefined negative => if negative then "-NaN" else "NaN"
  | .number x =>
    match Decimal.singleText? .settings x with
    | some s => s
    | none => if x < 0 then "-inf" else "inf"

/-- A new line at a depth. -/
def lineAt (depth : Nat) : String := "\n" ++ String.ofList (List.replicate (4 * depth) ' ')

/-- A named record at a depth, from its fields and their texts. -/
def recordText (depth : Nat) (name : String) (fields : List (String × String)) : String :=
  let line (f : String × String) : String := lineAt (depth + 1) ++ f.1 ++ ": " ++ f.2 ++ ","
  name ++ "(" ++ String.join (fields.map line) ++ lineAt depth ++ ")"

/-- A list at a depth, from the texts of its items; a list without items stays closed up. -/
def listText (depth : Nat) (items : List String) : String :=
  if items.isEmpty then "[]"
  else
    "[" ++ String.join (items.map fun s => lineAt (depth + 1) ++ s ++ ",") ++ lineAt depth ++ "]"

def overrideText (depth : Nat) (o : PinOverride) : String :=
  recordText depth "PinOverride"
    [("node", quotedText o.node), ("pin", quotedText o.pin), ("value", numberText o.value)]

def text (s : Settings) : String :=
  recordText 0 "RunnerSettings"
    [("version", toString s.version), ("graph_path", optionText s.graphPath),
      ("log_filter", quotedText s.logFilter),
      ("background_preview", if s.backgroundPreview then "true" else "false"),
      ("save_path", optionText s.savePath),
      ("overrides", listText 1 (s.overrides.map (overrideText 2)))]

end Patchbay.Settings
