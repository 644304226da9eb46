import Patchbay.Json
import Patchbay.Number.Text

/-!
# Writing documents

Two layouts of the same text: `Json.compact` has no blanks, `Json.pretty` puts every item and field
on a line of its own, two blanks deeper than what holds it; an empty array or object stays closed
up. Strings escape the quote, the backslash and control characters, and nothing else.
-/

namespace Patchbay

/-- How a character stands inside a string: five control characters have a letter, the others four
hexadecimal digits. -/
def escapeChar (c : Char) : List Char :=
  if c = '"' then ['\\', '"']
  else if c = '\\' then ['\\', '\\']
  else if c = '\x08' then ['\\', 'b']
  else if c = '\x0c' then ['\\', 'f']
  else if c = '\n' then ['\\', 'n']
  else if c = '\r' then ['\\', 'r']
  else if c = '\t' then ['\\', 't']
  else if c.toNat < 32 then
    ['\\', 'u', '0', '0', Nat.digitChar (c.toNat / 16), Nat.digitChar (c.toNat % 16)]
  else [c]

def quoted (s : String) : String :=
  "\"" ++ String.ofList (s.toList.flatMap escapeChar) ++ "\""

/-- The text of a number; a double that is not finite has none and stands as `null`. -/
def JsonNumber.text : JsonNumber → String
  | .int n => toString n
  | .double x => (Decimal.doubleText? .document x).getD "null"

namespace Json

mutual

/-- The text without blanks. -/
def compact : Json → String
  | .null => "null"
  | .bool b => if b then "true" else "false"
  | .number n => n.text
  | .string s => quoted s
  | .array items => "[" ++ ",".intercalate (compactItems items) ++ "]"
  | .object fields => "\x7b" ++ ",".intercalate (compactFields fields) ++ "\x7d"

/-- The texts of the items of an array. -/
def compactItems : List Json → List String
  | [] => []
  | j :: rest => compact j :: compactItems rest

/-- The texts of the fields of an object. -/
def compactFields : List (String × Json) → List String
  | [] => []
  | (k, j) :: rest => (quoted k ++ ":" ++ compact j) :: compactFields rest

end

/-- A new line and the blanks of a depth. -/
def newLine (depth : Nat) : String := "\n" ++ String.ofList (List.replicate (2 * depth) ' ')

mutual

/-- The text with a line for every item and field; `depth` is the depth of the value itself. -/
def prettyAt (depth : Nat) : Json → String
  | .null => "null"
  | .bool b => if b then "true" else "false"
  | .number n => n.text
  | .string s => quoted s
  | .array [] => "[]"
  | .array (j :: rest) =>
    let inner := newLine (depth + 1)
    "[" ++ inner ++ ("," ++ inner).intercalate (prettyItems (depth + 1) (j :: rest)) ++
      newLine depth ++ "]"
  | .object [] => "\x7b\x7d"
  | .object (f :: rest) =>
    let inner := newLine (depth + 1)
    "\x7b" ++ inner ++ ("," ++ inner).intercalate (prettyFields (depth + 1) (f :: rest)) ++
      newLine depth ++ "\x7d"

/-- The texts of the items of an array. -/
def prettyItems (depth : Nat) : List Json → List String
  | [] => []
  | j :: rest => prettyAt depth j :: prettyItems depth rest

/-- The texts of the fields of an object. -/
def prettyFields (depth : Nat) : List (String × Json) → List String
  | [] => []
  | (k, j) :: rest => (quoted k ++ ": " ++ prettyAt depth j) :: prettyFields depth rest

end

/-- The text with a line for every item and field. -/
def pretty (j : Json) : String := prettyAt 0 j

end Json

end Patchbay
