import Patchbay.Json
import Patchbay.Json.Numeral
import Patchbay.Text.Hex

/-!
# Reading documents

`Json.parse?` reads a whole text as one document. It refuses what is not a document, a document
nested deeper than `Json.maxDepth` containers, numbers that are too large, escapes of unpaired
surrogates, raw control characters in strings, and anything but blanks after the document. Of a
repeated key the last value counts.

The reader works on a list of characters; its steps return what is left of it. Its fuel bounds the
number of steps, and the number of characters gives enough of it, since every second step uses one
up.
-/

namespace Patchbay

def skipBlanks (cs : List Char) : List Char :=
  cs.dropWhile fun c => c == ' ' || c == '\n' || c == '\t' || c == '\r'

namespace Json

/-- How many containers may stand inside each other. -/
def maxDepth : Nat := 127

/-- Four hexadecimal digits. -/
def readUnit : List Char → Option (Nat × List Char)
  | a :: b :: c :: d :: rest => do
    let a ← Hex.value? a
    let b ← Hex.value? b
    let c ← Hex.value? c
    let d ← Hex.value? d
    return (((a * 16 + b) * 16 + c) * 16 + d, rest)
  | _ => none

/-- The character of a `\u` escape, whose first letters have been read; a leading surrogate must be
followed by the escape of a trailing one. -/
def readUnicodeEscape (cs : List Char) : Option (Char × List Char) := do
  let (n, rest) ← readUnit cs
  if 0xDC00 ≤ n ∧ n ≤ 0xDFFF then none
  else if 0xD800 ≤ n ∧ n ≤ 0xDBFF then
    match rest with
    | '\\' :: 'u' :: rest =>
      let (m, rest) ← readUnit rest
      if 0xDC00 ≤ m ∧ m ≤ 0xDFFF then
        some (Char.ofNat (0x10000 + (n - 0xD800) * 0x400 + (m - 0xDC00)), rest)
      else none
    | _ => none
  else some (Char.ofNat n, rest)

/-- One character of a string, written plainly or escaped. -/
def readStringChar : List Char → Option (Char × List Char)
  | '\\' :: 'u' :: rest => readUnicodeEscape rest
  | '\\' :: c :: rest =>
    match c with
    | '"' => some ('"', rest)
    | '\\' => some ('\\', rest)
    | '/' => some ('/', rest)
    | 'b' => some ('\x08', rest)
    | 'f' => some ('\x0c', rest)
    | 'n' => some ('\n', rest)
    | 'r' => some ('\r', rest)
    | 't' => some ('\t', rest)
    | _ => none
  | c :: rest => if c.toNat < 32 ∨ c = '\\' then none else some (c, rest)
  | [] => none

/-- The rest of a string up to its closing quote; the characters read so far come in reverse. -/
def readStringBody : Nat → List Char → List Char → Option (String × List Char)
  | 0, _, _ => none
  | _ + 1, acc, '"' :: rest => some (String.ofList acc.reverse, rest)
  | fuel + 1, acc, cs =>
    match readStringChar cs with
    | some (c, rest) => readStringBody fuel (c :: acc) rest
    | none => none

/-- A string in quotes. -/
def readString (cs : List Char) : Option (String × List Char) :=
  match cs with
  | '"' :: rest => readStringBody (rest.length + 1) [] rest
  | _ => none

/-- Reads `word` and gives `value`. -/
def readWord (word : String) (value : Json) (cs : List Char) : Option (Json × List Char) :=
  let w := word.toList
  if w.isPrefixOf cs then some (value, cs.drop w.length) else none

mutual

/-- Reads a value; `depth` is the number of containers that may still be opened. -/
def readValue : Nat → Nat → List Char → Option (Json × List Char)
  | 0, _, _ => none
  | fuel + 1, depth, cs =>
    match skipBlanks cs with
    | '[' :: rest =>
      match depth with
      | 0 => none
      | depth + 1 =>
        match skipBlanks rest with
        | ']' :: rest => some (.array [], rest)
        | rest => (readItems fuel depth rest).map fun (items, rest) => (.array items, rest)
    | '\x7b' :: rest =>
      match depth with
      | 0 => none
      | depth + 1 =>
        match skipBlanks rest with
        | '\x7d' :: rest => some (.object [], rest)
        | rest => (readFields fuel depth [] rest).map fun (fields, rest) => (.object fields, rest)
    | '"' :: rest => (readString ('"' :: rest)).map fun (s, rest) => (.string s, rest)
    | 't' :: rest => readWord "true" (.bool true) ('t' :: rest)
    | 'f' :: rest => readWord "false" (.bool false) ('f' :: rest)
    | 'n' :: rest => readWord "null" .null ('n' :: rest)
    | rest => (Numeral.read rest).map fun (n, rest) => (.number n, rest)

/-- Reads the items of an array up to its closing bracket. -/
def readItems : Nat → Nat → List Char → Option (List Json × List Char)
  | 0, _, _ => none
  | fuel + 1, depth, cs =>
    match readValue fuel depth cs with
    | none => none
    | some (j, rest) =>
      match skipBlanks rest with
      | ']' :: rest => some ([j], rest)
      | ',' :: rest => (readItems fuel depth rest).map fun (items, rest) => (j :: items, rest)
      | _ => none

/-- Reads the fields of an object up to its closing brace, adding them to those read before. -/
def readFields : Nat → Nat → Fields → List Char → Option (Fields × List Char)
  | 0, _, _, _ => none
  | fuel + 1, depth, acc, cs =>
    match readString (skipBlanks cs) with
    | none => none
    | some (key, rest) =>
      match skipBlanks rest with
      | ':' :: rest =>
        match readValue fuel depth rest with
        | none => none
        | some (j, rest) =>
          let acc := acc.set key j
          match skipBlanks rest with
          | '\x7d' :: rest => some (acc, rest)
          | ',' :: rest => readFields fuel depth acc rest
          | _ => none
      | _ => none

end

/-- Reads a whole text as one document. -/
def parse? (text : String) : Option Json :=
  let cs := text.toList
  match readValue (2 * cs.length + 2) maxDepth cs with
  | some (j, rest) => if (skipBlanks rest).isEmpty then some j else none
  | none => none

end Json

end Patchbay
