import Patchbay.Settings.Literal
import Patchbay.Text.Word

/-!
# The notation of settings

Settings are written in a notation of terms: truth values, numbers, texts, lists in square brackets,
maps in braces, records and tuples in parentheses, each with a name in front or none, and optional
values written `Some(..)` or `None`. Blanks and comments may stand between any two parts, and a comma
may follow the last item. Lines of the form `#![enable(..)]` at the top switch on variants of the
notation; `Dialect` holds those that make a difference.

`Term.parse?` reads a whole text as one term. The reader returns what is left of a list of
characters. Its fuel bounds the number of steps, and `depth` the number of parts inside each other:
every bracket and every item in it counts.
-/

namespace Patchbay

/-- Variants of the notation. -/
structure Dialect where
  /-- Whether an optional value may be written without `Some`. -/
  implicitSome : Bool
  /-- Whether records must be named. -/
  namedRecords : Bool
  deriving DecidableEq

/-- The notation without variants. -/
def Dialect.plain : Dialect := ⟨false, false⟩

/-- Switches on a variant. -/
def Dialect.enable (d : Dialect) (variant : String) : Option Dialect :=
  if variant = "implicit_some" then some { d with implicitSome := true }
  else if variant = "explicit_struct_names" then some { d with namedRecords := true }
  else if variant = "unwrap_newtypes" ∨ variant = "unwrap_variant_newtypes" then some d
  else none

inductive Term where
  | bool (b : Bool)
  /-- A number, as it was written. -/
  | number (literal : List Char)
  | text (s : String)
  /-- A single character or a text of bytes, which no setting is. -/
  | foreign
  /-- An optional value that is missing. -/
  | absent
  /-- An optional value that is there. -/
  | present (t : Term)
  | list (items : List Term)
  | map (entries : List (Term × Term))
  /-- A name alone. -/
  | word (name : String)
  /-- Items in parentheses. -/
  | tuple (name : Option String) (items : List Term)
  /-- Named fields in parentheses. -/
  | record (name : Option String) (fields : List (String × Term))
  deriving Inhabited

namespace Term

/-! ## Blanks, comments and words -/

def isBlank (c : Char) : Bool :=
  [' ', '\t', '\n', '\r', '\x0b', '\x0c', '\u0085', '\u200e', '\u200f', '\u2028', '\u2029'].contains c

/-- What follows the end of so many nested comments. -/
def afterComment : Nat → List Char → Option (List Char)
  | 0, cs => some cs
  | _ + 1, [] => none
  | level + 1, '/' :: '*' :: rest => afterComment (level + 2) rest
  | level + 1, '*' :: '/' :: rest => afterComment level rest
  | level + 1, _ :: rest => afterComment (level + 1) rest

/-- Skips blanks and at most so many comments. -/
def skipComments : Nat → List Char → Option (List Char)
  | 0, _ => none
  | fuel + 1, cs =>
    match cs.dropWhile isBlank with
    | '/' :: '/' :: rest => skipComments fuel (rest.dropWhile (· != '\n'))
    | '/' :: '*' :: rest => (afterComment 1 rest).bind (skipComments fuel)
    | '/' :: _ => none
    | rest => some rest

/-- Skips blanks and comments; nothing if a comment does not end. -/
def skip (cs : List Char) : Option (List Char) := skipComments (cs.length + 1) cs

/-- Whether a word that is marked as such may go on with a character. -/
def isMarkedRest (c : Char) : Bool := c == '.' || c == '+' || c == '-' || isWordRest c

/-- How texts begin that look like words. -/
def textLeads : List (List Char) :=
  ["b\"".toList, "b'".toList, "br#".toList, "br\"".toList, "r\"".toList, "r#\"".toList,
    "r##".toList]

/-- A word, whether it is marked by `r#`, and what follows. -/
def readWord? (cs : List Char) : Option (String × Bool × List Char) :=
  if textLeads.any fun lead => lead.isPrefixOf cs then none
  else
    match cs with
    | 'r' :: '#' :: rest =>
      if (rest.takeWhile isMarkedRest).isEmpty then none
      else some (String.ofList (rest.takeWhile isMarkedRest), true, rest.dropWhile isMarkedRest)
    | c :: rest =>
      if isWordStart c then
        some (String.ofList (c :: rest.takeWhile isWordRest), false, rest.dropWhile isWordRest)
      else none
    | [] => none

/-! ## Texts -/

/-- Two hexadecimal digits. -/
def readByte : List Char → Option (Nat × List Char)
  | a :: b :: rest => do
    let a ← Hex.value? a
    let b ← Hex.value? b
    return (16 * a + b, rest)
  | _ => none

/-- The character with a number, if there is one. -/
def scalar? (n : Nat) : Option Char := if n.isValidChar then some (Char.ofNat n) else none

/-- So many further escaped bytes of a character. -/
def readTrail : Nat → List Char → Option (List Nat × List Char)
  | 0, cs => some ([], cs)
  | n + 1, '\\' :: 'x' :: rest => do
    let (b, rest) ← readByte rest
    let (bs, rest) ← readTrail n rest
    return (b :: bs, rest)
  | _ + 1, _ => none

/-- How many bytes follow the first byte of a character, the bits it contributes, and the least
number that needs so many. -/
def leadByte? (b : Nat) : Option (Nat × Nat × Nat) :=
  if 0xC0 ≤ b ∧ b < 0xE0 then some (1, b - 0xC0, 0x80)
  else if 0xE0 ≤ b ∧ b < 0xF0 then some (2, b - 0xE0, 0x800)
  else if 0xF0 ≤ b ∧ b < 0xF8 then some (3, b - 0xF0, 0x10000)
  else none

/-- The character whose bytes are escaped one by one; the escape of the first has been begun. -/
def readByteEscape (cs : List Char) : Option (Char × List Char) := do
  let (b, rest) ← readByte cs
  if b < 0x80 then return (Char.ofNat b, rest)
  else
    let (count, top, least) ← leadByte? b
    let (bs, rest) ← readTrail count rest
    if bs.all fun b => decide (0x80 ≤ b) && decide (b < 0xC0) then
      let n := bs.foldl (fun n b => n * 64 + (b - 0x80)) top
      if least ≤ n then return (← scalar? n, rest) else none
    else none

/-- The character of an escape by number: one to six hexadecimal digits in braces. -/
def readNumberEscape (cs : List Char) : Option (Char × List Char) :=
  match cs with
  | '\x7b' :: rest =>
    let digits := rest.takeWhile (· != '\x7d')
    if 1 ≤ digits.length ∧ digits.length ≤ 6 then do
      let n ← Hex.number? digits
      return (← scalar? n, rest.drop (digits.length + 1))
    else none
  | _ => none

/-- The character of an escape behind its backslash. -/
def readEscape : List Char → Option (Char × List Char)
  | 'x' :: rest => readByteEscape rest
  | 'u' :: rest => readNumberEscape rest
  | c :: rest =>
    match c with
    | '\'' | '"' | '\\' => some (c, rest)
    | 'n' => some ('\n', rest)
    | 'r' => some ('\r', rest)
    | 't' => some ('\t', rest)
    | '0' => some ('\x00', rest)
    | _ => none
  | [] => none

/-- The rest of a text up to its closing quote; the characters read so far come in reverse. -/
def readTextBody : Nat → List Char → List Char → Option (String × List Char)
  | 0, _, _ => none
  | _ + 1, _, [] => none
  | fuel + 1, acc, c :: rest =>
    if c = '"' then some (String.ofList acc.reverse, rest)
    else if c = '\\' then (readEscape rest).bind fun (c, rest) => readTextBody fuel (c :: acc) rest
    else readTextBody fuel (c :: acc) rest

/-- What stands in front of the first occurrence of `stop`, and what follows it. -/
def breakAt? (stop : List Char) : List Char → Option (List Char × List Char)
  | [] => none
  | c :: rest =>
    if stop.isPrefixOf (c :: rest) then some ([], (c :: rest).drop stop.length)
    else (breakAt? stop rest).map fun (before, after) => (c :: before, after)

/-- A text without escapes between quotes with so many `#` outside; the `r` has been read. -/
def readRawText (cs : List Char) : Option (String × List Char) :=
  let marks := cs.takeWhile (· == '#')
  match cs.drop marks.length with
  | '"' :: rest => (breakAt? ('"' :: marks) rest).map fun (s, rest) => (String.ofList s, rest)
  | _ => none

/-- A text in quotes, written plainly or raw. -/
def readText (cs : List Char) : Option (String × List Char) :=
  match cs with
  | '"' :: rest => readTextBody (rest.length + 1) [] rest
  | 'r' :: rest => readRawText rest
  | _ => none

/-- What follows a single character between apostrophes; the first has been read. -/
def afterChar (cs : List Char) : Option (List Char) := do
  let rest ← match cs with
    | '\\' :: rest => (readEscape rest).map Prod.snd
    | _ :: rest => some rest
    | [] => none
  match rest with
  | '\'' :: rest => some rest
  | _ => none

/-! ## Terms -/

/-- What follows an item: the closing character, or a comma and then the closing character or
another item. True means that the items end here. -/
def afterItem (close : Char) (cs : List Char) : Option (Bool × List Char) := do
  let cs ← skip cs
  match cs with
  | ',' :: rest =>
    let rest ← skip rest
    match rest with
    | c :: after => if c = close then some (true, after) else some (false, c :: after)
    | [] => none
  | c :: rest => if c = close then some (true, rest) else none
  | [] => none

/-- A term that is a word, if the word stands for one by itself. -/
def ofWord? (w : String) : Option Term :=
  if w = "true" then some (.bool true)
  else if w = "false" then some (.bool false)
  else if w = "None" then some .absent
  else if ["inf", "inff32", "inff64", "NaN", "NaNf32", "NaNf64"].contains w then
    some (.number w.toList)
  else none

/-- A term that begins with neither a word nor a bracket. -/
def readLeaf (cs : List Char) : Option (Term × List Char) :=
  match cs with
  | '"' :: _ | 'r' :: _ => (readText cs).map fun (s, rest) => (.text s, rest)
  | '\'' :: rest => (afterChar rest).map fun rest => (.foreign, rest)
  | 'b' :: '\'' :: rest => (afterChar rest).map fun rest => (.foreign, rest)
  | 'b' :: rest => (readText rest).map fun (_, rest) => (.foreign, rest)
  | _ =>
    let literal := cs.takeWhile Literal.isLiteralChar
    if Literal.isNumber literal then some (.number literal, cs.drop literal.length) else none

mutual

def read (d : Dialect) : Nat → Nat → List Char → Option (Term × List Char)
  | 0, _, _ => none
  | fuel + 1, depth, cs =>
    match readWord? cs with
    | some (w, marked, rest) =>
      match if marked then none else ofWord? w with
      | some t => some (t, rest)
      | none => (skip rest).bind (readNamed d fuel depth w marked)
    | none =>
      match cs with
      | '(' :: ')' :: rest => some (.tuple none [], rest)
      | '(' :: rest => readGroup d fuel depth none rest
      | '[' :: rest =>
        match depth with
        | 0 => none
        | depth + 1 =>
          match skip rest with
          | none => none
          | some (']' :: rest) => some (.list [], rest)
          | some rest => (readItems d fuel depth ']' rest).map fun (ts, rest) => (.list ts, rest)
      | '\x7b' :: rest =>
        match depth with
        | 0 => none
        | depth + 1 =>
          match skip rest with
          | none => none
          | some ('\x7d' :: rest) => some (.map [], rest)
          | some rest => (readEntries d fuel depth rest).map fun (es, rest) => (.map es, rest)
      | cs => readLeaf cs

/-- Reads what follows a word and the blanks behind it. -/
def readNamed (d : Dialect) :
    Nat → Nat → String → Bool → List Char → Option (Term × List Char)
  | 0, _, _, _, _ => none
  | fuel + 1, depth, w, marked, cs =>
    if w = "Some" ∧ marked = false then
      match depth with
      | 0 => none
      | depth + 1 =>
        match cs with
        | '(' :: rest =>
          match (skip rest).bind (read d fuel depth) with
          | none => none
          | some (t, rest) =>
            match afterItem ')' rest with
            | some (true, rest) => some (.present t, rest)
            | _ => none
        | rest =>
          if d.implicitSome then (read d fuel depth rest).map fun (t, rest) => (.present t, rest)
          else none
    else
      match cs with
      | '(' :: rest => readGroup d fuel depth (some w) rest
      | rest => some (.word w, rest)

/-- Reads a record or a tuple behind its opening parenthesis. It is a record if it begins with a word
and a colon. -/
def readGroup (d : Dialect) :
    Nat → Nat → Option String → List Char → Option (Term × List Char)
  | 0, _, _, _ => none
  | _ + 1, 0, _, _ => none
  | fuel + 1, depth + 1, name, cs =>
    match skip cs with
    | none => none
    | some (')' :: rest) => some (.tuple name [], rest)
    | some cs =>
      match (readWord? cs).map fun (_, _, rest) => skip rest with
      | some none => none
      | some (some (':' :: _)) =>
        (readFields d fuel depth cs).map fun (fs, rest) => (.record name fs, rest)
      | _ => (readItems d fuel depth ')' cs).map fun (ts, rest) => (.tuple name ts, rest)

/-- Reads the items of a list or tuple up to the closing character. -/
def readItems (d : Dialect) : Nat → Nat → Char → List Char → Option (List Term × List Char)
  | 0, _, _, _ => none
  | _ + 1, 0, _, _ => none
  | fuel + 1, depth + 1, close, cs =>
    match read d fuel depth cs with
    | none => none
    | some (t, rest) =>
      match afterItem close rest with
      | none => none
      | some (true, rest) => some ([t], rest)
      | some (false, rest) =>
        (readItems d fuel (depth + 1) close rest).map fun (ts, rest) => (t :: ts, rest)

/-- Reads the entries of a map up to its closing brace. -/
def readEntries (d : Dialect) : Nat → Nat → List Char → Option (List (Term × Term) × List Char)
  | 0, _, _ => none
  | _ + 1, 0, _ => none
  | fuel + 1, depth + 1, cs =>
    match read d fuel depth cs with
    | none => none
    | some (key, rest) =>
      match skip rest with
      | some (':' :: rest) =>
        match (skip rest).bind (read d fuel depth) with
        | none => none
        | some (t, rest) =>
          match afterItem '\x7d' rest with
          | none => none
          | some (true, rest) => some ([(key, t)], rest)
          | some (false, rest) =>
            (readEntries d fuel (depth + 1) rest).map fun (es, rest) => ((key, t) :: es, rest)
      | _ => none

/-- Reads the fields of a record up to its closing parenthesis. -/
def readFields (d : Dialect) :
    Nat → Nat → List Char → Option (List (String × Term) × List Char)
  | 0, _, _ => none
  | _ + 1, 0, _ => none
  | fuel + 1, depth + 1, cs =>
    match readWord? cs with
    | none => none
    | some (key, _, rest) =>
      match skip rest with
      | some (':' :: rest) =>
        match (skip rest).bind (read d fuel depth) with
        | none => none
        | some (t, rest) =>
          match afterItem ')' rest with
          | none => none
          | some (true, rest) => some ([(key, t)], rest)
          | some (false, rest) =>
            (readFields d fuel (depth + 1) rest).map fun (fs, rest) => ((key, t) :: fs, rest)
      | _ => none

end

/-! ## Whole texts -/

/-- Reads marks one after the other, with blanks behind each. -/
def readMarks : List (List Char) → List Char → Option (List Char)
  | [], cs => some cs
  | mark :: marks, cs => (Literal.dropLead? mark cs).bind fun rest => (skip rest).bind (readMarks marks)

/-- Reads the names of variants up to the closing parenthesis. -/
def readVariants : Nat → Dialect → List Char → Option (Dialect × List Char)
  | 0, _, _ => none
  | fuel + 1, d, cs =>
    match readWord? cs with
    | none => none
    | some (w, _, rest) =>
      match d.enable w, afterItem ')' rest with
      | some d, some (true, rest) => some (d, rest)
      | some d, some (false, rest) => readVariants fuel d rest
      | _, _ => none

/-- Reads the lines at the top that switch on variants. -/
def readDialect : Nat → Dialect → List Char → Option (Dialect × List Char)
  | 0, _, _ => none
  | fuel + 1, d, '#' :: rest => do
    let rest ←
      readMarks ["#".toList, "!".toList, "[".toList, "enable".toList, "(".toList] ('#' :: rest)
    let (d, rest) ← readVariants (rest.length + 1) d rest
    let rest ← skip rest
    match rest with
    | ']' :: rest => readDialect fuel d (← skip rest)
    | _ => none
  | _ + 1, d, cs => some (d, cs)

/-- How many parts may stand inside each other. -/
def maxDepth : Nat := 128

/-- Reads a whole text as one term of the dialect that it asks for. -/
def parse? (text : String) : Option (Dialect × Term) := do
  let cs ← skip text.toList
  let (d, cs) ← readDialect (cs.length + 1) .plain cs
  let (t, rest) ← read d (4 * cs.length + 4) maxDepth cs
  let rest ← skip rest
  if rest.isEmpty then some (d, t) else none

end Term

end Patchbay
