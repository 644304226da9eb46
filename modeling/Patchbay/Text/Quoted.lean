import Patchbay.Text.Hex
import Patchbay.Text.Visible

/-!
# Texts in double quotes

A text is quoted so that every character of it can be seen: some have a letter behind a backslash,
those that do not show are written by number, and the backslash and the double quote stand behind a
backslash. Where apostrophes delimit something too, they are treated like the double quote.
-/

namespace Patchbay.Quoted

/-- The hexadecimal digits of a number, at most so many, without leading zeros. -/
def hexText : Nat → Nat → List Char
  | 0, _ => []
  | k + 1, n => (if n < 16 then [] else hexText k (n / 16)) ++ [Hex.digit (n % 16)]

/-- How a character stands inside quotes; `apostrophes` says whether apostrophes are escaped. -/
def escape (apostrophes : Bool) (c : Char) : List Char :=
  if c = '\x00' then ['\\', '0']
  else if c = '\t' then ['\\', 't']
  else if c = '\n' then ['\\', 'n']
  else if c = '\r' then ['\\', 'r']
  else if c = '\\' ∨ c = '"' ∨ (c = '\'' ∧ apostrophes = true) then ['\\', c]
  else if isVisible c then [c]
  else ['\\', 'u', '\x7b'] ++ hexText 6 c.toNat ++ ['\x7d']

def encode (apostrophes : Bool) (s : String) : String :=
  "\"" ++ String.ofList (s.toList.flatMap (escape apostrophes)) ++ "\""

end Patchbay.Quoted
