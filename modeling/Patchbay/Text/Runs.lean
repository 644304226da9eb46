/-!
# Sets of characters

A set of characters is written down as the lengths of its runs: how many code points lie outside it
from the first one on, how many of the next ones lie inside, and so on in turn. Whatever follows the
last run lies outside.
-/

namespace Patchbay

/-- A set of characters as the lengths of its runs, the first of them outside the set. -/
abbrev CharRuns := List Nat

namespace CharRuns

/-- Whether the `n`-th code point from here lies inside; `here` says whether the first run does. -/
def inside (here : Bool) : CharRuns → Nat → Bool
  | [], _ => false
  | k :: rest, n => if n < k then here else inside (!here) rest (n - k)

/-- Whether a character is in the set. -/
def has (runs : CharRuns) (c : Char) : Bool := inside false runs c.toNat

end CharRuns

end Patchbay
