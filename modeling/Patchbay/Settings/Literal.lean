import Patchbay.Json.Numeral
import Patchbay.Settings
import Patchbay.Text.Hex

/-!
# Number literals of settings

A literal is a run of letters, digits, points, signs and underscores. As an integer it has a sign
that may be left out, a base (`0b`, `0o`, `0x`, or ten), digits with underscores between and after
them, and a suffix that may be left out and says what it is meant for (`u8`, `i64` and so on); a
literal with another suffix than the one expected is refused. As a number it has an integer part and
a fraction of which one may be missing, an exponent that may be left out, and underscores after
digits; or it is one of the words for infinity and for what is not a number. The suffix `f32` may
follow, `f64` only where any number will do.

Numbers are rounded once, from their exact decimal value.
-/

namespace Patchbay.Literal

/-- Whether a character belongs to a literal. -/
def isLiteralChar (c : Char) : Bool :=
  c.isDigit || ('a' ≤ c && c ≤ 'z') || ('A' ≤ c && c ≤ 'Z') || c == '_' || c == '.' || c == '+' ||
    c == '-'

/-- Takes the sign off; true means a minus. -/
def takeSign : List Char → Bool × List Char
  | '+' :: rest => (false, rest)
  | '-' :: rest => (true, rest)
  | rest => (false, rest)

/-- The rest behind `lead`, if the characters begin with it. -/
def dropLead? (lead cs : List Char) : Option (List Char) :=
  if lead.isPrefixOf cs then some (cs.drop lead.length) else none

/-! ## Integers -/

/-- The base that the characters begin with, and what follows. -/
def takeBase : List Char → Nat × List Char
  | '0' :: 'b' :: rest => (2, rest)
  | '0' :: 'o' :: rest => (8, rest)
  | '0' :: 'x' :: rest => (16, rest)
  | rest => (10, rest)

/-- The number that digits of a base write; underscores between and after digits do not count. -/
def digitsValue? (base : Nat) (cs : List Char) : Option Nat :=
  if cs.isEmpty || cs.head? == some '_' then none
  else
    cs.foldlM
      (fun n c =>
        if c = '_' then some n
        else (Hex.value? c).bind fun d => if d < base then some (base * n + d) else none)
      0

/-- The suffixes of integers: their letters, whether a sign counts, and the number of bits. -/
def suffixes : List (List Char × Bool × Nat) :=
  [("i8".toList, true, 8), ("i16".toList, true, 16), ("i32".toList, true, 32),
    ("i64".toList, true, 64), ("u8".toList, false, 8), ("u16".toList, false, 16),
    ("u32".toList, false, 32), ("u64".toList, false, 64)]

/-- Takes off the suffix that the characters end in, if they end in one. -/
def takeSuffix (cs : List Char) : List Char × Option (Bool × Nat) :=
  match suffixes.find? fun s => s.1.isSuffixOf cs with
  | some (s, bound) => (cs.take (cs.length - s.length), some bound)
  | none => (cs, none)

/-- Whether an integer fits so many bits. -/
def fits (n : Int) : Bool × Nat → Bool
  | (true, bits) =>
    let bound := Int.ofNat (Nat.pow 2 (bits - 1))
    decide (-bound ≤ n) && decide (n < bound)
  | (false, bits) => decide (0 ≤ n) && decide (n < Int.ofNat (Nat.pow 2 bits))

/-- The integer of a literal without suffix. -/
def bareInteger? (cs : List Char) : Option Int := do
  let (negative, body) := takeSign cs
  let (base, digits) := takeBase body
  let n ← digitsValue? base digits
  return if negative then -Int.ofNat n else Int.ofNat n

/-- The integer of a literal; it must fit the suffix, and if none follows one of those of 64 bits. -/
def integer? (cs : List Char) : Option Int :=
  let (body, bound) := takeSuffix cs
  let bounds := (bound.map fun b => [b]).getD [(true, 64), (false, 64)]
  (bareInteger? body).filter fun n => bounds.any (fits n)

/-- The integer of a literal, if it fits so many bits without sign. A suffix must say just that. -/
def natBelow? (bits : Nat) (cs : List Char) : Option Nat :=
  let (body, bound) := takeSuffix cs
  if bound.all (· == (false, bits)) then
    (bareInteger? body).bind fun n => if fits n (false, bits) then some n.toNat else none
  else none

/-! ## Numbers -/

/-- Drops underscores, which must come after a digit or the letter of an exponent, whatever signs
stand between; `allowed` says whether one may come first. -/
def dropUnderscores (allowed : Bool) : List Char → Option (List Char)
  | [] => some []
  | c :: rest =>
    if c = '_' then if allowed then dropUnderscores allowed rest else none
    else
      let allowed := c.isDigit || c == 'e' || c == 'E' || (allowed && c != '.')
      (dropUnderscores allowed rest).map (c :: ·)

/-- The exponent part, if there is one; nothing may follow it. -/
def exponentPart? : List Char → Option Int
  | [] => some 0
  | 'e' :: rest | 'E' :: rest =>
    match Numeral.exponent? rest with
    | some (e, []) => some e
    | _ => none
  | _ => none

/-- The decimal of digits, point and exponent, rounded to single precision. -/
def decimal? (cs : List Char) : Option Float32 := do
  let (integer, rest) := Numeral.digits cs
  let (fraction, rest) : List Nat × List Char :=
    match rest with
    | '.' :: rest => Numeral.digits rest
    | rest => ([], rest)
  if integer.isEmpty && fraction.isEmpty then none
  else
    let e ← exponentPart? rest
    let significand := (integer ++ fraction).foldl (fun n d => 10 * n + d) 0
    let e := e - Int.ofNat fraction.length
    return Float32.ofScientific significand (decide (e < 0)) e.natAbs

/-- A number without suffix. -/
def unsuffixed? (cs : List Char) : Option SettingNumber :=
  let (negative, body) := takeSign cs
  if body = "inf".toList then some (.number (if negative then -1 / 0 else 1 / 0))
  else if body = "NaN".toList then some (.undefined negative)
  else do
    let cs ← dropUnderscores false cs
    let (negative, body) := takeSign cs
    let x ← decimal? body
    return .number (if negative then -x else x)

/-- The characters in front of a suffix, if it is there. -/
def beforeSuffix? (suffix cs : List Char) : Option (List Char) :=
  if suffix.isSuffixOf cs then some (cs.take (cs.length - suffix.length)) else none

/-- The number of a literal in single precision. -/
def single? (cs : List Char) : Option SettingNumber :=
  unsuffixed? ((beforeSuffix? "f32".toList cs).getD cs)

/-- Whether a literal is a number of any kind. -/
def isNumber (cs : List Char) : Bool :=
  (single? cs).isSome || ((beforeSuffix? "f64".toList cs).bind unsuffixed?).isSome ||
    (integer? cs).isSome

end Patchbay.Literal
