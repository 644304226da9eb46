import Patchbay.Text.Hex

/-!
# Identifiers as 128-bit numbers

Nodes, pins and links are told apart by 128-bit numbers. The written form is thirty-two lower-case
hexadecimal digits in groups of 8, 4, 4, 4 and 12, joined by hyphens (`Uuid.toText`).

Reading is wider than writing (`Uuid.ofText?`): digits may be in either case, and besides the
hyphenated form three others are accepted, namely the bare thirty-two digits, the hyphenated form in
braces, and the hyphenated form behind `urn:uuid:`, whose letters may also be in either case. Nothing
else is: no surrounding space and no bare digits in braces or behind `urn:uuid:`.
-/

namespace Patchbay

/-- A 128-bit identifier, compared by its bits. -/
structure Uuid where
  bits : BitVec 128
  deriving DecidableEq, Inhabited

namespace Uuid

def zero : Uuid := ⟨0#128⟩

/-- The identifier with number `n`, taken modulo `2 ^ 128`. -/
def ofNat (n : Nat) : Uuid := ⟨BitVec.ofNat 128 n⟩

/-! ## Writing -/

/-- The lowest `k` hexadecimal digits of `n`, the highest of them first. -/
def hexDigits : Nat → Nat → List Char
  | 0, _ => []
  | k + 1, n => hexDigits k (n / 16) ++ [Hex.digit (n % 16)]

/-- The lengths of the hyphenated groups. -/
def groupSizes : List Nat := [8, 4, 4, 4, 12]

/-- Cuts `cs` into groups of the given sizes and joins them by hyphens; what is left over goes into
the last group. -/
def hyphenate : List Nat → List Char → List Char
  | [], cs => cs
  | [_], cs => cs
  | k :: ks, cs => cs.take k ++ '-' :: hyphenate ks (cs.drop k)

def toText (u : Uuid) : String :=
  String.ofList (hyphenate groupSizes (hexDigits 32 u.bits.toNat))

instance : ToString Uuid := ⟨toText⟩

/-! ## Reading -/

/-- Undoes `hyphenate`: the digits, if the hyphens stand exactly between groups of the given
sizes. -/
def dehyphenate : List Nat → List Char → Option (List Char)
  | [], cs => if cs.isEmpty then some [] else none
  | [k], cs => if cs.length = k then some cs else none
  | k :: ks, cs =>
    match cs.drop k with
    | '-' :: rest => (dehyphenate ks rest).map (cs.take k ++ ·)
    | _ => none

def ofDigits? (cs : List Char) : Option Uuid :=
  if cs.length = 32 then (Hex.number? cs).map ofNat else none

/-- The identifier of the hyphenated form. -/
def ofHyphenated? (cs : List Char) : Option Uuid :=
  (dehyphenate groupSizes cs).bind ofDigits?

/-- The characters, in lower case, before a hyphenated identifier written as a resource name. -/
def urnLead : List Char := "urn:uuid:".toList

/-- Reads any accepted form; the length decides which one is tried. -/
def ofChars? (cs : List Char) : Option Uuid :=
  if cs.length = 32 then ofDigits? cs
  else if cs.length = 36 then ofHyphenated? cs
  else if cs.length = 38 then
    if cs.head? = some '\x7b' ∧ cs.getLast? = some '\x7d' then ofHyphenated? (cs.drop 1).dropLast
    else none
  else if cs.length = 45 then
    if (cs.take 9).map Char.toLower = urnLead then ofHyphenated? (cs.drop 9) else none
  else none

def ofText? (s : String) : Option Uuid := ofChars? s.toList

end Uuid

end Patchbay
