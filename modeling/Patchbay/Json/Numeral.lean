import Patchbay.Json

/-!
# Reading a number

A numeral without fraction and exponent that fits 64 bits, signed or unsigned, is an integer; minus
zero is not. Every other numeral is a double-precision number, read in two steps. First the digits
are collected into a significand of 64 bits: digits of the integer part that no longer fit count
into the exponent, those of the fraction are dropped (`collect`). Then the significand is scaled
once by a power of ten (`scale`). A numeral beyond the largest finite number is refused.
-/

namespace Patchbay.Numeral

/-- The value of a decimal digit. -/
def digit? (c : Char) : Option Nat :=
  if '0' ≤ c ∧ c ≤ '9' then some (c.toNat - 48) else none

/-- The leading digits and what follows them. -/
def digits (cs : List Char) : List Nat × List Char :=
  ((cs.takeWhile fun c => (digit? c).isSome).filterMap digit?,
    cs.dropWhile fun c => (digit? c).isSome)

/-- A significand, the power of ten that scales it, and whether digits have been left out. -/
structure Scaled where
  /-- The digits kept. -/
  significand : Nat
  /-- The power of ten. -/
  exponent : Int
  /-- Whether a digit did not fit. -/
  full : Bool

/-- Appends a digit if the significand stays below `2 ^ 64` and no digit was left out before;
a digit kept moves the exponent by `kept`, one left out by `dropped`. -/
def Scaled.push (kept dropped : Int) (s : Scaled) (d : Nat) : Scaled :=
  if s.full then { s with exponent := s.exponent + dropped }
  else if s.significand * 10 + d < UInt64.size then
    { s with significand := s.significand * 10 + d, exponent := s.exponent + kept }
  else { s with exponent := s.exponent + dropped, full := true }

/-- The digits of an integer part. -/
def collect (integer : List Nat) : Scaled :=
  integer.foldl (Scaled.push 0 1) ⟨0, 0, false⟩

/-- Adds the digits of a fraction. The fraction starts anew: a digit that fits is appended even if
the integer part left digits out. -/
def Scaled.collectFraction (s : Scaled) (fraction : List Nat) : Scaled :=
  fraction.foldl (Scaled.push (-1) 0) { s with full := false }

/-- `10 ^ n` in double precision, for `n` up to 308. -/
def powerOfTen (n : Nat) : Float := Float.ofScientific 1 false n

/-- Scales a significand by a power of ten with one operation, or with two if the number is far below
one; nothing if the result is too large. -/
def scale (significand : Nat) (exponent : Int) : Option Float :=
  let f := Float.ofScientific significand false 0
  if exponent > 308 then if f == 0 then some f else none
  else if 0 ≤ exponent then
    let r := f * powerOfTen exponent.toNat
    if r.isInf then none else some r
  else if -308 ≤ exponent then some (f / powerOfTen exponent.natAbs)
  else if -616 ≤ exponent then some (f / powerOfTen 308 / powerOfTen (exponent.natAbs - 308))
  else some 0

/-- Gives a double its sign. -/
def signed (negative : Bool) (x : Float) : JsonNumber := .double (if negative then -x else x)

/-- The exponent part after `e` or `E`: a sign that may be left out, and at least one digit. -/
def exponent? (cs : List Char) : Option (Int × List Char) :=
  let (negative, cs) : Bool × List Char :=
    match cs with
    | '+' :: rest => (false, rest)
    | '-' :: rest => (true, rest)
    | rest => (false, rest)
  match digits cs with
  | ([], _) => none
  | (ds, rest) =>
    let n : Int := Int.ofNat (ds.foldl (fun n d => 10 * n + d) 0)
    some (if negative then -n else n, rest)

/-- Ends a numeral that has a fraction, an exponent or too many digits. -/
def finish (negative : Bool) (s : Scaled) (cs : List Char) : Option (JsonNumber × List Char) :=
  match cs with
  | 'e' :: rest | 'E' :: rest => do
    let (e, rest) ← exponent? rest
    let x ← scale s.significand (s.exponent + e)
    return (signed negative x, rest)
  | rest => do
    let x ← scale s.significand s.exponent
    return (signed negative x, rest)

/-- An integer, or the double that stands for one outside the 64-bit range. -/
def ofInteger (negative : Bool) (n : Nat) : JsonNumber :=
  if negative then
    if 0 < n ∧ n ≤ Nat.pow 2 63 then .int (-Int.ofNat n)
    else .double (-(Float.ofScientific n false 0))
  else .int (Int.ofNat n)

/-- Reads a numeral without its sign. The integer part is a lone zero or starts with another
digit. -/
def readUnsigned (negative : Bool) (cs : List Char) : Option (JsonNumber × List Char) :=
  match digits cs with
  | ([], _) => none
  | (0 :: _ :: _, _) => none
  | (ds, rest) =>
    let s := collect ds
    match rest with
    | '.' :: rest =>
      match digits rest with
      | ([], _) => none
      | (fs, rest) => finish negative (s.collectFraction fs) rest
    | 'e' :: _ | 'E' :: _ => finish negative s rest
    | rest =>
      if s.full then finish negative s rest
      else some (ofInteger negative s.significand, rest)

/-- Reads a numeral from the front of a text and returns what follows it. -/
def read (cs : List Char) : Option (JsonNumber × List Char) :=
  match cs with
  | '-' :: rest => readUnsigned true rest
  | rest => readUnsigned false rest

end Patchbay.Numeral
