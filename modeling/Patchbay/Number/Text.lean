import Patchbay.Number.Shortest
import Patchbay.Number.Single

/-!
# Floating-point numbers as decimal text

A finite number is written with its shortest digits (`Patchbay.Number.Shortest`) in one of two
layouts: plain, always with at least one digit on either side of the point, or scientific, one digit
before the point, the exponent always signed. A `Layout` says which exponents are plain. The sign of
zero is kept.
-/

namespace Patchbay.Decimal

open Float.Model (Format UnpackedFloat)

/-- Which numbers are written plainly, by the exponent of their first digit. -/
structure Layout where
  /-- Whether a number whose first digit has this exponent is written plainly. -/
  plain : Int → Bool

/-- Documents write plainly from `0.00001` up to sixteen digits before the point. -/
def Layout.document : Layout := ⟨fun e => decide (-5 ≤ e) && decide (e ≤ 15)⟩

/-- Settings write every number plainly. -/
def Layout.settings : Layout := ⟨fun _ => true⟩

def zeros (n : Nat) : String := String.ofList (List.replicate n '0')

/-- A positive decimal without exponent. -/
def plainText (d : Decimal) : String :=
  let ds := Nat.toDigits 10 d.coefficient
  match d.exponent with
  | .ofNat k => String.ofList ds ++ zeros k ++ ".0"
  | .negSucc k =>
    let places := k + 1
    if places < ds.length then
      String.ofList (ds.take (ds.length - places)) ++ "." ++
        String.ofList (ds.drop (ds.length - places))
    else "0." ++ zeros (places - ds.length) ++ String.ofList ds

/-- A positive decimal with one digit before the point and a signed exponent. -/
def scientificText (d : Decimal) : String :=
  let ds := Nat.toDigits 10 d.coefficient
  let lead := d.exponent + Int.ofNat (ds.length - 1)
  let fraction := if ds.length ≤ 1 then "" else "." ++ String.ofList (ds.drop 1)
  let sign := if lead < 0 then "-" else "+"
  String.ofList (ds.take 1) ++ fraction ++ "e" ++ sign ++ toString lead.natAbs

/-- A positive decimal in the given layout. -/
def text (layout : Layout) (d : Decimal) : String :=
  let lead := d.exponent + Int.ofNat (digitCount d.coefficient - 1)
  if layout.plain lead then d.plainText else d.scientificText

/-- The text of a finite number of the given format, or nothing for infinities and NaN. -/
def finiteText? (format : Format) (most : Nat) (layout : Layout) : UnpackedFloat → Option String
  | .notANumber => none
  | .infinity _ => none
  | .zero s => some (if s == .negative then "-0.0" else "0.0")
  | .finite s m e _ =>
    let least :=
      m == Nat.pow 2 format.mantissaBitsWithoutImplicit && decide (format.minExponent < e)
    let body := (shortest most m e least).text layout
    some (if s == .negative then "-" ++ body else body)

/-- The text of a double-precision number, if it is finite. -/
def doubleText? (layout : Layout) (x : Float) : Option String :=
  finiteText? Format.binary64 17 layout (Single.unpackDouble x)

/-- The text of a single-precision number, if it is finite. -/
def singleText? (layout : Layout) (x : Float32) : Option String :=
  finiteText? Format.binary32 9 layout (Single.unpack x)

end Patchbay.Decimal
