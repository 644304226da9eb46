/-!
# Single precision: widening, narrowing and integers

Arithmetic and comparison of single-precision numbers are those of `Float32`. This module adds the
conversions, each defined on the unpacked form (sign, mantissa, exponent) so that it can be reasoned
about: widening to double precision is exact, narrowing rounds to nearest with ties to even and
overflows to infinity, and conversion to a 64-bit integer truncates and stays within range.
-/

namespace Patchbay.Single

open Float.Model (Format UnpackedFloat)

/-- The sign, mantissa and exponent of a single-precision number. -/
def unpack (x : Float32) : UnpackedFloat :=
  UnpackedFloat.unpack Format.binary32 x.toBits.toBitVec

/-- The sign, mantissa and exponent of a double-precision number. -/
def unpackDouble (x : Float) : UnpackedFloat :=
  UnpackedFloat.unpack Format.binary64 x.toBits.toBitVec

/-- The single-precision number nearest to an unpacked value. -/
def pack (x : UnpackedFloat) : Float32 :=
  match x with
  | .finite s m e _ =>
    Float32.ofBits ⟨UnpackedFloat.pack Format.binary32 (UnpackedFloat.round Format.binary32 s m e)⟩
  | x => Float32.ofBits ⟨UnpackedFloat.pack Format.binary32 x⟩

/-- The double-precision number nearest to an unpacked value. -/
def packDouble (x : UnpackedFloat) : Float :=
  match x with
  | .finite s m e _ =>
    Float.ofBits ⟨UnpackedFloat.pack Format.binary64 (UnpackedFloat.round Format.binary64 s m e)⟩
  | x => Float.ofBits ⟨UnpackedFloat.pack Format.binary64 x⟩

/-- The same value in double precision. -/
def widen (x : Float32) : Float := packDouble (unpack x)

/-- The nearest value in single precision; a tie goes to the even mantissa, and what is too large
becomes infinite. -/
def narrow (x : Float) : Float32 := pack (unpackDouble x)

/-- The single-precision number nearest to an integer. -/
def ofInt (n : Int) : Float32 :=
  Float32.ofBits ⟨UnpackedFloat.pack Format.binary32 (UnpackedFloat.ofInt Format.binary32 n)⟩

/-- The integer part, held within the range of 64-bit integers; zero for a NaN. -/
def toInt64 (x : Float32) : Int64 := (unpack x).toInt64

/-- The nearest number in `[0, 1]`; a NaN stays a NaN. -/
def clampUnit (x : Float32) : Float32 :=
  if x < 0 then 0 else if x > 1 then 1 else x

end Patchbay.Single
