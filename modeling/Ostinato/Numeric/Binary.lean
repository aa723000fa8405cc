/-!
# Binary floating point: conversions

Conversions between the two binary formats and the integers, written over the unpacked form of a number (sign,
mantissa, exponent) so that every one of them can be computed inside the logic.

* `widen` and `narrow` go between single and double precision; only `narrow` rounds, to nearest, ties to even.
* `ofInt64` rounds an integer to double precision.
* `truncate16` drops the fraction and saturates at the ends of a 16-bit word.
-/

namespace Ostinato.Numeric

open Float.Model (UnpackedFloat Format)

/-! ### Between the formats -/

/-- The number in the given format that is nearest to `x`, ties to even. -/
def reformat (format : Format) (x : UnpackedFloat) : UnpackedFloat :=
  match x with
  | .finite sign mantissa exponent _ => UnpackedFloat.round format sign mantissa exponent
  | special => special

/-- Double precision holds every single precision number. -/
def widen (x : Float32) : Float :=
  .ofModel (.pack (reformat .binary64 x.toModel.unpack))

/-- Rounds to single precision. -/
def narrow (x : Float) : Float32 :=
  .ofModel (.pack (reformat .binary32 x.toModel.unpack))

/-! ### Integers -/

/-- The double precision number nearest to a signed word. -/
def ofInt64 (n : Int64) : Float :=
  .ofModel (.ofInt64 n)

/-- Drops the fraction; numbers outside the 16-bit range go to its nearer end and no number at all to zero. -/
def truncate16 (x : Float) : Int16 :=
  x.toModel.toInt16

end Ostinato.Numeric
