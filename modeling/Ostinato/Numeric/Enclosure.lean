/-!
# Enclosures and their rounding

A real number whose sign is known, and whose size is known to lie between two dyadic numbers, can be rounded as soon
as both ends round to the same number of the format.  `roundRefined` asks for narrower and narrower enclosures until
that happens, which gives the correctly rounded value of a function from any method that encloses it.
-/

namespace Ostinato.Numeric

open Float.Model (UnpackedFloat Format)
open Float.Model.UnpackedFloat (Sign)

/-- A real number with the given sign whose size lies between `lower * 2 ^ exponent` and `upper * 2 ^ exponent`. -/
structure Enclosure where
  sign : Sign
  lower : Nat
  upper : Nat
  exponent : Int

/-- The number of the format nearest to `mantissa * 2 ^ exponent`, ties to even. -/
def roundDyadic (format : Format) (sign : Sign) (mantissa : Nat) (exponent : Int) : UnpackedFloat :=
  let target := format.targetExponent (Float.Model.totalExponent mantissa exponent)
  let drop := (target - exponent).toNat
  if drop = 0 then
    UnpackedFloat.round format sign mantissa exponent
  else
    UnpackedFloat.roundWithAccuracy format sign (mantissa >>> drop) (exponent + drop)
      (UnpackedFloat.accuracyOfFraction (mantissa % (1 <<< drop)) (1 <<< drop))

/-- The common rounding of both ends, if there is one. -/
def Enclosure.round? (format : Format) (b : Enclosure) : Option UnpackedFloat :=
  let low := roundDyadic format b.sign b.lower b.exponent
  let high := roundDyadic format b.sign b.upper b.exponent
  if low.pack format = high.pack format then some low else none

/-- Rounds a number that can be enclosed at any precision, trying the precisions in turn and settling for the lower
end of the last enclosure. -/
def roundRefined (format : Format) (enclose : Nat → Enclosure) : List Nat → UnpackedFloat
  | [] => .notANumber
  | [precision] =>
    let b := enclose precision
    (b.round? format).getD (roundDyadic format b.sign b.lower b.exponent)
  | precision :: finer =>
    ((enclose precision).round? format).getD (roundRefined format enclose finer)

end Ostinato.Numeric
