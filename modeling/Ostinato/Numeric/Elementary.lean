import Ostinato.Numeric.Binary
import Ostinato.Numeric.Enclosure
import Ostinato.Numeric.FixedPoint

/-!
# Correctly rounded elementary functions

Sine, exponential and powers of two in double precision, and the hyperbolic tangent in single precision.  Each is
the exact real value rounded once to nearest, ties to even; infinities, signed zeros and values that are no number
follow the usual rules of binary floating point.

* `sine`: no number at the infinities, the argument itself at the zeros.
* `exponential` and `powerOfTwo`: zero and infinity at the infinities, one at the zeros.
* `tanhSingle`: plus or minus one at the infinities, the argument itself at the zeros.
-/

namespace Ostinato.Numeric

open Float.Model (UnpackedFloat Format)
open Float.Model.UnpackedFloat (Sign)

/-- Floor of `mantissa * 2 ^ exponent`, scaled by `2 ^ p`. -/
def scale (mantissa : Nat) (exponent : Int) (p : Nat) : Nat :=
  let shift := exponent + p
  if shift < 0 then mantissa >>> (-shift).toNat else mantissa <<< shift.toNat

/-- The position of the leading bit of `mantissa * 2 ^ exponent`: the number lies between that power of two and the
next. -/
def leadingBit (mantissa : Nat) (exponent : Int) : Int :=
  mantissa.log2 + exponent

/-- The numbers of one sign whose scaled size is within `slack` of `value`. -/
def around (sign : Sign) (value : Nat) (exponent : Int) : Enclosure :=
  ⟨sign, value - slack, value + slack, exponent⟩

/-- The precisions tried for results of double precision. -/
def doublePrecisions : List Nat := [76, 128, 384, 768]

/-- The precisions tried for results of single precision. -/
def singlePrecisions : List Nat := [48, 96, 320]

/-! ### Sine -/

/-- A whole number of quarter turns and the signed rest of an angle after it, at most an eighth of a turn. -/
structure Turn where
  quarters : Nat
  behind : Bool
  rest : Nat

/-- Takes the nearest multiple of `π / 2` off the angle `mantissa * 2 ^ exponent`; the rest is scaled by `2 ^ p`. -/
def Turn.ofAngle (mantissa : Nat) (exponent : Int) (p : Nat) : Turn :=
  let guard := (leadingBit mantissa exponent).toNat + 8
  let angle := scale mantissa exponent (p + guard)
  let quarter := piScaled (p + guard) / 2
  let quarters := (2 * angle + quarter) / (2 * quarter)
  let whole := quarters * quarter
  if whole ≤ angle then ⟨quarters, false, (angle - whole) >>> guard⟩
  else ⟨quarters, true, (whole - angle) >>> guard⟩

/-- Whether the sine after this turn is negative, and its size. -/
def Turn.sine (p : Nat) (t : Turn) : Bool × Nat :=
  match t.quarters % 4 with
  | 0 => (t.behind, sinScaled p t.rest)
  | 1 => (false, cosScaled p t.rest)
  | 2 => (!t.behind, sinScaled p t.rest)
  | _ => (true, cosScaled p t.rest)

/-- The sine of a number, with `extra` bits more than the size of the argument asks for. -/
def encloseSine (sign : Sign) (mantissa : Nat) (exponent : Int) (extra : Nat) : Enclosure :=
  let p := extra + (-leadingBit mantissa exponent).toNat
  let (negative, size) := (Turn.ofAngle mantissa exponent p).sine p
  around (if negative then -sign else sign) size (-p)

def sine (x : Float) : Float :=
  match x.toModel.unpack with
  | .finite sign mantissa exponent _ =>
    .ofModel (.pack (roundRefined .binary64 (encloseSine sign mantissa exponent) doublePrecisions))
  | .zero _ => x
  | _ => .ofModel (.pack .notANumber)

/-! ### Exponential -/

/-- The exponential of a number below `2 ^ 11` in size, at `p` bits: the multiple of `ln 2` in the argument becomes
the exponent. -/
def encloseExp (sign : Sign) (mantissa : Nat) (exponent : Int) (p : Nat) : Enclosure :=
  let argument := sign.apply (scale mantissa exponent (p + 16))
  let ln2 : Int := ln2Scaled (p + 16)
  let octaves := argument.fdiv ln2
  around .positive (expScaled p ((argument - octaves * ln2).toNat >>> 16)) (octaves - p)

def exponential (x : Float) : Float :=
  match x.toModel.unpack with
  | .finite sign mantissa exponent _ =>
    if leadingBit mantissa exponent < 11 then
      .ofModel (.pack (roundRefined .binary64 (encloseExp sign mantissa exponent) doublePrecisions))
    else .ofModel (.pack (if sign == .negative then .zero .positive else .infinity .positive))
  | .zero _ => 1.0
  | .infinity .negative => 0.0
  | .infinity .positive => x
  | .notANumber => x

/-! ### Powers of two -/

/-- The power of two whose exponent is `whole + fraction / 2 ^ bits`, at `p` bits. -/
def enclosePower (whole : Int) (fraction bits p : Nat) : Enclosure :=
  around .positive (expScaled p ((scale fraction (-bits) p * ln2Scaled p) >>> p)) (whole - p)

/-- Two to the power of `x`. -/
def powerOfTwo (x : Float) : Float :=
  match x.toModel.unpack with
  | .finite sign mantissa exponent _ =>
    if leadingBit mantissa exponent < 12 then
      let bits := (-exponent).toNat
      let scaled := sign.apply (mantissa <<< exponent.toNat : Nat)
      let whole := scaled.fdiv (unit bits)
      match (scaled - whole * unit bits).toNat with
      | 0 => .ofModel (.pack (roundDyadic .binary64 .positive 1 whole))
      | fraction =>
        .ofModel (.pack (roundRefined .binary64 (enclosePower whole fraction bits) doublePrecisions))
    else .ofModel (.pack (if sign == .negative then .zero .positive else .infinity .positive))
  | .zero _ => 1.0
  | .infinity .negative => 0.0
  | .infinity .positive => x
  | .notANumber => x

/-! ### Hyperbolic tangent -/

/-- `e ^ y - 1` for `y = x / 2 ^ p` in `[0, 1]`, as `y` plus the later terms of its series. -/
def expMinusOneScaled (p x : Nat) : Nat :=
  exponentialSeries p x p x 2 x

/-- The hyperbolic tangent of a number, as `(e ^ 2y - 1) / (e ^ 2y + 1)` of its size `y`, with `extra` bits more than
the size asks for. -/
def encloseTanh (sign : Sign) (mantissa : Nat) (exponent : Int) (extra : Nat) : Enclosure :=
  let p := extra + (-leadingBit mantissa exponent).toNat
  let double := scale mantissa (exponent + 1) p
  let ln2 := ln2Scaled p
  let octaves := double / ln2
  let minusOne :=
    if octaves = 0 then expMinusOneScaled p double
    else (expScaled p (double - octaves * ln2) <<< octaves) - unit p
  around sign ((minusOne <<< p) / (minusOne + 2 * unit p)) (-p)

def tanhSingle (x : Float32) : Float32 :=
  match x.toModel.unpack with
  | .finite sign mantissa exponent _ =>
    if leadingBit mantissa exponent < 5 then
      .ofModel (.pack (roundRefined .binary32 (encloseTanh sign mantissa exponent) singlePrecisions))
    else if sign == .negative then -1.0 else 1.0
  | .zero _ => x
  | .infinity .negative => -1.0
  | .infinity .positive => 1.0
  | .notANumber => x

end Ostinato.Numeric
