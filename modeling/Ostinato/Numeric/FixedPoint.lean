/-!
# Fixed point series

Elementary functions and constants on natural numbers scaled by `2 ^ p`.  Every result is within a few hundred
units of the last place of the true value; `slack` is the bound that callers use.

* `piScaled`, `ln2Scaled`: the constants, from the arctangent and the area tangent of reciprocals.
* `sinScaled`, `cosScaled`: on `[0, 1]`.
* `expScaled`: on `[0, 1]`.
-/

namespace Ostinato.Numeric

/-- One, scaled by `2 ^ p`. -/
def unit (p : Nat) : Nat := 1 <<< p

/-- A bound on the error of the scaled functions, in units of the last place. -/
def slack : Nat := 512

/-! ### Constants -/

/-- Sums `power / d ± power / (n² (d + 2)) + …`, signs alternating when `flip` is `-1`, for at most `fuel` terms. -/
def reciprocalSeries (n : Nat) (flip : Int) : (fuel power d : Nat) → (sign sum : Int) → Int
  | 0, _, _, _, sum => sum
  | fuel + 1, power, d, sign, sum =>
    if power = 0 then sum
    else reciprocalSeries n flip fuel (power / (n * n)) (d + 2) (sign * flip) (sum + sign * (power / d : Nat))

/-- The arctangent of `1 / n`, scaled by `2 ^ p`. -/
def arctanReciprocal (n p : Nat) : Int :=
  reciprocalSeries n (-1) p (unit p / n) 1 1 0

/-- The area tangent of `1 / n`, scaled by `2 ^ p`. -/
def artanhReciprocal (n p : Nat) : Int :=
  reciprocalSeries n 1 p (unit p / n) 1 1 0

/-- `π` scaled by `2 ^ p`, by `π / 4 = 4 arctan (1 / 5) - arctan (1 / 239)` with 24 bits to spare. -/
def computePi (p : Nat) : Nat :=
  (16 * arctanReciprocal 5 (p + 24) - 4 * arctanReciprocal 239 (p + 24)).toNat >>> 24

/-- `ln 2` scaled by `2 ^ p`, as twice the area tangent of one third. -/
def computeLn2 (p : Nat) : Nat :=
  (2 * artanhReciprocal 3 (p + 24)).toNat >>> 24

/-- The precision up to which the constants are kept. -/
def keptBits : Nat := 1408

def keptPi : Nat := computePi keptBits

def keptLn2 : Nat := computeLn2 keptBits

/-- `π` scaled by `2 ^ p`. -/
def piScaled (p : Nat) : Nat :=
  if p ≤ keptBits then keptPi >>> (keptBits - p) else computePi p

/-- `ln 2` scaled by `2 ^ p`. -/
def ln2Scaled (p : Nat) : Nat :=
  if p ≤ keptBits then keptLn2 >>> (keptBits - p) else computeLn2 p

/-! ### Series -/

/-- Sums the terms that follow `term`, where each is the one before times `x / (d (d + 1))` with its sign changed. -/
def alternatingSeries (p x : Nat) : (fuel term d : Nat) → (sign sum : Int) → Int
  | 0, _, _, _, sum => sum
  | fuel + 1, term, d, sign, sum =>
    let term := ((term * x) >>> p) / (d * (d + 1))
    if term = 0 then sum else alternatingSeries p x fuel term (d + 2) (-sign) (sum + sign * term)

/-- The sine of `x / 2 ^ p` for arguments in `[0, 1]`. -/
def sinScaled (p x : Nat) : Nat :=
  (alternatingSeries p ((x * x) >>> p) p x 2 (-1) x).toNat

/-- The cosine of `x / 2 ^ p` for arguments in `[0, 1]`. -/
def cosScaled (p x : Nat) : Nat :=
  (alternatingSeries p ((x * x) >>> p) p (unit p) 1 (-1) (unit p)).toNat

/-- Sums the terms that follow `term`, where each is the one before times `x / d`. -/
def exponentialSeries (p x : Nat) : (fuel term d sum : Nat) → Nat
  | 0, _, _, sum => sum
  | fuel + 1, term, d, sum =>
    let term := ((term * x) >>> p) / d
    if term = 0 then sum else exponentialSeries p x fuel term (d + 1) (sum + term)

/-- The number of halvings before the exponential series is summed. -/
def halvings : Nat := 8

/-- Squares a number scaled by `2 ^ p` the given number of times. -/
def squareScaled (p : Nat) : (count x : Nat) → Nat
  | 0, x => x
  | count + 1, x => squareScaled p count ((x * x) >>> p)

/-- The exponential of `x / 2 ^ p` for arguments in `[0, 1]`: that of a halved argument, squared again, with two bits
to spare for each halving. -/
def expScaled (p x : Nat) : Nat :=
  let q := p + 2 * halvings
  squareScaled q halvings (exponentialSeries q (x <<< halvings) q (unit q) 1 (unit q)) >>> (2 * halvings)

end Ostinato.Numeric
