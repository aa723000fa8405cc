import Mathlib
import Ostinato.Audio.Wave
import Ostinato.Proofs.Numeric.Order
import Ostinato.Proofs.Numeric.Wholes

/-!
# Samples of sixteen bits

A sample of the mix is widened, clamped and scaled before its fraction is dropped, and none of these steps rounds: the
24 bits of its mantissa times the 15 bits of the largest sample fit the 53 bits of the mantissa of double precision.  So
the result is the scaled number without its fraction, exactly (`quantize_exact`), and depends on the sample
monotonically.

* `truncate`: a real number without its fraction.
* `unitPart`: the nearest number in `[-1, 1]`.
* `widen_exact`, `clampUnit_exact`, `toInt_scaled`: the three steps.
-/

namespace Ostinato

open Numeric
open Float.Model (UnpackedFloat Format)
open Float.Model.UnpackedFloat

/-! ### Dropping the fraction -/

/-- The integer next to a number on the side of zero. -/
noncomputable def truncate (x : ℝ) : ℤ :=
  if 0 ≤ x then ⌊x⌋ else ⌈x⌉

private theorem truncate_of_nonneg {x : ℝ} (h : 0 ≤ x) : truncate x = ⌊x⌋ :=
  if_pos h

private theorem truncate_neg (x : ℝ) : truncate (-x) = -truncate x := by
  -- floor and ceiling change places, but at zero
  rcases lt_trichotomy x 0 with hlt | rfl | hgt
  · rw [truncate, truncate, if_pos (neg_nonneg.2 hlt.le), if_neg hlt.not_ge, Int.floor_neg]
  · simp [truncate]
  · rw [truncate, truncate, if_neg (neg_neg_of_pos hgt).not_ge, if_pos hgt.le, Int.ceil_neg]

private theorem truncate_mono : Monotone truncate := by
  intro x y hxy
  rcases le_or_gt 0 x with hx | hx
  · rw [truncate_of_nonneg hx, truncate_of_nonneg (hx.trans hxy)]
    exact Int.floor_mono hxy
  · rw [truncate, if_neg hx.not_ge, truncate]
    split
    · rename_i hy
      exact (Int.ceil_nonpos.2 hx.le).trans (Int.floor_nonneg.2 hy)
    · exact Int.ceil_mono hxy

/-- A fraction is dropped from the size, whatever the sign. -/
private theorem truncate_signed (s : Sign) {x : ℚ} (h : 0 ≤ x) : truncate ((signed s x : ℚ) : ℝ) = s.apply ⌊x⌋₊ := by
  have hpositive : truncate (x : ℝ) = ⌊x⌋₊ := by
    rw [truncate_of_nonneg (Rat.cast_nonneg.2 h), Rat.floor_cast, Int.natCast_floor_eq_floor h]
  cases s with
  | positive => exact hpositive
  | negative =>
    rw [signed, Rat.cast_neg, truncate_neg, hpositive]
    rfl

/-! ### Clamping values -/

/-- The number in `[-1, 1]` that is nearest to a number, which may be infinite. -/
noncomputable def unitPart (x : EReal) : ℝ :=
  (min 1 (max (-1) x)).toReal

private theorem neg_one_le_one : (-1 : EReal) ≤ 1 :=
  EReal.coe_le_coe_iff.2 (by norm_num)

private theorem coe_unitPart (x : EReal) : (unitPart x : EReal) = min 1 (max (-1) x) := by
  have hlow : (-1 : EReal) ≤ min 1 (max (-1) x) := le_min neg_one_le_one (le_max_left _ _)
  have hhigh : min 1 (max (-1) x) ≤ 1 := min_le_left _ _
  exact EReal.coe_toReal (hhigh.trans_lt (EReal.coe_lt_top 1)).ne ((EReal.bot_lt_coe (-1)).trans_le hlow).ne'

private theorem unitPart_le_one (x : EReal) : unitPart x ≤ 1 := by
  rw [← EReal.coe_le_coe_iff, coe_unitPart]
  exact min_le_left _ _

private theorem unitPart_mono : Monotone unitPart := by
  intro x y hxy
  rw [← EReal.coe_le_coe_iff, coe_unitPart, coe_unitPart]
  gcongr

private theorem unitPart_neg (x : EReal) : unitPart (-x) = -unitPart x := by
  rw [← EReal.coe_eq_coe_iff, EReal.coe_neg, coe_unitPart, coe_unitPart]
  calc min 1 (max (-1) (-x))
    _ = min (- -1) (-min 1 x) := by rw [EReal.max_neg_neg, neg_neg]
    _ = -max (-1) (min 1 x) := EReal.min_neg_neg _ _
    _ = -min 1 (max (-1) x) := by rw [max_min_distrib_left, max_eq_right neg_one_le_one]

/-! ### Widening -/

/-- A number of single precision stays exact if it is multiplied by a whole number of few bits. -/
private theorem inFormat_mul_natCast {x : ℚ} (h : InFormat .binary32 x) {n : ℕ} (hn : n ≤ 2 ^ 29) :
    InFormat .binary64 (x * n) := by
  obtain ⟨m, e, hm, he, rfl⟩ := h
  have hleast : Format.minExponent .binary64 ≤ e := le_trans (by decide) he
  refine ⟨m * n, e, (Nat.mul_le_mul hm hn).trans (by decide), hleast, ?_⟩
  push_cast
  ring

/-- Widening changes neither the value of a number nor the bits that it needs. -/
theorem widen_exact {x : Float32} (h : x.isNaN = false) :
    IsNumber .binary64 (widen x).toModel.unpack ∧ InFormat .binary32 (size (widen x).toModel.unpack) ∧
      value (widen x).toModel.unpack = value x.toModel.unpack := by
  have hwiden : (widen x).toModel.unpack = unpack .binary64 (pack .binary64 (reformat .binary64 x.toModel.unpack)) :=
    rfl
  have hbelow : x.toModel.unpack.isFinite = true → ∃ s, Below .binary32 s 128 x.toModel.unpack :=
    exists_below_unpack (by decide)
  have hnumber : IsNumber .binary32 x.toModel.unpack := isNumber_unpack h
  generalize x.toModel.unpack = u at hwiden hbelow hnumber ⊢
  cases hnumber with
  | infinity s =>
    have hback : (widen x).toModel.unpack = .infinity s := hwiden.trans unpack_packedInfinity
    rw [hback]
    exact ⟨.infinity s, ⟨0, 0, Nat.zero_le _, by decide, by simp [size]⟩, rfl⟩
  | finite hu =>
    obtain ⟨_, hbound⟩ := hbelow (Canonical.isFinite hu)
    have hnearest : Nearest .binary64 _ _ (reformat .binary64 u) := nearest_reformat hu
    -- the nearest number is the number itself, because the larger format holds it
    have hsize : size (reformat .binary64 u) = size u :=
      hnearest.size_eq (by simpa using inFormat_mul_natCast (Canonical.inFormat hu) (show 1 ≤ 2 ^ 29 by decide))
    have hback : (widen x).toModel.unpack = reformat .binary64 u := by
      refine hwiden.trans (unpack_pack (by decide) hnearest.canonical ?_)
      rw [hsize]
      exact hbound.size_le.trans (pow_le_pow_right₀ one_le_two (by decide))
    rw [hback, hnearest.canonical.value_eq, Canonical.value_eq hu, hsize]
    exact ⟨.finite hnearest.canonical, Canonical.inFormat hu, rfl⟩

/-! ### Clamping -/

private theorem size_one : size (1.0 : Float).toModel.unpack = 1 := by
  rw [show (1.0 : Float) = .ofModel (.ofNat 1) by decide]
  exact_mod_cast size_ofNat (n := 1) (by decide)

private theorem size_scale : size (32767.0 : Float).toModel.unpack = 32767 := by
  rw [show (32767.0 : Float) = .ofModel (.ofNat 32767) by decide]
  exact_mod_cast size_ofNat (n := 32767) (by decide)

private theorem double_one : Double .positive 0 1.0 :=
  double_of_isBelow (by decide)

private theorem double_minusOne : Double .negative 0 (-1.0) :=
  double_one.neg (by decide)

private theorem value_one : value (1.0 : Float).toModel.unpack = 1 := by
  rw [double_one.canonical.value_eq, size_one]
  simp [signed]

private theorem value_minusOne : value (-1.0 : Float).toModel.unpack = -1 := by
  have hneg : (-1.0 : Float).toModel.unpack = (1.0 : Float).toModel.unpack.neg := rfl
  rw [hneg, value_neg, value_one]

/-- Clamping takes the number between the bounds that is nearest. -/
theorem clampUnit_exact {x : Float} (hx : IsNumber .binary64 x.toModel.unpack)
    (hbits : InFormat .binary32 (size x.toModel.unpack)) :
    ∃ s, Double s 0 (clampUnit x) ∧ InFormat .binary32 (size (clampUnit x).toModel.unpack) ∧
      value (clampUnit x).toModel.unpack = min 1 (max (-1) (value x.toModel.unpack)) := by
  have hone : InFormat .binary32 1 := inFormat_two_pow .binary32 0
  have hbelow : x < -1.0 ↔ value x.toModel.unpack < -1 := by
    rw [float_lt_iff, hx.lt_iff (.finite double_minusOne.canonical), value_minusOne]
  have habove : x > 1.0 ↔ 1 < value x.toModel.unpack := by
    rw [gt_iff_lt, float_lt_iff, IsNumber.lt_iff (.finite double_one.canonical) hx, value_one]
  -- the cases are those of the definition, with the comparisons read as facts about the values
  unfold clampUnit
  split
  · rename_i hlt
    refine ⟨.negative, double_minusOne, ?_, ?_⟩
    · rwa [show (-1.0 : Float).toModel.unpack = (1.0 : Float).toModel.unpack.neg from rfl, size_neg, size_one]
    · rw [value_minusOne, max_eq_left (hbelow.1 hlt).le, min_eq_right neg_one_le_one]
  · rename_i hge
    rw [hbelow, not_lt] at hge
    split
    · rename_i hgt
      rw [value_one, min_eq_left ((habove.1 hgt).le.trans (le_max_right _ _))]
      exact ⟨.positive, double_one, by rwa [size_one], rfl⟩
    · rename_i hle
      rw [habove, not_lt] at hle
      obtain ⟨s, hs⟩ := hx.exists_below_one hge hle
      rw [max_eq_right hge, min_eq_right hle]
      exact ⟨s, hs, hbits, rfl⟩

/-! ### Scaling -/

private theorem toInt_truncate16 {x : Float} {s : Sign} (h : Canonical .binary64 s x.toModel.unpack)
    (hsize : size x.toModel.unpack ≤ 32767) : (truncate16 x).toInt = s.apply ⌊size x.toModel.unpack⌋₊ := by
  have hfloor : ⌊size x.toModel.unpack⌋₊ ≤ 32767 := Nat.floor_le_of_le hsize
  have hclamp : truncate16 x = Int16.ofIntClamp (s.apply ⌊size x.toModel.unpack⌋₊) :=
    congrArg Int16.ofIntClamp (h.toInt_eq _ _)
  have hlow : Int16.minValue.toInt ≤ s.apply ⌊size x.toModel.unpack⌋₊ := by
    cases s <;> simp only [Sign.apply, Int16.toInt_minValue] <;> omega
  have hhigh : s.apply ⌊size x.toModel.unpack⌋₊ ≤ Int16.maxValue.toInt := by
    cases s <;> simp only [Sign.apply, Int16.toInt_maxValue] <;> omega
  rw [hclamp, Int16.toInt_ofIntClamp hlow hhigh]

/-- The product with the largest sample needs so few bits that it is not rounded. -/
theorem toInt_scaled {x : Float} {s : Sign} (h : Double s 0 x) (hbits : InFormat .binary32 (size x.toModel.unpack)) :
    (truncate16 (x * 32767.0)).toInt = s.apply ⌊size x.toModel.unpack * 32767⌋₊ := by
  have hscale : Double .positive 15 32767.0 := double_of_isBelow (by decide)
  have hnearest := nearest_mul h.canonical hscale.canonical
  have hsign : s * .positive = s := by cases s <;> rfl
  rw [hsign, ← h.unpack_mul hscale (by decide), size_scale] at hnearest
  have hsize : size (x * 32767.0).toModel.unpack = size x.toModel.unpack * 32767 :=
    hnearest.size_eq (inFormat_mul_natCast hbits (show 32767 ≤ 2 ^ 29 by decide))
  have hone : size x.toModel.unpack ≤ 1 := h.size_le.trans_eq (pow_zero 2)
  rw [← hsize]
  exact toInt_truncate16 hnearest.canonical (by linarith)

/-- A sample is the number between the bounds, scaled and without its fraction. -/
private theorem toInt_quantize {x : Float32} (h : x.isNaN = false) :
    (quantize x).toInt = truncate (32767 * unitPart (value x.toModel.unpack)) := by
  obtain ⟨hwide, hbits, hvalue⟩ := widen_exact h
  obtain ⟨s, hclamped, hclampedBits, hclampedValue⟩ := clampUnit_exact hwide hbits
  have hunit : unitPart (value x.toModel.unpack) =
      ((signed s (size (clampUnit (widen x)).toModel.unpack) : ℚ) : ℝ) := by
    rw [← EReal.coe_eq_coe_iff, coe_unitPart, ← hvalue, ← hclampedValue, hclamped.canonical.value_eq]
  have hnonneg : 0 ≤ size (clampUnit (widen x)).toModel.unpack * 32767 := mul_nonneg (size_nonneg _) (by norm_num)
  calc (quantize x).toInt
    _ = s.apply ⌊size (clampUnit (widen x)).toModel.unpack * 32767⌋₊ := toInt_scaled hclamped hclampedBits
    _ = truncate ((signed s (size (clampUnit (widen x)).toModel.unpack * 32767) : ℚ) : ℝ) :=
      (truncate_signed s hnonneg).symm
    _ = truncate (32767 * unitPart (value x.toModel.unpack)) := by
      rw [hunit, signed_mul, mul_comm]
      push_cast
      rfl

/-! ### Samples -/

private theorem quantize_nan : quantize Float32.nan = 0 := by
  decide

private theorem quantize_of_isNaN {x : Float32} (h : x.isNaN = true) : quantize x = 0 := by
  obtain rfl : x = Float32.nan := by simpa using h
  exact quantize_nan

private theorem unpack_neg {x : Float32} (h : x.isNaN = false) : (-x).toModel.unpack = x.toModel.unpack.neg :=
  @unpack_pack_neg .binary32 _ (by decide) h

private theorem isNaN_neg (x : Float32) : (-x).isNaN = x.isNaN := by
  cases h : x.isNaN with
  | true =>
    obtain rfl : x = Float32.nan := by simpa using h
    decide
  | false =>
    have hneg : (-x).isNaN = (-x).toModel.unpack.isNaN := rfl
    have hnumber : x.toModel.unpack.isNaN = false := h
    rw [hneg, unpack_neg h]
    match x.toModel.unpack, hnumber with
    | .infinity _, _ | .zero _, _ | .finite .., _ => rfl

/-- A larger sample has no smaller result. -/
theorem quantize_mono {x y : Float32} (h : x ≤ y) : quantize x ≤ quantize y := by
  have hle := float32_le_iff.1 h
  obtain ⟨hx, hy⟩ := isNaN_of_le hle
  have hvalue : value x.toModel.unpack ≤ value y.toModel.unpack :=
    ((@isNumber_unpack .binary32 _ hx).le_iff (@isNumber_unpack .binary32 _ hy)).1 hle
  rw [Int16.le_iff_toInt_le, toInt_quantize hx, toInt_quantize hy]
  exact truncate_mono (mul_le_mul_of_nonneg_left (unitPart_mono hvalue) (by norm_num))

private theorem toInt_quantize_neg (x : Float32) : (quantize (-x)).toInt = -(quantize x).toInt := by
  cases h : x.isNaN with
  | true =>
    rw [quantize_of_isNaN h, quantize_of_isNaN ((isNaN_neg x).trans h)]
    rfl
  | false =>
    rw [toInt_quantize ((isNaN_neg x).trans h), toInt_quantize h, unpack_neg h, value_neg, unitPart_neg, mul_neg,
      truncate_neg]

private theorem toInt_quantize_le (x : Float32) : (quantize x).toInt ≤ 32767 := by
  cases h : x.isNaN with
  | true =>
    rw [quantize_of_isNaN h]
    decide
  | false =>
    have hscaled : 32767 * unitPart (value x.toModel.unpack) ≤ (32767 : ℝ) := by
      linarith [unitPart_le_one (value x.toModel.unpack)]
    calc (quantize x).toInt
      _ = truncate (32767 * unitPart (value x.toModel.unpack)) := toInt_quantize h
      _ ≤ truncate 32767 := truncate_mono hscaled
      _ = 32767 := by rw [truncate_of_nonneg (by norm_num), Int.floor_ofNat]

/-- The results are symmetric, so the least number of 16 bits is none of them. -/
private theorem le_toInt_quantize (x : Float32) : -32767 ≤ (quantize x).toInt := by
  have hneg := toInt_quantize_le (-x)
  rw [toInt_quantize_neg] at hneg
  omega

theorem quantize_neg (x : Float32) : quantize (-x) = -quantize x := by
  have hlow := le_toInt_quantize x
  have hhigh := toInt_quantize_le x
  rw [← Int16.toInt_inj, Int16.toInt_neg, toInt_quantize_neg]
  exact (Int.bmod_eq_of_le (by omega) (by omega)).symm

/-- The result for a sample is its value, kept within `[-1, 1]` and multiplied by the largest number of 16 bits, without
its fraction, and no step on the way rounds.  So larger samples have no smaller results, and negative ones the negative
results; the least number of 16 bits is never reached, and what is no number is silent.  A buffer is converted sample by
sample. -/
theorem quantize_exact :
    (∀ x : Float32, x.isNaN = false →
      (quantize x).toInt = truncate (32767 * unitPart (value x.toModel.unpack))) ∧
    (∀ x : Float32, x.isNaN = true → quantize x = 0) ∧
    (∀ x y : Float32, x ≤ y → quantize x ≤ quantize y) ∧
    (∀ x : Float32, quantize (-x) = -quantize x) ∧
    (∀ x : Float32, -32767 ≤ (quantize x).toInt ∧ (quantize x).toInt ≤ 32767) ∧
    ∀ master : Buffer, (quantizeAll master).length = master.size ∧
      ∀ i : ℕ, (quantizeAll master)[i]? = master[i]?.map quantize := by
  refine ⟨fun x => toInt_quantize, fun x => quantize_of_isNaN, fun x y => quantize_mono, quantize_neg,
    fun x => ⟨le_toInt_quantize x, toInt_quantize_le x⟩, fun master => ⟨?_, fun i => ?_⟩⟩
  · simp [quantizeAll]
  · simp [quantizeAll]

/-- The largest number below one has the largest result but one. -/
theorem quantize_exact_nearlyOne :
    let x := Float32.ofBits 0x3f7fffff
    x.isNaN = false ∧ x ≤ 1.0 ∧ truncate (32767 * unitPart (value x.toModel.unpack)) = 32766 ∧
      quantize x ≤ quantize 1.0 ∧ (Float32.nan).isNaN = true ∧ quantize Float32.nan = 0 := by
  intro x
  obtain ⟨hexact, hinvalid, hmono, -⟩ := quantize_exact
  have hnumber : x.isNaN = false := by decide
  have hle : x ≤ 1.0 := by decide
  have hresult : (quantize x).toInt = 32766 := by decide
  have hnan : Float32.nan.isNaN = true := by decide
  exact ⟨hnumber, hle, (hexact x hnumber).symm.trans hresult, hmono x 1.0 hle, hnan, hinvalid _ hnan⟩

end Ostinato
