import Mathlib
import Ostinato.Proofs.Numeric.Bounds

/-!
# Whole numbers in double precision

Whole numbers are held exactly as long as they have no more bits than the mantissa, and the fraction of a number is
dropped exactly.  So a result is rounded down wrongly only if rounding to nearest has taken it to the other side of a
whole number, which it does within half a step of that number.

* `Nearest.abs_size_sub_le_div`: the error of one operation.
* `natCast_le_size_mul_iff`: which products become at least a whole number.
* `Canonical.toInt_eq`: dropping the fraction.
-/

namespace Ostinato.Numeric

open Float.Model (UnpackedFloat Format totalExponent)
open Float.Model.UnpackedFloat

variable {format : Format} {sign sign' : Sign} {x : ℚ} {n : ℕ} {u v : UnpackedFloat}

theorem inFormat_natCast (hn : n ≤ 2 ^ format.mantissaBits) : InFormat format n := by
  refine ⟨n, 0, hn, ?_, by simp⟩
  have hmin := minExponent_eq format
  have hbits := format.hm
  omega

/-! ### The error of one operation -/

/-- A positive number lies between two whole numbers of units that follow each other, and fills the bits of the
mantissa with them. -/
private theorem exists_neighbors (format : Format) (hpos : 0 < x) :
    ∃ (m : ℕ) (t : ℤ), t = Int.log 2 x - format.mantissaBitsWithoutImplicit ∧
      2 ^ format.mantissaBitsWithoutImplicit ≤ m ∧ m + 1 ≤ 2 ^ format.mantissaBits ∧
      m * 2 ^ t ≤ x ∧ x < (m + 1) * 2 ^ t := by
  obtain ⟨t, ht⟩ : ∃ t, t = Int.log 2 x - format.mantissaBitsWithoutImplicit := ⟨_, rfl⟩
  have hunit : (0 : ℚ) < 2 ^ t := by positivity
  have hlow : ((2 ^ format.mantissaBitsWithoutImplicit : ℕ) : ℚ) ≤ x / 2 ^ t := by
    have hlog : (format.mantissaBitsWithoutImplicit : ℤ) + t = Int.log 2 x := by omega
    rw [le_div_iff₀ hunit, Nat.cast_pow, Nat.cast_ofNat, ← zpow_natCast, ← zpow_add₀ two_ne_zero, hlog]
    exact_mod_cast Int.zpow_log_le_self one_lt_two hpos
  have hhigh : x / 2 ^ t < ((2 ^ format.mantissaBits : ℕ) : ℚ) := by
    have hlog : (format.mantissaBits : ℤ) + t = Int.log 2 x + 1 := by
      rw [Format.mantissaBits]
      omega
    rw [div_lt_iff₀ hunit, Nat.cast_pow, Nat.cast_ofNat, ← zpow_natCast, ← zpow_add₀ two_ne_zero, hlog]
    exact_mod_cast Int.lt_zpow_succ_log_self one_lt_two x
  have hnonneg : 0 ≤ x / 2 ^ t := (div_pos hpos hunit).le
  refine ⟨⌊x / 2 ^ t⌋₊, t, ht, Nat.le_floor hlow, (Nat.floor_lt hnonneg).2 hhigh, ?_, ?_⟩
  · exact (le_div_iff₀ hunit).1 (Nat.floor_le hnonneg)
  · exact (div_lt_iff₀ hunit).1 (Nat.lt_floor_add_one _)

/-- What is rounded changes by half a unit at most, which is a small part of it unless it is too small to fill the bits
of the mantissa. -/
theorem Nearest.abs_size_sub_le_div (h : Nearest format sign x u)
    (hx : 2 ^ (format.minExponent + format.mantissaBitsWithoutImplicit) ≤ x) :
    |size u - x| ≤ x / 2 ^ format.mantissaBits := by
  have hpos : 0 < x := lt_of_lt_of_le (by positivity) hx
  obtain ⟨m, t, ht, hlow, hhigh, hle, hlt⟩ := exists_neighbors format hpos
  have hleast : format.minExponent ≤ t := by
    have hlog := (Int.zpow_le_iff_le_log one_lt_two hpos).1 (by exact_mod_cast hx)
    omega
  have hbelow := h.abs_size_sub_le (m * 2 ^ t) ⟨m, t, (Nat.le_succ m).trans hhigh, hleast, rfl⟩
  have habove := h.abs_size_sub_le ((m + 1 : ℕ) * 2 ^ t) ⟨m + 1, t, hhigh, hleast, rfl⟩
  rw [abs_of_nonpos (sub_nonpos.2 hle)] at hbelow
  rw [Nat.cast_succ, abs_of_pos (sub_pos.2 hlt)] at habove
  -- the two distances are one unit together
  have hsum : 2 * |size u - x| ≤ 2 ^ t := by linarith
  have hunits : (2 ^ format.mantissaBitsWithoutImplicit : ℕ) * (2 : ℚ) ^ t ≤ x := by
    refine le_trans ?_ hle
    gcongr
  rw [le_div_iff₀ (by positivity)]
  calc |size u - x| * 2 ^ format.mantissaBits
    _ = 2 * |size u - x| * (2 ^ format.mantissaBitsWithoutImplicit : ℕ) := by
      have hpow : (2 : ℚ) ^ format.mantissaBits = 2 * (2 ^ format.mantissaBitsWithoutImplicit : ℕ) := by
        exact_mod_cast pow_mantissaBits format
      rw [hpow]
      ring
    _ ≤ 2 ^ t * (2 ^ format.mantissaBitsWithoutImplicit : ℕ) := by gcongr
    _ ≤ x := by rwa [mul_comm]

/-! ### Dropping the fraction -/

/-- A number is made an integer by dropping its fraction. -/
theorem Canonical.toInt_eq (h : Canonical format sign u) (low high : ℤ) :
    u.toInt low high = sign.apply ⌊size u⌋₊ := by
  match u, h with
  | .zero s, _ =>
    have hzero : size (.zero s) = 0 := rfl
    rw [hzero, Nat.floor_zero]
    cases sign <;> rfl
  | .finite _ m e hm, ⟨rfl, _⟩ =>
    obtain ⟨k, hk⟩ : ∃ k : ℕ, k = (0 - (decreaseExponent m e 0).2).toNat := ⟨_, rfl⟩
    have hmarks : Marks (ExtendedMantissa.ofMantissaAndAccuracy (decreaseExponent m e 0).1 .exact >>> k)
        ((decreaseExponent m e 0).1 / 2 ^ k) := (marks_exact _).shiftRight k
    have hsize : size (.finite sign m e hm) = (decreaseExponent m e 0).1 / 2 ^ k := by
      have hexponent : (decreaseExponent m e 0).2 = -k := by
        simp only [decreaseExponent] at hk ⊢
        omega
      rw [size, ← decreaseExponent_value m e 0, hexponent, zpow_neg, zpow_natCast, div_eq_mul_inv]
    have hfloor := (Nat.floor_eq_iff (by positivity)).2 ⟨hmarks.mantissa_le, hmarks.lt_succ⟩
    rw [hsize, hfloor, hk]
    rfl

theorem Canonical.toNat_toUInt64 (h : Canonical format .positive u) (hsize : size u < 2 ^ 64) :
    u.toUInt64.toNat = ⌊size u⌋₊ := by
  have hlt : ⌊size u⌋₊ < 2 ^ 64 := (Nat.floor_lt (size_nonneg u)).2 (by exact_mod_cast hsize)
  rw [UnpackedFloat.toUInt64, h.toInt_eq]
  exact UInt64.toNat_ofNatClamp_of_lt hlt

/-! ### Whole numbers in double precision -/

theorem size_ofNat (hn : n ≤ 2 ^ 53) : size (Float.ofModel (.ofNat n)).toModel.unpack = n :=
  (nearest_ofNat (hn.trans (by decide))).size_eq (inFormat_natCast hn)

/-- Half of the distance between a whole number and the number of double precision before it. -/
def halfStep (n : ℕ) : ℚ :=
  2 ^ Nat.clog 2 n / 2 ^ 54

theorem halfStep_le {k : ℕ} (hn : n ≤ 2 ^ k) : halfStep n ≤ 2 ^ k / 2 ^ 54 := by
  have hclog : Nat.clog 2 n ≤ k := Nat.clog_le_of_le_pow hn
  rw [halfStep]
  gcongr
  exact one_le_two

theorem halfStep_pos (n : ℕ) : 0 < halfStep n := by
  rw [halfStep]
  positivity

private theorem two_pow_clog_lt (hpos : 1 ≤ n) : 2 ^ Nat.clog 2 n < 2 * n := by
  rcases hpos.eq_or_lt with rfl | hone
  · rw [Nat.clog_one_right]
    norm_num
  · have hpred := Nat.pow_pred_clog_lt_self one_lt_two hone
    have hsucc := Nat.succ_pred_eq_of_pos (Nat.clog_pos one_lt_two hone)
    rw [← hsucc, pow_succ']
    omega

/-- The unit in which a whole number has as many bits as the mantissa; half of it is half of the step. -/
private theorem exists_unit (hpos : 1 ≤ n) (hn : n ≤ 2 ^ 52) :
    ∃ (m : ℕ) (t : ℤ), Even m ∧ 2 ^ 52 < m ∧ m ≤ 2 ^ 53 ∧ -53 ≤ t ∧ (m : ℚ) * 2 ^ t = n ∧
      ((m : ℚ) - 1 / 2) * 2 ^ t = n - halfStep n := by
  obtain ⟨k, hk⟩ := Nat.exists_eq_add_of_le (Nat.clog_le_of_le_pow hn)
  have hle : n ≤ 2 ^ Nat.clog 2 n := Nat.le_pow_clog one_lt_two n
  have hlt := two_pow_clog_lt hpos
  have hpow : 2 ^ Nat.clog 2 n * 2 ^ k = 2 ^ 52 := by rw [← pow_add, ← hk]
  have hunit : (2 : ℚ) ^ (-((k + 1 : ℕ) : ℤ)) = (2 ^ (k + 1))⁻¹ := by rw [zpow_neg, zpow_natCast]
  have hwhole : ((n * 2 ^ (k + 1) : ℕ) : ℚ) * 2 ^ (-((k + 1 : ℕ) : ℤ)) = n := by
    rw [hunit]
    push_cast
    field_simp
  have hstep : halfStep n = 1 / 2 * (2 ^ (k + 1))⁻¹ := by
    have hpow' : (2 : ℚ) ^ Nat.clog 2 n * 2 ^ k = 2 ^ 52 := by exact_mod_cast hpow
    rw [halfStep, ← div_eq_mul_inv, div_eq_div_iff (by positivity) (by positivity), pow_succ, ← mul_assoc, hpow']
    norm_num
  refine ⟨n * 2 ^ (k + 1), -((k + 1 : ℕ) : ℤ), ⟨n * 2 ^ k, by ring⟩, ?_, ?_, by omega, hwhole, ?_⟩
  · calc 2 ^ 52
      _ = 2 ^ Nat.clog 2 n * 2 ^ k := hpow.symm
      _ < 2 * n * 2 ^ k := by gcongr
      _ = n * 2 ^ (k + 1) := by ring
  · calc n * 2 ^ (k + 1)
      _ ≤ 2 ^ Nat.clog 2 n * 2 ^ (k + 1) := by gcongr
      _ = 2 * (2 ^ Nat.clog 2 n * 2 ^ k) := by ring
      _ = 2 ^ 53 := by rw [hpow]; norm_num
  · rw [sub_mul, hwhole, hunit, hstep]

/-- A product of numbers of double precision becomes at least a whole number if it is at most half a step less than
it. -/
theorem natCast_le_size_mul_iff (hu : Canonical .binary64 sign u) (hv : Canonical .binary64 sign' v) (hpos : 1 ≤ n)
    (hn : n ≤ 2 ^ 52) : n ≤ size (u.mul .binary64 v) ↔ (n : ℚ) - halfStep n ≤ size u * size v := by
  obtain ⟨m, t, heven, hlow, hhigh, ht, hwhole, hhalf⟩ := exists_unit hpos hn
  have hleast : Format.minExponent .binary64 ≤ t := by
    have hmin : Format.minExponent .binary64 = -1074 := rfl
    omega
  rw [← hhalf, ← le_size_mul_iff hu hv heven hlow hhigh hleast, hwhole]

end Ostinato.Numeric
