import Mathlib
import Ostinato.Numeric.Binary
import Ostinato.Proofs.Numeric.Packing

/-!
# Arithmetic of a format

Every operation on finite numbers gives a number of the format that is nearest to the exact result, as long as that is
not too large for the format: products (`nearest_mul`), quotients (`nearest_div`), sums (`exists_nearest_add`),
integers (`exists_nearest_normalize`) and numbers of another format (`nearest_reformat`).
-/

namespace Ostinato.Numeric

open Float.Model (UnpackedFloat Format totalExponent)
open Float.Model.UnpackedFloat

variable {format : Format} {sign sign' : Sign} {u v : UnpackedFloat}

theorem size_nonneg (u : UnpackedFloat) : 0 ≤ size u := by
  cases u with
  | finite => exact mul_nonneg (Nat.cast_nonneg _) (by positivity)
  | _ => exact le_rfl

/-- A number of the format is nearest to itself. -/
private theorem Canonical.nearest (h : Canonical format sign u) : Nearest format sign (size u) u :=
  ⟨h, fun y _ => by simp⟩

/-! ### Signs -/

theorem size_neg (u : UnpackedFloat) : size u.neg = size u := by
  cases u <;> rfl

theorem Canonical.neg (h : Canonical format sign u) : Canonical format (-sign) u.neg := by
  match u, h with
  | .zero _, rfl => exact rfl
  | .finite _ _ _ _, ⟨rfl, h⟩ => exact ⟨rfl, h⟩

theorem sub_eq_add_neg (u v : UnpackedFloat) : u.sub format v = u.add format v.neg := by
  rcases u with s | _ | s | ⟨s, m, e, hm⟩ <;> rcases v with s' | _ | s' | ⟨s', m', e', hm'⟩ <;> try rfl
  simp only [UnpackedFloat.sub, UnpackedFloat.add, UnpackedFloat.neg]
  have happly : ∀ n : ℤ, (-s').apply n = -s'.apply n := fun n => by
    cases s' with
    | positive => rfl
    | negative => exact (neg_neg n).symm
  rw [happly, Int.sub_eq_add_neg]

/-! ### Products -/

/-- The exact product of two numbers of the format, written with the sum of their exponents, has enough bits to be
rounded. -/
private theorem add_le_targetExponent {s s' : Sign} {m m' : ℕ} {e e' : ℤ} {hm : 0 < m} {hm' : 0 < m'}
    (h : Canonical format sign (.finite s m e hm)) (h' : Canonical format sign' (.finite s' m' e' hm')) :
    e + e' ≤ format.targetExponent (totalExponent (m * m') (e + e')) := by
  obtain ⟨-, -, hleast, hlow⟩ := h
  obtain ⟨-, -, hleast', hlow'⟩ := h'
  have hmin := minExponent_eq format
  have hbits := format.hm
  rw [Format.targetExponent, totalExponent, Format.mantissaBits]
  -- one of the mantissas fills its bits, or both exponents are the least one
  have hlog : format.mantissaBitsWithoutImplicit ≤ (m * m').log2 ∨
      e = format.minExponent ∧ e' = format.minExponent := by
    have hne : m * m' ≠ 0 := (Nat.mul_pos hm hm').ne'
    rcases hlow with hlow | hlow
    · exact .inl ((Nat.le_log2 hne).2 (hlow.trans (Nat.le_mul_of_pos_right m hm')))
    · rcases hlow' with hlow' | hlow'
      · exact .inl ((Nat.le_log2 hne).2 (hlow'.trans (Nat.le_mul_of_pos_left m' hm)))
      · exact .inr ⟨hlow, hlow'⟩
  omega

private theorem size_mul_size {m m' : ℕ} {e e' : ℤ} {hm : 0 < m} {hm' : 0 < m'} :
    size (.finite sign m e hm) * size (.finite sign' m' e' hm') = (m * m' : ℕ) * 2 ^ (e + e') := by
  simp only [size]
  rw [zpow_add₀ two_ne_zero]
  push_cast
  ring

theorem nearest_mul (hu : Canonical format sign u) (hv : Canonical format sign' v) :
    Nearest format (sign * sign') (size u * size v) (u.mul format v) := by
  match u, v, hu, hv with
  | .zero _, .zero _, rfl, rfl => simpa [size, UnpackedFloat.mul] using nearest_zero
  | .zero _, .finite _ _ _ _, rfl, ⟨rfl, _⟩ => simpa [size, UnpackedFloat.mul] using nearest_zero
  | .finite _ _ _ _, .zero _, ⟨rfl, _⟩, rfl => simpa [size, UnpackedFloat.mul] using nearest_zero
  | .finite _ m e hm, .finite _ m' e' hm', hleft, hright =>
    obtain ⟨rfl, rfl⟩ := And.intro hleft.1 hright.1
    rw [size_mul_size]
    exact nearest_roundWithAccuracy (marks_exact _) (add_le_targetExponent hleft hright)

/-- A product becomes at least an even number of units if it is at most half a unit less than it. -/
theorem le_size_mul_iff {n : ℕ} {t : ℤ} (hu : Canonical format sign u) (hv : Canonical format sign' v) (heven : Even n)
    (hlow : 2 ^ format.mantissaBitsWithoutImplicit < n) (htop : n ≤ 2 ^ format.mantissaBits)
    (ht : format.minExponent ≤ t) :
    n * 2 ^ t ≤ size (u.mul format v) ↔ ((n : ℚ) - 1 / 2) * 2 ^ t ≤ size u * size v := by
  -- a product with zero is less than half a unit less than the number
  have hzero : ¬ (n : ℚ) * 2 ^ t ≤ 0 ∧ ¬ ((n : ℚ) - 1 / 2) * 2 ^ t ≤ 0 := by
    have hone : (1 : ℚ) ≤ n := by exact_mod_cast Nat.one_le_of_lt hlow
    have hhalf : 0 < (n : ℚ) - 1 / 2 := by linarith
    constructor <;> rw [not_le] <;> positivity
  match u, v, hu, hv with
  | .zero _, .zero _, _, _ =>
    simp only [size, UnpackedFloat.mul, mul_zero]
    exact iff_of_false hzero.1 hzero.2
  | .zero _, .finite .., _, _ =>
    simp only [size, UnpackedFloat.mul, zero_mul]
    exact iff_of_false hzero.1 hzero.2
  | .finite .., .zero _, _, _ =>
    simp only [size, UnpackedFloat.mul, mul_zero]
    exact iff_of_false hzero.1 hzero.2
  | .finite _ m e hm, .finite _ m' e' hm', hleft, hright =>
    rw [size_mul_size]
    exact le_size_roundWithAccuracy_iff (marks_exact _) (add_le_targetExponent hleft hright) heven hlow htop ht

/-! ### Quotients -/

theorem nearest_div (hu : Canonical format sign u) (hv : Canonical format sign' v) (hne : size v ≠ 0) :
    Nearest format (sign / sign') (size u / size v) (u.div format v) := by
  match u, v, hu, hv with
  | _, .zero _, _, _ => exact absurd rfl hne
  | .zero _, .finite _ _ _ _, rfl, ⟨rfl, _⟩ => simpa [size, UnpackedFloat.div] using nearest_zero
  | .finite _ m e hm, .finite _ m' e' hm', ⟨rfl, hlt, hleast, hlow⟩, ⟨rfl, hlt', hleast', hlow'⟩ =>
    obtain ⟨target, htarget⟩ : ∃ target, target =
      min (e - e') (format.targetExponent (totalExponent m e - totalExponent m' e')) := ⟨_, rfl⟩
    obtain ⟨k, hk⟩ : ∃ k : ℕ, k = (e - e' - target).toNat := ⟨_, rfl⟩
    have hdiv : (UnpackedFloat.finite sign m e hm).div format (.finite sign' m' e' hm') =
        roundWithAccuracy format (sign / sign') (m * 2 ^ k / m') target (accuracyOfFraction (m * 2 ^ k % m') m') := by
      simp only [UnpackedFloat.div, divCore, ← htarget, ← hk, Nat.shiftLeft_eq]
    have hexponent : target = e - e' - k := by omega
    have hvalue : size (.finite sign m e hm) / size (.finite sign' m' e' hm') =
        (m * 2 ^ k : ℕ) / m' * 2 ^ target := by
      have hmpos : (m' : ℚ) ≠ 0 := by exact_mod_cast hm'.ne'
      simp only [size]
      rw [hexponent, zpow_sub₀ two_ne_zero, zpow_sub₀ two_ne_zero, zpow_natCast]
      push_cast
      field_simp
    rw [hdiv, hvalue]
    refine nearest_roundWithAccuracy (marks_accuracyOfFraction _ hm') ?_
    rw [Format.targetExponent, totalExponent, totalExponent, Format.mantissaBits] at htarget
    rw [Format.targetExponent, totalExponent, Format.mantissaBits]
    rcases le_or_gt target format.minExponent with hle | hgt
    · omega
    · -- the quotient has as many bits as the format
      have hcount : format.mantissaBitsWithoutImplicit + (m'.log2 + 1) ≤ m.log2 + k := by omega
      have hquotient : 2 ^ format.mantissaBitsWithoutImplicit ≤ m * 2 ^ k / m' := by
        rw [Nat.le_div_iff_mul_le hm']
        calc 2 ^ format.mantissaBitsWithoutImplicit * m'
          _ ≤ 2 ^ format.mantissaBitsWithoutImplicit * 2 ^ (m'.log2 + 1) :=
            Nat.mul_le_mul_left _ Nat.lt_log2_self.le
          _ = 2 ^ (format.mantissaBitsWithoutImplicit + (m'.log2 + 1)) := (pow_add ..).symm
          _ ≤ 2 ^ (m.log2 + k) := Nat.pow_le_pow_right two_pos hcount
          _ = 2 ^ m.log2 * 2 ^ k := pow_add ..
          _ ≤ m * 2 ^ k := Nat.mul_le_mul_right _ (Nat.log2_self_le hm.ne')
      have hlog := (Nat.le_log2 (by have := Nat.two_pow_pos format.mantissaBitsWithoutImplicit; omega)).2 hquotient
      omega

/-! ### Sums -/

theorem exists_nearest_normalize (format : Format) (n : ℤ) (e : ℤ) (zeroSign : Sign) :
    ∃ sign, Nearest format sign (n.natAbs * 2 ^ e) (UnpackedFloat.normalize format n e zeroSign) := by
  unfold UnpackedFloat.normalize
  rcases lt_trichotomy n 0 with hlt | rfl | hgt
  · have hsize : (-n).toNat = n.natAbs := by omega
    rw [compare_lt_iff_lt.2 hlt, hsize]
    exact ⟨_, nearest_round format _ _ _⟩
  · rw [compare_eq_iff_eq.2 rfl]
    exact ⟨zeroSign, by simpa using nearest_zero⟩
  · have hsize : n.toNat = n.natAbs := by omega
    rw [compare_gt_iff_gt.2 hgt, hsize]
    exact ⟨_, nearest_round format _ _ _⟩

theorem nearest_normalize_natCast (format : Format) (n : ℕ) (e : ℤ) :
    Nearest format .positive (n * 2 ^ e) (UnpackedFloat.normalize format n e .positive) := by
  unfold UnpackedFloat.normalize
  rcases Nat.eq_zero_or_pos n with rfl | hpos
  · simpa using nearest_zero
  · rw [compare_gt_iff_gt.2 (by exact_mod_cast hpos), Int.toNat_natCast]
    exact nearest_round format _ _ _

private theorem decreaseExponent_mantissa {m : ℕ} {e target : ℤ} (h : target ≤ e) :
    ((decreaseExponent m e target).1 : ℚ) * 2 ^ target = m * 2 ^ e := by
  have hexponent : (decreaseExponent m e target).2 = target := by
    simp only [decreaseExponent]
    omega
  rw [← decreaseExponent_value m e target, hexponent]

/-- The sum is rounded from a number that is not larger than both sizes together. -/
theorem exists_nearest_add (hu : Canonical format sign u) (hv : Canonical format sign' v) :
    ∃ s x, x ≤ size u + size v ∧ Nearest format s x (u.add format v) := by
  match u, v, hu, hv with
  | .zero _, .zero _, rfl, rfl =>
    rw [UnpackedFloat.add]
    split
    · exact ⟨sign, 0, by simp [size], nearest_zero⟩
    · exact ⟨.positive, 0, by simp [size], nearest_zero⟩
  | .zero _, .finite _ _ _ _, rfl, hv => exact ⟨sign', _, by simp [size], hv.nearest⟩
  | .finite _ _ _ _, .zero _, hu, rfl => exact ⟨sign, _, by simp [size], hu.nearest⟩
  | .finite _ m e _, .finite _ m' e' _, ⟨rfl, _⟩, ⟨rfl, _⟩ =>
    obtain ⟨s, hnearest⟩ := exists_nearest_normalize format
      (sign.apply (decreaseExponent m e (min e e')).1 + sign'.apply (decreaseExponent m' e' (min e e')).1)
      (min e e') .positive
    refine ⟨s, _, ?_, hnearest⟩
    have happly : ∀ (s : Sign) (n : ℕ), (s.apply n).natAbs = n := fun s n => by cases s <;> simp [Sign.apply]
    have hsum := Int.natAbs_add_le (sign.apply (decreaseExponent m e (min e e')).1)
      (sign'.apply (decreaseExponent m' e' (min e e')).1)
    rw [happly, happly] at hsum
    calc ((sign.apply _ + sign'.apply _ : ℤ).natAbs : ℚ) * 2 ^ min e e'
      _ ≤ ((decreaseExponent m e (min e e')).1 + (decreaseExponent m' e' (min e e')).1 : ℕ) * 2 ^ min e e' := by
        gcongr
      _ = m * 2 ^ e + m' * 2 ^ e' := by
        rw [Nat.cast_add, add_mul, decreaseExponent_mantissa (min_le_left e e'),
          decreaseExponent_mantissa (min_le_right e e')]

/-! ### Other formats -/

theorem nearest_reformat {format' : Format} (hu : Canonical format' sign u) :
    Nearest format sign (size u) (reformat format u) := by
  match u, hu with
  | .zero _, rfl => exact nearest_zero
  | .finite _ m e _, ⟨rfl, _⟩ => exact nearest_round format sign m e

end Ostinato.Numeric
