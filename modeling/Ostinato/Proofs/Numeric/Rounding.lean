import Mathlib
import Ostinato.Numeric.Enclosure

/-!
# Rounding to nearest

What rounding to a binary format makes of a number, said about the number and not about its digits: the result is a
number of the format, and no other number of the format is nearer (`nearest_roundWithAccuracy`).

* `size`: the size of a number of any format.
* `Canonical`, `InFormat`: numbers of a format, in the form in which it holds them, and their sizes.
* `Nearest`: the numbers of a format that are nearest to a given size.
-/

namespace Ostinato.Numeric

open Float.Model (UnpackedFloat Format totalExponent)
open Float.Model.UnpackedFloat

variable {format : Format}

/-! ### Nearer numbers -/

section

variable {x y z : ℚ}

private theorem le_of_abs_sub_le (h : |y - x| ≤ |z - x|) (hz : x ≤ z) : y ≤ z := by
  rw [abs_of_nonneg (sub_nonneg.2 hz)] at h
  linarith [le_abs_self (y - x)]

private theorem ge_of_abs_sub_le (h : |y - x| ≤ |z - x|) (hz : z ≤ x) : z ≤ y := by
  rw [abs_of_nonpos (sub_nonpos.2 hz)] at h
  linarith [neg_abs_le (y - x)]

end

/-! ### Mantissas with more behind them -/

/-- The extended mantissa stands for the given number: its last two bits tell on which side of the middle between the
mantissa and the next one it lies. -/
def Marks (em : ExtendedMantissa) (x : ℚ) : Prop :=
  match em.roundBit, em.stickyBit with
  | false, false => x = em.mantissa
  | false, true => (em.mantissa : ℚ) < x ∧ x < em.mantissa + 1 / 2
  | true, false => x = em.mantissa + 1 / 2
  | true, true => (em.mantissa : ℚ) + 1 / 2 < x ∧ x < em.mantissa + 1

namespace Marks

variable {em : ExtendedMantissa} {x : ℚ}

theorem mantissa_le (h : Marks em x) : em.mantissa ≤ x := by
  rcases em with ⟨m, _ | _, _ | _⟩ <;> simp only [Marks] at h <;> linarith

theorem lt_succ (h : Marks em x) : x < em.mantissa + 1 := by
  rcases em with ⟨m, _ | _, _ | _⟩ <;> simp only [Marks] at h <;> linarith

private theorem shiftRightOne (h : Marks em x) : Marks em.shiftRightOne (x / 2) := by
  rcases em with ⟨m, round, sticky⟩
  have hsplit : ((m % 2 : ℕ) : ℚ) + 2 * ((m / 2 : ℕ) : ℚ) = m := by exact_mod_cast Nat.mod_add_div m 2
  rcases Nat.mod_two_eq_zero_or_one m with hm | hm <;> rw [hm] at hsplit <;> push_cast at hsplit <;>
    cases round <;> cases sticky <;> simp [Marks, ExtendedMantissa.shiftRightOne, hm] at h ⊢ <;>
    first
    | linarith
    | constructor <;> linarith

theorem shiftRight (h : Marks em x) (k : ℕ) : Marks (em >>> k) (x / 2 ^ k) := by
  change Marks (k.repeat ExtendedMantissa.shiftRightOne em) _
  induction k with
  | zero => simpa [Nat.repeat] using h
  | succ k ih =>
    rw [pow_succ, div_mul_eq_div_div]
    exact ih.shiftRightOne

private theorem abs_roundedMantissa_sub_le_half (h : Marks em x) : |(em.roundedMantissa : ℚ) - x| ≤ 1 / 2 := by
  rcases em with ⟨m, round, sticky⟩
  rw [abs_le]
  cases round <;> cases sticky <;> simp only [Marks] at h <;>
    simp only [ExtendedMantissa.roundedMantissa, ExtendedMantissa.accuracy, Accuracy.roundToNearestEven]
  · constructor <;> linarith
  · constructor <;> linarith
  · have hbit : ((m % 2 : ℕ) : ℚ) ≤ 1 := by exact_mod_cast Nat.le_of_lt_succ (Nat.mod_lt m two_pos)
    have hnonneg : (0 : ℚ) ≤ ((m % 2 : ℕ) : ℚ) := Nat.cast_nonneg _
    push_cast at hbit hnonneg ⊢
    constructor <;> linarith
  · push_cast
    constructor <;> linarith

/-- No natural number is nearer to the number than the rounded mantissa. -/
private theorem abs_roundedMantissa_sub_le (h : Marks em x) (n : ℕ) : |(em.roundedMantissa : ℚ) - x| ≤ |n - x| := by
  by_cases hn : n = em.roundedMantissa
  · rw [hn]
  · have hfar : (1 : ℚ) ≤ |(n : ℚ) - em.roundedMantissa| := by
      have hint : (1 : ℤ) ≤ |(n : ℤ) - em.roundedMantissa| := Int.one_le_abs (by omega)
      exact_mod_cast hint
    have htriangle := abs_sub_le (n : ℚ) x em.roundedMantissa
    rw [abs_sub_comm x] at htriangle
    linarith [h.abs_roundedMantissa_sub_le_half]

private theorem roundedMantissa_le (h : Marks em x) {n : ℕ} (hn : x ≤ n) : em.roundedMantissa ≤ n := by
  exact_mod_cast le_of_abs_sub_le (h.abs_roundedMantissa_sub_le n) hn

private theorem le_roundedMantissa (h : Marks em x) {n : ℕ} (hn : n ≤ x) : n ≤ em.roundedMantissa := by
  exact_mod_cast ge_of_abs_sub_le (h.abs_roundedMantissa_sub_le n) hn

/-- From half a unit below an even number on, the mantissa is rounded up to that number: the middle goes to the even
neighbor. -/
private theorem le_roundedMantissa_of_even (h : Marks em x) {n : ℕ} (heven : Even n) (hn : (n : ℚ) - 1 / 2 ≤ x) :
    n ≤ em.roundedMantissa := by
  rcases le_or_gt (n : ℚ) x with hle | hlt
  · exact h.le_roundedMantissa hle
  · have hbelow : em.mantissa < n := by exact_mod_cast h.mantissa_le.trans_lt hlt
    have habove : n < em.mantissa + 2 := by
      have hnext : (n : ℚ) < em.mantissa + 2 := by linarith [h.lt_succ]
      exact_mod_cast hnext
    obtain ⟨m, round, sticky⟩ := em
    obtain rfl : n = m + 1 := by
      dsimp only at hbelow habove
      omega
    have hodd : m % 2 = 1 := by
      obtain ⟨k, hk⟩ := heven
      omega
    push_cast at hn
    cases round <;> cases sticky <;> simp only [Marks] at h <;>
      simp only [ExtendedMantissa.roundedMantissa, ExtendedMantissa.accuracy, Accuracy.roundToNearestEven]
    · linarith
    · linarith
    · omega
    · exact le_rfl

end Marks

theorem marks_exact (m : ℕ) : Marks (.ofMantissaAndAccuracy m .exact) m :=
  rfl

/-- The accuracy of a quotient tells what its whole part leaves. -/
theorem marks_accuracyOfFraction (a : ℕ) {b : ℕ} (hb : 0 < b) :
    Marks (.ofMantissaAndAccuracy (a / b) (accuracyOfFraction (a % b) b)) (a / b) := by
  have hbpos : (0 : ℚ) < b := by exact_mod_cast hb
  have hsplit : (a : ℚ) / b = (a / b : ℕ) + ((a % b : ℕ) : ℚ) / b := by
    rw [add_div' _ _ _ hbpos.ne', div_left_inj' hbpos.ne']
    exact_mod_cast (Nat.div_add_mod' a b).symm
  have hmod : ((a % b : ℕ) : ℚ) / b < 1 := by
    rw [div_lt_one hbpos]
    exact_mod_cast Nat.mod_lt a hb
  rw [accuracyOfFraction]
  split
  · rename_i hzero
    rw [hsplit, hzero, Nat.cast_zero, zero_div, add_zero]
    exact marks_exact _
  · rename_i hzero
    have hpos : 0 < ((a % b : ℕ) : ℚ) / b := div_pos (by exact_mod_cast Nat.pos_of_ne_zero hzero) hbpos
    rw [hsplit]
    rcases hcompare : compare (2 * (a % b)) b with _ | _ | _
    · have hhalf : ((a % b : ℕ) : ℚ) / b < 1 / 2 := by
        rw [div_lt_div_iff₀ hbpos two_pos, one_mul, mul_comm]
        exact_mod_cast compare_lt_iff_lt.1 hcompare
      exact ⟨lt_add_of_pos_right _ hpos, add_lt_add_right hhalf _⟩
    · have hhalf : ((a % b : ℕ) : ℚ) / b = 1 / 2 := by
        rw [div_eq_div_iff hbpos.ne' two_ne_zero, one_mul, mul_comm]
        exact_mod_cast compare_eq_iff_eq.1 hcompare
      rw [hhalf]
      rfl
    · have hhalf : 1 / 2 < ((a % b : ℕ) : ℚ) / b := by
        rw [div_lt_div_iff₀ two_pos hbpos, one_mul, mul_comm]
        exact_mod_cast compare_gt_iff_gt.1 hcompare
      exact ⟨add_lt_add_right hhalf _, add_lt_add_right hmod _⟩

/-! ### Numbers of a format -/

/-- The size of a number. -/
def size : UnpackedFloat → ℚ
  | .finite _ mantissa exponent _ => mantissa * 2 ^ exponent
  | _ => 0

/-- A number of the given sign, in the form in which the format holds it if its exponent is not too large: the mantissa
fills its bits, unless the exponent is the least one. -/
def Canonical (format : Format) (sign : Sign) : UnpackedFloat → Prop
  | .zero s => s = sign
  | .finite s mantissa exponent _ =>
    s = sign ∧ mantissa < 2 ^ format.mantissaBits ∧ format.minExponent ≤ exponent ∧
      (2 ^ format.mantissaBitsWithoutImplicit ≤ mantissa ∨ exponent = format.minExponent)
  | _ => False

/-- The size of a number that the format could hold if there were no largest exponent. -/
def InFormat (format : Format) (x : ℚ) : Prop :=
  ∃ (mantissa : ℕ) (exponent : ℤ),
    mantissa ≤ 2 ^ format.mantissaBits ∧ format.minExponent ≤ exponent ∧ x = mantissa * 2 ^ exponent

/-- A number of the given sign that is nearest to a size among those of the format. -/
structure Nearest (format : Format) (sign : Sign) (x : ℚ) (u : UnpackedFloat) : Prop where
  canonical : Canonical format sign u
  abs_size_sub_le : ∀ y, InFormat format y → |size u - x| ≤ |y - x|

theorem Nearest.size_le {sign : Sign} {x y : ℚ} {u : UnpackedFloat} (h : Nearest format sign x u)
    (hy : InFormat format y) (hxy : x ≤ y) : size u ≤ y :=
  le_of_abs_sub_le (h.abs_size_sub_le y hy) hxy

theorem Nearest.le_size {sign : Sign} {x y : ℚ} {u : UnpackedFloat} (h : Nearest format sign x u)
    (hy : InFormat format y) (hyx : y ≤ x) : y ≤ size u :=
  ge_of_abs_sub_le (h.abs_size_sub_le y hy) hyx

/-- A number of the format does not change. -/
theorem Nearest.size_eq {sign : Sign} {x : ℚ} {u : UnpackedFloat} (h : Nearest format sign x u)
    (hx : InFormat format x) : size u = x :=
  le_antisymm (h.size_le hx le_rfl) (h.le_size hx le_rfl)

/-- What becomes at least a number of units is at most half a unit less than it. -/
private theorem Nearest.sub_half_le {sign : Sign} {x : ℚ} {u : UnpackedFloat} {n : ℕ} {t : ℤ}
    (h : Nearest format sign x u) (hpos : 1 ≤ n) (htop : n ≤ 2 ^ format.mantissaBits) (ht : format.minExponent ≤ t)
    (hn : n * 2 ^ t ≤ size u) :
    ((n : ℚ) - 1 / 2) * 2 ^ t ≤ x := by
  have hunit : (0 : ℚ) < 2 ^ t := by positivity
  have hpred : ((n - 1 : ℕ) : ℚ) * 2 ^ t = n * 2 ^ t - 2 ^ t := by
    push_cast [hpos]
    ring
  have hnear := h.abs_size_sub_le ((n - 1 : ℕ) * 2 ^ t) ⟨n - 1, t, (Nat.sub_le n 1).trans htop, ht, rfl⟩
  rw [hpred] at hnear
  by_contra hlt
  rw [not_le, sub_mul] at hlt
  rcases abs_cases (size u - x) with ⟨habs, -⟩ | ⟨habs, hneg⟩ <;>
    rcases abs_cases ((n : ℚ) * 2 ^ t - 2 ^ t - x) with ⟨habs', -⟩ | ⟨habs', -⟩ <;>
    linarith

/-! ### Rounding -/

section

variable {sign : Sign} {m : ℕ} {e : ℤ} {accuracy : Accuracy} {x : ℚ}

theorem pow_mantissaBits (format : Format) :
    2 ^ format.mantissaBits = 2 * 2 ^ format.mantissaBitsWithoutImplicit := by
  rw [Format.mantissaBits, Nat.pow_add, pow_one]

theorem pow_mantissaBits_mul_zpow (format : Format) (t : ℤ) :
    ((2 ^ format.mantissaBits : ℕ) : ℚ) * 2 ^ t = (2 ^ format.mantissaBitsWithoutImplicit : ℕ) * 2 ^ (t + 1) := by
  rw [pow_mantissaBits, zpow_add_one₀ two_ne_zero]
  push_cast
  ring

private theorem shiftToTargetExponent_of_le (h : format.targetExponent (totalExponent m e) ≤ e) :
    shiftToTargetExponent format m e .exact = (.ofMantissaAndAccuracy m .exact, e) := by
  have hzero : (format.targetExponent (totalExponent m e) - e).toNat = 0 := by omega
  simp only [shiftToTargetExponent, shiftToExponent, hzero, Nat.cast_zero, add_zero]
  rfl

/-- A mantissa of the format, or the least number that has one bit more, is put into the form of the format without
loss. -/
private theorem exists_shiftToTargetExponent (hm : m ≤ 2 ^ format.mantissaBits) (he : format.minExponent ≤ e)
    (hlow : 2 ^ format.mantissaBitsWithoutImplicit ≤ m ∨ e = format.minExponent) :
    ∃ m' e', shiftToTargetExponent format m e .exact = (.ofMantissaAndAccuracy m' .exact, e') ∧
      m' < 2 ^ format.mantissaBits ∧ format.minExponent ≤ e' ∧
      (2 ^ format.mantissaBitsWithoutImplicit ≤ m' ∨ e' = format.minExponent) ∧
      (m' : ℚ) * 2 ^ e' = m * 2 ^ e := by
  rcases hm.lt_or_eq with hlt | rfl
  · have hlog : m.log2 + 1 ≤ format.mantissaBits := by
      rcases Nat.eq_zero_or_pos m with rfl | hpos
      · rw [Nat.log2_zero, Format.mantissaBits]
        omega
      · exact (Nat.log2_lt hpos.ne').2 hlt
    have htarget : format.targetExponent (totalExponent m e) ≤ e := by
      rw [Format.targetExponent, totalExponent]
      omega
    exact ⟨m, e, shiftToTargetExponent_of_le htarget, hlt, he, hlow, rfl⟩
  · have htarget : format.targetExponent (totalExponent (2 ^ format.mantissaBits) e) = e + 1 := by
      rw [Format.targetExponent, totalExponent, Nat.log2_two_pow]
      omega
    have hone : (e + 1 - e).toNat = 1 := by omega
    have hhalf : 2 ^ format.mantissaBits / 2 = 2 ^ format.mantissaBitsWithoutImplicit := by
      rw [pow_mantissaBits, Nat.mul_div_cancel_left _ two_pos]
    have heven : 2 ^ format.mantissaBits % 2 = 0 := by
      rw [pow_mantissaBits, Nat.mul_mod_right]
    refine ⟨2 ^ format.mantissaBitsWithoutImplicit, e + 1, ?_, ?_, by omega, .inl le_rfl, ?_⟩
    · simp only [shiftToTargetExponent, shiftToExponent, htarget, hone, Nat.cast_one]
      change (ExtendedMantissa.shiftRightOne _, _) = _
      simp [Nat.repeat, ExtendedMantissa.shiftRightOne, ExtendedMantissa.ofMantissaAndAccuracy, hhalf, heven]
    · rw [pow_mantissaBits]
      exact lt_mul_of_one_lt_left (by positivity) one_lt_two
    · exact (pow_mantissaBits_mul_zpow format e).symm

/-- The number that is rounded lies between the ends of the range of mantissas of the format, in units of the last
place, or the last place is the least one. -/
private theorem exists_units (hx : Marks (.ofMantissaAndAccuracy m accuracy) x)
    (he : e ≤ format.targetExponent (totalExponent m e)) :
    ∃ (em : ExtendedMantissa) (target : ℤ) (units : ℚ),
      shiftToTargetExponent format m e accuracy = (em, target) ∧ Marks em units ∧ x * 2 ^ e = units * 2 ^ target ∧
      format.minExponent ≤ target ∧ units ≤ (2 ^ format.mantissaBits : ℕ) ∧
      ((2 ^ format.mantissaBitsWithoutImplicit : ℕ) ≤ units ∨ target = format.minExponent) := by
  obtain ⟨k, hk⟩ := Int.le.dest he
  have hcount : (format.targetExponent (totalExponent m e) - e).toNat = k := by omega
  have hmantissa : (ExtendedMantissa.ofMantissaAndAccuracy m accuracy).mantissa = m := by
    rcases accuracy with _ | _ | _ | _ <;> rfl
  have hle : (m : ℚ) ≤ x := by rw [← hmantissa]; exact hx.mantissa_le
  have hlt : x < m + 1 := by rw [← hmantissa]; exact hx.lt_succ
  have hpow : (0 : ℚ) < 2 ^ k := by positivity
  have hbits := format.hm
  refine
    ⟨ExtendedMantissa.ofMantissaAndAccuracy m accuracy >>> k, e + k, x / 2 ^ k, ?_, hx.shiftRight k, ?_, ?_, ?_, ?_⟩
  · simp only [shiftToTargetExponent, shiftToExponent, hcount]
  · rw [zpow_add₀ two_ne_zero, zpow_natCast]
    field_simp
  all_goals rw [Format.targetExponent, totalExponent, Format.mantissaBits] at hk
  · omega
  · have htop : m + 1 ≤ 2 ^ format.mantissaBits * 2 ^ k := by
      rw [← pow_add, Format.mantissaBits]
      exact (Nat.lt_log2_self (n := m)).trans_le (Nat.pow_le_pow_right two_pos (by omega))
    rw [div_le_iff₀ hpow]
    exact hlt.le.trans (by exact_mod_cast htop)
  · by_cases hleast : e + k = format.minExponent
    · exact .inr hleast
    · left
      have hlog : m.log2 = format.mantissaBitsWithoutImplicit + k := by omega
      have hne : m ≠ 0 := by
        rintro rfl
        rw [Nat.log2_zero] at hlog
        omega
      have hbottom : 2 ^ format.mantissaBitsWithoutImplicit * 2 ^ k ≤ m := by
        rw [← pow_add, ← hlog]
        exact Nat.log2_self_le hne
      rw [le_div_iff₀ hpow]
      exact le_trans (by exact_mod_cast hbottom) hle

/-- The sizes of the format are whole numbers of units of the last place, but for those that are too small for that. -/
theorem InFormat.eq_units_or_le {y : ℚ} (hy : InFormat format y) (target : ℤ) :
    (∃ n : ℕ, y = n * 2 ^ target) ∨
      format.minExponent < target ∧ y ≤ (2 ^ format.mantissaBitsWithoutImplicit : ℕ) * 2 ^ target := by
  obtain ⟨m, e, hm, he, rfl⟩ := hy
  rcases le_or_gt target e with hle | hlt
  · obtain ⟨k, rfl⟩ := Int.le.dest hle
    refine .inl ⟨m * 2 ^ k, ?_⟩
    rw [zpow_add₀ two_ne_zero, zpow_natCast]
    push_cast
    ring
  · refine .inr ⟨by omega, ?_⟩
    have hexponent : (2 : ℚ) ^ e ≤ 2 ^ (target - 1) := zpow_le_zpow_right₀ one_le_two (by omega)
    calc (m : ℚ) * 2 ^ e
      _ ≤ (2 ^ format.mantissaBits : ℕ) * 2 ^ (target - 1) := by gcongr
      _ = (2 ^ format.mantissaBitsWithoutImplicit : ℕ) * 2 ^ target := by
        rw [pow_mantissaBits_mul_zpow, sub_add_cancel]

/-- What is rounded is a number of units of the last place, and the result is as many units as that number is rounded
to. -/
private theorem exists_size_roundWithAccuracy (sign : Sign) (hx : Marks (.ofMantissaAndAccuracy m accuracy) x)
    (he : e ≤ format.targetExponent (totalExponent m e)) :
    ∃ (em : ExtendedMantissa) (target : ℤ) (units : ℚ),
      Marks em units ∧ x * 2 ^ e = units * 2 ^ target ∧ format.minExponent ≤ target ∧
      units ≤ (2 ^ format.mantissaBits : ℕ) ∧
      ((2 ^ format.mantissaBitsWithoutImplicit : ℕ) ≤ units ∨ target = format.minExponent) ∧
      Canonical format sign (roundWithAccuracy format sign m e accuracy) ∧
      size (roundWithAccuracy format sign m e accuracy) = em.roundedMantissa * 2 ^ target := by
  obtain ⟨em, target, units, hshift, hunits, hsame, hleast, htop, hbottom⟩ := exists_units hx he
  obtain ⟨m', e', hcarry, hm', he', hlow, hvalue⟩ :=
    exists_shiftToTargetExponent (hunits.roundedMantissa_le htop) hleast
      (hbottom.imp_left hunits.le_roundedMantissa)
  have hround : roundWithAccuracy format sign m e accuracy =
      if h : m' = 0 then .zero sign else .finite sign m' e' (Nat.pos_of_ne_zero h) := by
    have hback : (ExtendedMantissa.ofMantissaAndAccuracy m' .exact).mantissa = m' := rfl
    simp only [roundWithAccuracy, hshift, hcarry, hback]
  refine ⟨em, target, units, hunits, hsame, hleast, htop, hbottom, ?_, ?_⟩
  · rw [hround]
    split
    · exact rfl
    · exact ⟨rfl, hm', he', hlow⟩
  · rw [hround, ← hvalue]
    split
    · rename_i hzero
      simp [size, hzero]
    · rfl

/-- Rounding gives a nearest number of the format. -/
theorem nearest_roundWithAccuracy (hx : Marks (.ofMantissaAndAccuracy m accuracy) x)
    (he : e ≤ format.targetExponent (totalExponent m e)) :
    Nearest format sign (x * 2 ^ e) (roundWithAccuracy format sign m e accuracy) := by
  obtain ⟨em, target, units, hunits, hsame, -, -, hbottom, hcanonical, hsize⟩ :=
    exists_size_roundWithAccuracy sign hx he
  refine ⟨hcanonical, fun y hy => ?_⟩
  have hpos : (0 : ℚ) < 2 ^ target := by positivity
  have hscale : ∀ z : ℚ, |z * 2 ^ target - units * 2 ^ target| = |z - units| * 2 ^ target := fun z => by
    rw [← sub_mul, abs_mul, abs_of_pos hpos]
  rw [hsize, hsame, hscale]
  rcases hy.eq_units_or_le target with ⟨n, rfl⟩ | ⟨hsmall, hy⟩
  · rw [hscale]
    exact mul_le_mul_of_nonneg_right (hunits.abs_roundedMantissa_sub_le n) hpos.le
  · -- the least number of the range of mantissas is nearer than a number below it
    have hbottom := hbottom.resolve_right hsmall.ne'
    calc |(em.roundedMantissa : ℚ) - units| * 2 ^ target
      _ ≤ |((2 ^ format.mantissaBitsWithoutImplicit : ℕ) : ℚ) - units| * 2 ^ target :=
        mul_le_mul_of_nonneg_right (hunits.abs_roundedMantissa_sub_le _) hpos.le
      _ = units * 2 ^ target - (2 ^ format.mantissaBitsWithoutImplicit : ℕ) * 2 ^ target := by
        rw [abs_of_nonpos (sub_nonpos.2 hbottom)]
        ring
      _ ≤ units * 2 ^ target - y := by linarith
      _ ≤ |y - units * 2 ^ target| := by
        rw [abs_sub_comm]
        exact le_abs_self _

/-- Rounding makes at least an even number of units of what is at most half a unit less than it. -/
theorem le_size_roundWithAccuracy_iff {n : ℕ} {t : ℤ} (hx : Marks (.ofMantissaAndAccuracy m accuracy) x)
    (he : e ≤ format.targetExponent (totalExponent m e)) (heven : Even n)
    (hlow : 2 ^ format.mantissaBitsWithoutImplicit < n) (htop : n ≤ 2 ^ format.mantissaBits)
    (ht : format.minExponent ≤ t) :
    n * 2 ^ t ≤ size (roundWithAccuracy format sign m e accuracy) ↔ ((n : ℚ) - 1 / 2) * 2 ^ t ≤ x * 2 ^ e := by
  have hnearest : Nearest format sign (x * 2 ^ e) (roundWithAccuracy format sign m e accuracy) :=
    nearest_roundWithAccuracy hx he
  refine ⟨hnearest.sub_half_le (Nat.one_le_of_lt hlow) htop ht, fun hhalf => ?_⟩
  rcases le_or_gt ((n : ℚ) * 2 ^ t) (x * 2 ^ e) with hle | hlt
  · exact hnearest.le_size ⟨n, t, htop, ht, rfl⟩ hle
  · obtain ⟨em, target, units, hunits, hsame, hleast, hhigh, hbottom, -, hsize⟩ :=
      exists_size_roundWithAccuracy sign hx he
    rw [hsame] at hhalf hlt
    have hlow' : ((2 ^ format.mantissaBitsWithoutImplicit : ℕ) : ℚ) + 1 ≤ n := by exact_mod_cast hlow
    -- with another unit, the number would have too many digits or too few
    obtain rfl : target = t := by
      rcases lt_trichotomy target t with hless | heq | hmore
      · exfalso
        have hpow : (2 : ℚ) ^ (target + 1) ≤ 2 ^ t := zpow_le_zpow_right₀ one_le_two (by omega)
        have hsmall : units * 2 ^ target < ((n : ℚ) - 1 / 2) * 2 ^ t := by
          calc units * 2 ^ target
            _ ≤ (2 ^ format.mantissaBits : ℕ) * 2 ^ target := by gcongr
            _ = (2 ^ format.mantissaBitsWithoutImplicit : ℕ) * 2 ^ (target + 1) := pow_mantissaBits_mul_zpow ..
            _ ≤ (2 ^ format.mantissaBitsWithoutImplicit : ℕ) * 2 ^ t := by gcongr
            _ < ((n : ℚ) - 1 / 2) * 2 ^ t := by
              gcongr
              linarith
        exact absurd hhalf (not_le.2 hsmall)
      · exact heq
      · exfalso
        have hpow : (2 : ℚ) ^ (t + 1) ≤ 2 ^ target := zpow_le_zpow_right₀ one_le_two (by omega)
        have hbottom := hbottom.resolve_right (by omega)
        have hnonneg : 0 ≤ units := (Nat.cast_nonneg _).trans hbottom
        have hlarge : (n : ℚ) * 2 ^ t ≤ units * 2 ^ target := by
          calc (n : ℚ) * 2 ^ t
            _ ≤ (2 ^ format.mantissaBits : ℕ) * 2 ^ t := by gcongr
            _ = (2 ^ format.mantissaBitsWithoutImplicit : ℕ) * 2 ^ (t + 1) := pow_mantissaBits_mul_zpow ..
            _ ≤ units * 2 ^ target := by gcongr
        exact absurd hlt (not_lt.2 hlarge)
    have hunit : (0 : ℚ) < 2 ^ target := by positivity
    rw [hsize]
    have hround : n ≤ em.roundedMantissa :=
      hunits.le_roundedMantissa_of_even heven (le_of_mul_le_mul_right hhalf hunit)
    gcongr

/-! ### Other ways to round -/

private theorem log2_mul_two_pow (h : m ≠ 0) (k : ℕ) : (m * 2 ^ k).log2 = m.log2 + k := by
  induction k with
  | zero => rw [pow_zero, mul_one, add_zero]
  | succ k ih =>
    rw [pow_succ, ← mul_assoc, mul_comm, Nat.log2_two_mul (by positivity), ih, add_assoc]

private theorem log2_div_two_pow {k : ℕ} (h : m / 2 ^ k ≠ 0) : (m / 2 ^ k).log2 + k = m.log2 := by
  have hlow := Nat.log2_self_le h
  have hhigh := Nat.lt_log2_self (n := m / 2 ^ k)
  have hm : m ≠ 0 := by
    rintro rfl
    exact h (Nat.zero_div _)
  refine ((Nat.log2_eq_iff hm).2 ⟨?_, ?_⟩).symm
  · rw [pow_add]
    exact (Nat.mul_le_mul_right _ hlow).trans (Nat.div_mul_le_self m _)
  · rw [add_right_comm, pow_add]
    exact (Nat.div_lt_iff_lt_mul (by positivity)).1 hhigh

theorem decreaseExponent_value (m : ℕ) (e target : ℤ) :
    ((decreaseExponent m e target).1 : ℚ) * 2 ^ (decreaseExponent m e target).2 = m * 2 ^ e := by
  simp only [decreaseExponent, Nat.shiftLeft_eq]
  rw [zpow_sub₀ two_ne_zero, zpow_natCast]
  push_cast
  field_simp

theorem nearest_zero : Nearest format sign 0 (.zero sign) :=
  ⟨rfl, fun y _ => by simp [size]⟩

private theorem exact_zero_shiftRight (k : ℕ) :
    ExtendedMantissa.ofMantissaAndAccuracy 0 .exact >>> k = .ofMantissaAndAccuracy 0 .exact := by
  change k.repeat ExtendedMantissa.shiftRightOne _ = _
  induction k with
  | zero => rfl
  | succ k ih => rw [Nat.repeat, ih]; rfl

private theorem roundWithAccuracy_zero (e : ℤ) : roundWithAccuracy format sign 0 e .exact = .zero sign := by
  have hrounded : (ExtendedMantissa.ofMantissaAndAccuracy 0 .exact).roundedMantissa = 0 := rfl
  have hmantissa : (ExtendedMantissa.ofMantissaAndAccuracy 0 .exact).mantissa = 0 := rfl
  simp only [roundWithAccuracy, shiftToTargetExponent, shiftToExponent, exact_zero_shiftRight, hrounded, hmantissa,
    dite_true]

theorem nearest_round (format : Format) (sign : Sign) (m : ℕ) (e : ℤ) :
    Nearest format sign (m * 2 ^ e) (UnpackedFloat.round format sign m e) := by
  rw [← decreaseExponent_value m e (format.targetExponent (totalExponent m e))]
  simp only [UnpackedFloat.round]
  rcases eq_or_ne m 0 with rfl | hm
  · simp only [decreaseExponent, Nat.zero_shiftLeft, Nat.cast_zero, zero_mul, roundWithAccuracy_zero]
    exact nearest_zero
  · refine nearest_roundWithAccuracy (marks_exact _) ?_
    simp only [decreaseExponent, Nat.shiftLeft_eq, Format.targetExponent, totalExponent, log2_mul_two_pow hm]
    push_cast
    omega

/-- Rounding a dyadic number gives a nearest number of the format. -/
theorem nearest_roundDyadic (format : Format) (sign : Sign) (m : ℕ) (e : ℤ) :
    Nearest format sign (m * 2 ^ e) (roundDyadic format sign m e) := by
  rw [roundDyadic]
  split
  · exact nearest_round format sign m e
  · rename_i hdrop
    obtain ⟨k, hk⟩ : ∃ k : ℕ, k = (format.targetExponent (totalExponent m e) - e).toNat := ⟨_, rfl⟩
    have hbits := format.hm
    rw [← hk, Nat.one_shiftLeft, Nat.shiftRight_eq_div_pow]
    have hvalue : (m : ℚ) * 2 ^ e = m / (2 ^ k : ℕ) * 2 ^ (e + k) := by
      rw [zpow_add₀ two_ne_zero, zpow_natCast]
      push_cast
      field_simp
    rw [hvalue]
    refine nearest_roundWithAccuracy (marks_accuracyOfFraction m (by positivity)) ?_
    rw [← hk] at hdrop
    rw [Format.targetExponent, totalExponent, Format.mantissaBits] at hk ⊢
    rcases eq_or_ne (m / 2 ^ k) 0 with hzero | hne
    · -- the number is so small that the least exponent is reached
      have hlog : m.log2 < k := by
        rcases eq_or_ne m 0 with rfl | hm
        · rw [Nat.log2_zero]
          omega
        · exact (Nat.log2_lt hm).2 ((Nat.div_eq_zero_iff_lt (by positivity)).1 hzero)
      omega
    · have hlog := log2_div_two_pow hne
      omega

end

end Ostinato.Numeric
