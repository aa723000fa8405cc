import Mathlib
import Ostinato.Proofs.Numeric.Rounding

/-!
# Packing

What is kept when a number is put into the bits of a format and taken out again: everything, if it is in the form of
the format and its exponent is one of the format (`unpack_pack_of_exponent_le`), which it is if the number is not larger
than the largest power of two (`unpack_pack`).  What is taken out of bits is such a number (`exists_canonical_unpack`,
`exponent_le_of_unpack`).
-/

namespace Ostinato.Numeric

open Float.Model (UnpackedFloat Format totalExponent)
open Float.Model.UnpackedFloat

variable {format : Format} {sign : Sign} {u : UnpackedFloat}

/-! ### Formats -/

theorem minExponent_eq (format : Format) :
    format.minExponent = 1 - format.exponentBias - format.mantissaBitsWithoutImplicit := by
  have hpos : 1 ≤ 2 ^ (format.exponentBits - 1) := Nat.one_le_two_pow
  rw [Format.minExponent, Format.exponentBias, Format.mantissaBits]
  push_cast [hpos]
  ring

private theorem two_pow_exponentBits (format : Format) : 2 ^ format.exponentBits = 2 * format.exponentBias + 2 := by
  have hpos : 1 ≤ 2 ^ (format.exponentBits - 1) := Nat.one_le_two_pow
  have hsucc : format.exponentBits = format.exponentBits - 1 + 1 := by have := format.he; omega
  rw [Format.exponentBias]
  conv_lhs => rw [hsucc, pow_succ]
  omega

theorem Canonical.inFormat (h : Canonical format sign u) : InFormat format (size u) := by
  match u, h with
  | .zero _, _ => exact ⟨0, format.minExponent, Nat.zero_le _, le_rfl, by simp [size]⟩
  | .finite _ m e _, ⟨_, hm, he, _⟩ => exact ⟨m, e, hm.le, he, rfl⟩

/-! ### From bits -/

private theorem toNat_ofNat_of_lt {w n : ℕ} (h : n < 2 ^ w) : (BitVec.ofNat w n).toNat = n := by
  rw [BitVec.toNat_ofNat, Nat.mod_eq_of_lt h]

private theorem ofNat_ne_zero {w n : ℕ} (hn : n ≠ 0) (h : n < 2 ^ w) : BitVec.ofNat w n ≠ 0#w := by
  intro heq
  have hvalue := congrArg BitVec.toNat heq
  rw [toNat_ofNat_of_lt h, BitVec.toNat_zero] at hvalue
  exact hn hvalue

theorem ofNat_ne_neg_one {w n : ℕ} (h : n + 1 < 2 ^ w) : BitVec.ofNat w n ≠ -1#w := by
  intro heq
  have hvalue := congrArg BitVec.toNat heq
  rw [toNat_ofNat_of_lt (Nat.lt_of_succ_lt h), BitVec.neg_one_eq_allOnes, BitVec.toNat_allOnes] at hvalue
  omega

private theorem toNat_one_append (n : ℕ) (bits : BitVec n) : (1#1 ++ bits).toNat = 2 ^ n + bits.toNat := by
  rw [BitVec.toNat_append, ← Nat.shiftLeft_add_eq_or_of_lt bits.isLt, Nat.shiftLeft_eq]
  simp

/-- What is taken out of bits is a number in the form of the format, if it is a finite one. -/
theorem exists_canonical_unpack (bits : BitVec format.numBits) (h : (unpack format bits).isFinite = true) :
    ∃ sign, Canonical format sign (unpack format bits) := by
  have hlt := (unpackMantissa bits).isLt
  rw [unpack] at h ⊢
  split at h
  · split at h <;> cases h
  · rename_i hspecial
    rw [if_neg hspecial]
    split
    · rename_i hexponent
      split
      · exact ⟨_, rfl⟩
      · refine ⟨_, rfl, ?_, ?_, ?_⟩
        · rw [pow_mantissaBits]
          omega
        all_goals rw [hexponent, minExponent_eq]
        · simp
          omega
        · right
          simp
          omega
    · rename_i hexponent
      have hpos : 0 < (unpackExponent bits).toNat := by
        simpa [BitVec.toNat_pos, BitVec.pos_iff_ne_zero] using hexponent
      refine ⟨_, rfl, ?_, ?_, ?_⟩
      · rw [toNat_one_append, pow_mantissaBits]
        omega
      · rw [minExponent_eq]
        omega
      · left
        rw [toNat_one_append]
        omega

private theorem one_le_exponentBias (hbits : 2 ≤ format.exponentBits) : 1 ≤ format.exponentBias := by
  have := two_pow_exponentBits format
  have := Nat.pow_le_pow_right two_pos hbits
  omega

/-- The largest exponent that bits can hold is not the one of a finite number. -/
theorem exponent_le_of_unpack {bits : BitVec format.numBits} {m : ℕ} {e : ℤ} {hm : 0 < m}
    (hbits : 2 ≤ format.exponentBits) (h : unpack format bits = .finite sign m e hm) :
    e + format.mantissaBitsWithoutImplicit ≤ format.exponentBias := by
  have hbias := one_le_exponentBias hbits
  have hcount := two_pow_exponentBits format
  have hlt := (unpackExponent bits).isLt
  rw [unpack] at h
  split at h
  · split at h <;> cases h
  · rename_i hspecial
    have hne : (unpackExponent bits).toNat ≠ 2 ^ format.exponentBits - 1 := by
      rwa [← BitVec.toNat_allOnes, ne_eq, BitVec.toNat_inj, ← BitVec.neg_one_eq_allOnes]
    split at h
    · rename_i hexponent
      split at h
      · cases h
      · obtain ⟨-, -, rfl⟩ := UnpackedFloat.finite.inj h
        rw [hexponent, BitVec.toNat_zero]
        omega
    · obtain ⟨-, -, rfl⟩ := UnpackedFloat.finite.inj h
      omega

/-! ### To bits and back -/

theorem unpack_packComponents (e : BitVec format.exponentBits) (m : BitVec format.mantissaBitsWithoutImplicit) :
    unpack format (packComponents format sign e m) =
      if e = -1#_ then (if m = 0#_ then .infinity sign else .notANumber)
      else if e = 0#_ then
        if h : m = 0#_ then .zero sign
        else .finite sign m.toNat (e.toNat - (format.exponentBias + format.mantissaBitsWithoutImplicit) + 1)
          (by simpa [BitVec.toNat_pos, BitVec.pos_iff_ne_zero] using h)
      else .finite sign (1#1 ++ m).toNat (e.toNat - (format.exponentBias + format.mantissaBitsWithoutImplicit))
        (by simp) := by
  simp only [unpack, unpackMantissa_packComponents, unpackExponent_packComponents, unpackSign_packComponents,
    Sign.ofBitVec_toBitVec]

/-- The exponent of a number that is not larger than the largest power of two of the format. -/
private theorem exponent_le_of_size_le {m : ℕ} {e : ℤ} {hm : 0 < m} (hbits : 2 ≤ format.exponentBits)
    (h : Canonical format sign (.finite sign m e hm)) (hsize : size (.finite sign m e hm) ≤ 2 ^ format.exponentBias) :
    e + format.mantissaBitsWithoutImplicit ≤ format.exponentBias := by
  obtain ⟨-, -, -, hlow | hleast⟩ := h
  · have hpow : (2 : ℚ) ^ (e + format.mantissaBitsWithoutImplicit) ≤ 2 ^ (format.exponentBias : ℤ) := by
      calc (2 : ℚ) ^ (e + format.mantissaBitsWithoutImplicit)
        _ = (2 ^ format.mantissaBitsWithoutImplicit : ℕ) * 2 ^ e := by
          rw [zpow_add₀ two_ne_zero, zpow_natCast, mul_comm]
          norm_cast
        _ ≤ m * 2 ^ e := by gcongr
        _ ≤ 2 ^ (format.exponentBias : ℤ) := hsize
    exact (zpow_le_zpow_iff_right₀ one_lt_two).1 hpow
  · have hbias := one_le_exponentBias hbits
    rw [hleast, minExponent_eq]
    omega

/-- What is taken out of bits whose exponent is neither the least nor the largest one: the leading bit of the mantissa
is set without being kept. -/
private theorem unpack_packComponents_of_le {b m : ℕ} {hm : 0 < m} (hb : b ≠ 0)
    (hfits : b + 1 < 2 ^ format.exponentBits) (hlow : 2 ^ format.mantissaBitsWithoutImplicit ≤ m)
    (hhigh : m < 2 ^ format.mantissaBits) :
    unpack format (packComponents format sign (.ofNat _ b) (.ofNat _ m)) =
      .finite sign m (b - (format.exponentBias + format.mantissaBitsWithoutImplicit)) hm := by
  rw [pow_mantissaBits] at hhigh
  have hmantissa : (1#1 ++ BitVec.ofNat format.mantissaBitsWithoutImplicit m).toNat = m := by
    rw [toNat_one_append, BitVec.toNat_ofNat, Nat.mod_eq_sub_mod hlow, Nat.mod_eq_of_lt (by omega)]
    omega
  rw [unpack_packComponents, if_neg (ofNat_ne_neg_one hfits), if_neg (ofNat_ne_zero hb (by omega))]
  simp only [hmantissa, toNat_ofNat_of_lt (Nat.lt_of_succ_lt hfits)]

/-- What is taken out of bits with the least exponent. -/
private theorem unpack_packComponents_of_lt {m : ℕ} {hm : 0 < m} (hhigh : m < 2 ^ format.mantissaBitsWithoutImplicit) :
    unpack format (packComponents format sign (.ofNat _ 0) (.ofNat _ m)) =
      .finite sign m (1 - (format.exponentBias + format.mantissaBitsWithoutImplicit)) hm := by
  have hleast : BitVec.ofNat format.exponentBits 0 ≠ -1#_ := by
    rw [ne_eq, BitVec.zero_eq_neg_one_iff]
    exact format.he.ne'
  have hexponent : ((BitVec.ofNat format.exponentBits 0).toNat : ℤ) -
      (format.exponentBias + format.mantissaBitsWithoutImplicit) + 1 =
        1 - (format.exponentBias + format.mantissaBitsWithoutImplicit) := by
    rw [BitVec.toNat_zero]
    omega
  rw [unpack_packComponents, if_neg hleast, if_pos rfl, dif_neg (ofNat_ne_zero hm.ne' hhigh)]
  simp only [toNat_ofNat_of_lt hhigh, hexponent]

/-- A number in the form of the format stays the same if it is put into bits and taken out again, unless its exponent is
too large. -/
theorem unpack_pack_of_exponent_le {m : ℕ} {e : ℤ} {hm : 0 < m} (h : Canonical format sign (.finite sign m e hm))
    (htop : e + format.mantissaBitsWithoutImplicit ≤ format.exponentBias) :
    unpack format (pack format (.finite sign m e hm)) = .finite sign m e hm := by
  obtain ⟨-, hlt, he, hlow⟩ := h
  have hcount := two_pow_exponentBits format
  rw [minExponent_eq] at he hlow
  obtain ⟨b, hb⟩ : ∃ b : ℕ, (b : ℤ) = e + format.exponentBias + format.mantissaBitsWithoutImplicit :=
    ⟨_, Int.toNat_of_nonneg (by omega)⟩
  have hbiased : (e + format.exponentBias + format.mantissaBitsWithoutImplicit).toNat = b := by omega
  have hfits : b + 1 < 2 ^ format.exponentBits := by omega
  simp only [pack, hbiased, if_neg hfits.not_ge]
  rcases Nat.lt_or_ge m (2 ^ format.mantissaBitsWithoutImplicit) with hsmall | hge
  · have hlog : m.log2 + 1 ≠ format.mantissaBits := by
      have := (Nat.log2_lt hm.ne').2 hsmall
      rw [Format.mantissaBits]
      omega
    obtain rfl : e = 1 - (format.exponentBias + format.mantissaBitsWithoutImplicit) := by omega
    rw [if_neg hlog]
    exact unpack_packComponents_of_lt hsmall
  · have hlog : m.log2 + 1 = format.mantissaBits := by
      have hone := (Nat.le_log2 hm.ne').2 hge
      have htwo := (Nat.log2_lt hm.ne').2 hlt
      rw [Format.mantissaBits] at htwo ⊢
      omega
    obtain rfl : e = b - (format.exponentBias + format.mantissaBitsWithoutImplicit) := by omega
    rw [if_pos hlog]
    exact unpack_packComponents_of_le (by omega) hfits hge hlt

theorem unpack_pack (hbits : 2 ≤ format.exponentBits) (h : Canonical format sign u)
    (hsize : size u ≤ 2 ^ format.exponentBias) : unpack format (pack format u) = u := by
  match u, h with
  | .zero _, rfl => exact unpack_packedZero
  | .finite _ m e hm, ⟨rfl, h⟩ =>
    exact unpack_pack_of_exponent_le ⟨rfl, h⟩ (exponent_le_of_size_le hbits ⟨rfl, h⟩ hsize)

end Ostinato.Numeric
