import Mathlib
import Ostinato.Proofs.Numeric.Arithmetic

/-!
# Numbers within bounds

Numbers of a known sign that are not larger than a known power of two stay numbers of this kind under arithmetic, as
long as the powers do not become too large for the format.  A sum of many of them is bounded too, however many they
are: once it is so large that they are less than half of the distance to the next number, they are absorbed.

* `Below`: the numbers of a format below a power of two; `Double`, `Single`: those of the two precisions.
* `Double.mul`, `Double.div`, `Double.add`, `Double.neg`, `single_narrow`: the operations.
* `Double.absorb`, `Single.absorb`: sums with small numbers.
-/

namespace Ostinato.Numeric

open Float.Model (UnpackedFloat Format)
open Float.Model.UnpackedFloat

/-! ### Powers of two as bounds -/

/-- A number of the given sign whose size is at most the given power of two. -/
structure Below (format : Format) (sign : Sign) (k : ℕ) (u : UnpackedFloat) : Prop where
  canonical : Canonical format sign u
  size_le : size u ≤ 2 ^ k

section

variable {format : Format} {sign sign' : Sign} {j k : ℕ} {x : ℚ} {u v : UnpackedFloat}

theorem inFormat_two_pow (format : Format) (k : ℕ) : InFormat format (2 ^ k) := by
  refine ⟨1, k, Nat.one_le_two_pow, ?_, by simp⟩
  have hmin := minExponent_eq format
  have hbits := format.hm
  omega

theorem below_zero : Below format sign k (.zero sign) :=
  ⟨rfl, by simp [size]⟩

theorem Below.mono (h : Below format sign j u) (hjk : j ≤ k) : Below format sign k u :=
  ⟨h.canonical, h.size_le.trans (pow_le_pow_right₀ one_le_two hjk)⟩

theorem Nearest.below (h : Nearest format sign x u) (hx : x ≤ 2 ^ k) : Below format sign k u :=
  ⟨h.canonical, h.size_le (inFormat_two_pow format k) hx⟩

theorem Below.unpack_pack (h : Below format sign k u) (hbits : 2 ≤ format.exponentBits)
    (hk : k ≤ format.exponentBias) : unpack format (pack format u) = u :=
  Numeric.unpack_pack hbits h.canonical (h.size_le.trans (pow_le_pow_right₀ one_le_two hk))

theorem Canonical.isFinite (h : Canonical format sign u) : u.isFinite = true := by
  match u, h with
  | .zero _, _ => rfl
  | .finite .., _ => rfl

theorem Below.isFinite (h : Below format sign k u) : u.isFinite = true :=
  Canonical.isFinite h.canonical

theorem Below.neg (h : Below format sign k u) : Below format (-sign) k u.neg :=
  ⟨h.canonical.neg, (size_neg u).trans_le h.size_le⟩

theorem Below.mul (hu : Below format sign j u) (hv : Below format sign' k v) :
    Below format (sign * sign') (j + k) (u.mul format v) := by
  refine (nearest_mul hu.canonical hv.canonical).below ?_
  rw [pow_add]
  exact mul_le_mul hu.size_le hv.size_le (size_nonneg v) (by positivity)

theorem Below.div (hu : Below format sign k u) (hv : Canonical format sign' v) (hone : 1 ≤ size v) :
    Below format (sign / sign') k (u.div format v) := by
  refine (nearest_div hu.canonical hv (by linarith)).below ?_
  exact (div_le_self (size_nonneg u) hone).trans hu.size_le

theorem Below.add (hu : Below format sign k u) (hv : Below format sign' k v) :
    ∃ s, Below format s (k + 1) (u.add format v) := by
  obtain ⟨s, x, hx, hnearest⟩ := exists_nearest_add hu.canonical hv.canonical
  refine ⟨s, hnearest.below (hx.trans ?_)⟩
  rw [pow_succ', two_mul]
  exact add_le_add hu.size_le hv.size_le

/-- What is taken out of bits is below the power of two behind the largest one of the format. -/
theorem exists_below_unpack {bits : BitVec format.numBits} (hbits : 2 ≤ format.exponentBits)
    (h : (unpack format bits).isFinite = true) :
    ∃ sign, Below format sign (format.exponentBias + 1) (unpack format bits) := by
  obtain ⟨sign, hcanonical⟩ := exists_canonical_unpack bits h
  refine ⟨sign, hcanonical, ?_⟩
  match hu : unpack format bits, hcanonical with
  | .zero _, _ =>
    have hpos : (0 : ℚ) ≤ 2 ^ (format.exponentBias + 1) := by positivity
    exact hpos
  | .finite _ m e _, ⟨rfl, hm, _⟩ =>
    have htop := exponent_le_of_unpack hbits hu
    calc (m : ℚ) * 2 ^ e
      _ ≤ (2 ^ format.mantissaBits : ℕ) * 2 ^ e := by gcongr
      _ = (2 : ℚ) ^ (format.mantissaBitsWithoutImplicit + (e + 1)) := by
        rw [pow_mantissaBits_mul_zpow, zpow_add₀ two_ne_zero _ (e + 1), zpow_natCast]
        norm_cast
      _ ≤ 2 ^ ((format.exponentBias + 1 : ℕ) : ℤ) := zpow_le_zpow_right₀ one_le_two (by push_cast; omega)
      _ = 2 ^ (format.exponentBias + 1) := zpow_natCast _ _

/-- A sum with a number that is less than half of the distance behind a power of two does not pass that power. -/
theorem Below.absorb (hu : Below format sign k u) (hv : Below format sign' j v)
    (hjk : j + format.mantissaBits + 1 ≤ k) : ∃ s, Below format s k (u.add format v) := by
  obtain ⟨s, x, hx, hnearest⟩ := exists_nearest_add hu.canonical hv.canonical
  refine ⟨s, hnearest.canonical, ?_⟩
  by_contra hlarge
  rw [not_le] at hlarge
  have htop : x ≤ 2 ^ k + 2 ^ j := hx.trans (add_le_add hu.size_le hv.size_le)
  have hnear := hnearest.abs_size_sub_le _ (inFormat_two_pow format k)
  rw [Format.mantissaBits] at hjk
  -- the numbers above the power are whole numbers of units that are larger than twice the small number
  obtain ⟨target, htarget⟩ : ∃ target : ℕ, k = format.mantissaBitsWithoutImplicit + target :=
    Nat.exists_eq_add_of_le (by omega)
  have hpower : (2 : ℚ) ^ k = (2 ^ format.mantissaBitsWithoutImplicit : ℕ) * 2 ^ (target : ℤ) := by
    rw [htarget, pow_add, zpow_natCast]
    push_cast
    rfl
  rcases hnearest.canonical.inFormat.eq_units_or_le target with ⟨n, hn⟩ | ⟨-, hle⟩
  · have hcount : 2 ^ format.mantissaBitsWithoutImplicit + 1 ≤ n := by
      rw [hn, hpower] at hlarge
      exact_mod_cast lt_of_mul_lt_mul_right hlarge (by positivity)
    have hnext : 2 ^ k + 2 ^ target ≤ size (u.add format v) := by
      calc (2 : ℚ) ^ k + 2 ^ target
        _ = (2 ^ format.mantissaBitsWithoutImplicit + 1 : ℕ) * 2 ^ (target : ℤ) := by
          rw [hpower, zpow_natCast]
          push_cast
          ring
        _ ≤ n * 2 ^ (target : ℤ) := by gcongr
        _ = size (u.add format v) := hn.symm
    have hsmall : 2 * (2 : ℚ) ^ j < 2 ^ target := by
      rw [← pow_succ']
      exact pow_lt_pow_right₀ one_lt_two (by omega)
    rcases abs_cases (size (u.add format v) - x) with ⟨habs, -⟩ | ⟨-, hneg⟩ <;>
      rcases abs_cases ((2 : ℚ) ^ k - x) with ⟨habs', -⟩ | ⟨habs', -⟩ <;>
      linarith
  · rw [← hpower] at hle
    exact absurd hle (not_le.2 hlarge)

/-! ### Checking -/

/-- Whether a number is positive and below a power of two, by a comparison of natural numbers. -/
def isBelow (k : ℕ) : UnpackedFloat → Bool
  | .zero .positive => true
  | .finite .positive m e _ => m * 2 ^ e.toNat ≤ 2 ^ (k + (-e).toNat)
  | _ => false

private theorem below_of_isBelow {bits : BitVec format.numBits} (h : isBelow k (unpack format bits) = true) :
    Below format .positive k (unpack format bits) := by
  generalize hu : unpack format bits = u at h
  have hcanonical : u.isFinite = true → ∃ sign, Canonical format sign u := by
    rw [← hu]
    exact exists_canonical_unpack bits
  match u, h with
  | .zero .positive, _ => exact below_zero
  | .finite .positive m e hm, h =>
    obtain ⟨sign, rfl, hform⟩ := hcanonical rfl
    refine ⟨⟨rfl, hform⟩, ?_⟩
    have hnat : m * 2 ^ e.toNat ≤ 2 ^ (k + (-e).toNat) := of_decide_eq_true h
    have hsplit : e = e.toNat - (-e).toNat := by omega
    rw [size, hsplit, zpow_sub₀ two_ne_zero, zpow_natCast, zpow_natCast, ← mul_div_assoc,
      div_le_iff₀ (by positivity), ← pow_add]
    exact_mod_cast hnat

end

/-! ### Double precision -/

/-- A number of double precision and of the given sign whose size is at most the given power of two. -/
def Double (sign : Sign) (k : ℕ) (x : Float) : Prop :=
  Below .binary64 sign k x.toModel.unpack

section

variable {sign sign' : Sign} {j k : ℕ} {x y : Float}

theorem double_pack {u : UnpackedFloat} (h : Below .binary64 sign k u) (hk : k ≤ 1023) :
    Double sign k (.ofModel (.pack u)) := by
  have hback : unpack .binary64 (pack .binary64 u) = u := h.unpack_pack (by decide) hk
  show Below .binary64 sign k (unpack .binary64 (pack .binary64 u))
  rwa [hback]

theorem double_of_isBelow (h : isBelow k x.toModel.unpack = true) : Double .positive k x :=
  below_of_isBelow h

namespace Double

theorem mono (h : Double sign j x) (hjk : j ≤ k) : Double sign k x :=
  Below.mono h hjk

theorem isFinite (h : Double sign k x) : x.isFinite = true :=
  Below.isFinite h

theorem neg (h : Double sign k x) (hk : k ≤ 1023) : Double (-sign) k (-x) :=
  double_pack (Below.neg h) hk

theorem mul (hx : Double sign j x) (hy : Double sign' k y) (hjk : j + k ≤ 1023) :
    Double (sign * sign') (j + k) (x * y) :=
  double_pack (Below.mul hx hy) hjk

theorem unpack_mul (hx : Double sign j x) (hy : Double sign' k y) (hjk : j + k ≤ 1023) :
    (x * y).toModel.unpack = x.toModel.unpack.mul .binary64 y.toModel.unpack :=
  (Below.mul hx hy).unpack_pack (by decide) hjk

theorem div {k' : ℕ} (hx : Double sign k x) (hy : Double sign' k' y) (hone : 1 ≤ size y.toModel.unpack)
    (hk : k ≤ 1023) : Double (sign / sign') k (x / y) :=
  double_pack (Below.div hx hy.canonical hone) hk

theorem unpack_div {k' : ℕ} (hx : Double sign k x) (hy : Double sign' k' y) (hone : 1 ≤ size y.toModel.unpack)
    (hk : k ≤ 1023) : (x / y).toModel.unpack = x.toModel.unpack.div .binary64 y.toModel.unpack :=
  (Below.div hx hy.canonical hone).unpack_pack (by decide) hk

theorem add (hx : Double sign k x) (hy : Double sign' k y) (hk : k < 1023) : ∃ s, Double s (k + 1) (x + y) := by
  obtain ⟨s, hs⟩ := Below.add hx hy
  exact ⟨s, double_pack hs hk⟩

/-- A product with zero is zero. -/
theorem toUInt64_mul_of_zero (hx : Double sign k x) (hy : y.toModel.unpack = .zero sign') : (x * y).toUInt64 = 0 := by
  have hproduct : ∃ s, x.toModel.unpack.mul .binary64 y.toModel.unpack = .zero s := by
    rw [hy]
    match x.toModel.unpack, hx.canonical with
    | .zero _, _ => exact ⟨_, rfl⟩
    | .finite .., _ => exact ⟨_, rfl⟩
  obtain ⟨s, hs⟩ := hproduct
  show (unpack .binary64 (pack .binary64 (x.toModel.unpack.mul .binary64 y.toModel.unpack))).toUInt64 = 0
  rw [hs, pack, unpack_packedZero]
  rfl

theorem sub (hx : Double sign k x) (hy : Double sign' k y) (hk : k < 1023) : ∃ s, Double s (k + 1) (x - y) := by
  obtain ⟨s, hs⟩ := Below.add hx (Below.neg hy)
  rw [← sub_eq_add_neg] at hs
  exact ⟨s, double_pack hs hk⟩

theorem absorb (hx : Double sign k x) (hy : Double sign' j y) (hjk : j + 54 ≤ k) (hk : k ≤ 1023) :
    ∃ s, Double s k (x + y) := by
  obtain ⟨s, hs⟩ := Below.absorb hx hy hjk
  exact ⟨s, double_pack hs hk⟩

end Double

/-! ### Integers -/

theorem below_normalize (format : Format) {n : ℕ} (hn : n ≤ 2 ^ k) :
    Below format .positive k (UnpackedFloat.normalize format n 0 .positive) := by
  refine (nearest_normalize_natCast format n 0).below ?_
  rw [zpow_zero, mul_one]
  exact_mod_cast hn

theorem nearest_ofNat {n : ℕ} (hn : n ≤ 2 ^ 64) :
    Nearest .binary64 .positive n (Float.ofModel (.ofNat n)).toModel.unpack := by
  have hback : (Float.ofModel (.ofNat n)).toModel.unpack = UnpackedFloat.normalize .binary64 n 0 .positive :=
    (below_normalize .binary64 hn).unpack_pack (by decide) (by decide)
  rw [hback]
  simpa using nearest_normalize_natCast .binary64 n 0

/-- Rounding a positive natural number does not make it less than one. -/
theorem one_le_size_ofNat {n : ℕ} (hpos : 1 ≤ n) (hn : n ≤ 2 ^ 64) :
    1 ≤ size (Float.ofModel (.ofNat n)).toModel.unpack := by
  have hone := (nearest_ofNat hn).le_size (inFormat_two_pow .binary64 0)
  rw [pow_zero] at hone
  exact hone (by exact_mod_cast hpos)

theorem double_toFloat (n : UInt64) : Double .positive 64 n.toFloat :=
  double_pack (below_normalize .binary64 (UInt64.toNat_lt n).le) (by decide)

theorem double_ofInt64 (n : Int64) : ∃ s, Double s 63 (ofInt64 n) := by
  obtain ⟨s, hnearest⟩ := exists_nearest_normalize .binary64 n.toInt 0 .positive
  refine ⟨s, double_pack (hnearest.below ?_) (by decide)⟩
  have hlow := Int64.le_toInt n
  have hhigh := Int64.toInt_lt n
  have hnat : n.toInt.natAbs ≤ 2 ^ 63 := by omega
  rw [zpow_zero, mul_one]
  exact_mod_cast hnat

/-! ### Bits -/

/-- A number whose exponent bits are those of one is below two. -/
theorem exists_double_ofBits {bits : UInt64} (h : @unpackExponent .binary64 bits.toBitVec = 1023#11) :
    ∃ s, Double s 1 (Float.ofBits bits) := by
  obtain ⟨m, hm, hunpack⟩ : ∃ m, ∃ hm : 0 < m, unpack .binary64 bits.toBitVec =
      .finite (.ofBitVec (@unpackSign .binary64 bits.toBitVec)) m (-52) hm :=
    ⟨_, _, by simp only [unpack, h]; rfl⟩
  obtain ⟨s, hs⟩ := @exists_canonical_unpack .binary64 bits.toBitVec (by rw [hunpack]; rfl)
  refine ⟨s, double_pack ⟨hs, ?_⟩ (by decide)⟩
  rw [hunpack] at hs ⊢
  have hlt : (m : ℚ) ≤ 2 ^ 53 := by exact_mod_cast hs.2.1.le
  rw [size, zpow_neg, ← div_eq_mul_inv, div_le_iff₀ (by positivity)]
  exact hlt.trans_eq (by norm_num)

end

/-! ### Single precision -/

/-- A number of single precision and of the given sign whose size is at most the given power of two. -/
def Single (sign : Sign) (k : ℕ) (x : Float32) : Prop :=
  Below .binary32 sign k x.toModel.unpack

section

variable {sign sign' : Sign} {j k : ℕ} {x y : Float32}

theorem single_pack {u : UnpackedFloat} (h : Below .binary32 sign k u) (hk : k ≤ 127) :
    Single sign k (.ofModel (.pack u)) := by
  have hback : unpack .binary32 (pack .binary32 u) = u := h.unpack_pack (by decide) hk
  show Below .binary32 sign k (unpack .binary32 (pack .binary32 u))
  rwa [hback]

theorem single_of_isBelow (h : isBelow k x.toModel.unpack = true) : Single .positive k x :=
  below_of_isBelow h

theorem Single.neg (h : Single sign k x) (hk : k ≤ 127) : Single (-sign) k (-x) :=
  single_pack (Below.neg h) hk

theorem single_narrow {x : Float} (h : Double sign k x) (hk : k ≤ 127) : Single sign k (narrow x) :=
  single_pack ((nearest_reformat h.canonical).below h.size_le) hk

theorem Single.add (hx : Single sign k x) (hy : Single sign' k y) (hk : k < 127) : ∃ s, Single s (k + 1) (x + y) := by
  obtain ⟨s, hs⟩ := Below.add hx hy
  exact ⟨s, single_pack hs hk⟩

theorem Single.absorb (hx : Single sign k x) (hy : Single sign' j y) (hjk : j + 25 ≤ k) (hk : k ≤ 127) :
    ∃ s, Single s k (x + y) := by
  obtain ⟨s, hs⟩ := Below.absorb hx hy hjk
  exact ⟨s, single_pack hs hk⟩

end

/-! ### Infinite numbers -/

section

variable {format : Format} {sign : Sign} {k : ℕ} {u v : UnpackedFloat}

theorem unpack_packedInfinity : unpack format (packedInfinity format sign) = .infinity sign := by
  simp [unpack, packedInfinity]

theorem isNaN_unpack_pack (h : u.isNaN = false) : (unpack format (pack format u)).isNaN = false := by
  have hplain : ∀ s (e : BitVec format.exponentBits) m, e ≠ -1#_ →
      (unpack format (packComponents format s e m)).isNaN = false := by
    intro s e m he
    rw [unpack_packComponents, if_neg he]
    split
    · split <;> rfl
    · rfl
  cases u with
  | notANumber => cases h
  | infinity s =>
    rw [pack, unpack_packedInfinity]
    rfl
  | zero s =>
    rw [pack, unpack_packedZero]
    rfl
  | finite s m e hm =>
    simp only [pack]
    split
    · rw [unpack_packedInfinity]
      rfl
    · rename_i hfits
      split
      · exact hplain _ _ _ (ofNat_ne_neg_one (not_le.1 hfits))
      · refine hplain _ _ _ ?_
        rw [ne_eq, BitVec.zero_eq_neg_one_iff]
        exact format.he.ne'

theorem Canonical.isNaN_eq_false (h : Canonical format sign u) : u.isNaN = false := by
  match u, h with
  | .zero _, _ => rfl
  | .finite .., _ => rfl

private theorem isNaN_roundWithAccuracy (m : ℕ) (e : ℤ) (accuracy : Accuracy) :
    (roundWithAccuracy format sign m e accuracy).isNaN = false := by
  simp only [roundWithAccuracy]
  split <;> rfl

/-- A sum of numbers is a number if one of them is finite. -/
theorem isNaN_add (hu : u.isNaN = false) (hv : v.isNaN = false) (h : u.isFinite = true ∨ v.isFinite = true) :
    (u.add format v).isNaN = false := by
  match u, v, hu, hv with
  | .infinity _, .infinity _, _, _ => simp [UnpackedFloat.isFinite] at h
  | .infinity _, .zero _, _, _ => rfl
  | .infinity _, .finite .., _, _ => rfl
  | .zero _, .infinity _, _, _ => rfl
  | .finite .., .infinity _, _, _ => rfl
  | .zero _, .zero _, _, _ =>
    rw [UnpackedFloat.add]
    split <;> rfl
  | .zero _, .finite .., _, _ => rfl
  | .finite .., .zero _, _, _ => rfl
  | .finite s m e _, .finite s' m' e' _, _, _ =>
    obtain ⟨_, hnearest⟩ := exists_nearest_normalize format
      (s.apply (decreaseExponent m e (min e e')).1 + s'.apply (decreaseExponent m' e' (min e e')).1) (min e e')
      .positive
    exact hnearest.canonical.isNaN_eq_false

/-- A product with a finite number other than zero is a number. -/
theorem isNaN_mul {m : ℕ} {e : ℤ} {hm : 0 < m} (hu : u.isNaN = false) :
    (u.mul format (.finite sign m e hm)).isNaN = false := by
  match u, hu with
  | .infinity _, _ => rfl
  | .zero _, _ => rfl
  | .finite .., _ => exact isNaN_roundWithAccuracy _ _ _

end

end Ostinato.Numeric
