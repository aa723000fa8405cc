import Mathlib
import Ostinato.Proofs.Numeric.Bounds

/-!
# Exact values and their order

Every number of a format has an exact value, which is infinite for the infinite numbers, and two numbers of the same
format are compared as their values are (`IsNumber.compare_eq`).  So a comparison that succeeds says something about the
values, and the other way round.

* `value`: the exact value of a number.
* `IsNumber`: the numbers of a format, infinite ones included.
* `IsNumber.lt_iff`, `IsNumber.le_iff`: comparisons.
-/

namespace Ostinato.Numeric

open Float.Model (UnpackedFloat Format)
open Float.Model.UnpackedFloat

/-! ### Signs -/

/-- The number of the given size and sign. -/
def signed : Sign → ℚ → ℚ
  | .positive, x => x
  | .negative, x => -x

@[simp]
theorem signed_zero (s : Sign) : signed s 0 = 0 := by
  cases s with
  | positive => rfl
  | negative => exact neg_zero

private theorem signed_neg (s : Sign) (x : ℚ) : signed (-s) x = -signed s x := by
  cases s with
  | positive => rfl
  | negative => exact (neg_neg x).symm

theorem signed_mul (s : Sign) (x y : ℚ) : signed s (x * y) = signed s x * y := by
  cases s with
  | positive => rfl
  | negative => exact (neg_mul x y).symm

private theorem abs_signed (s : Sign) (x : ℚ) : |signed s x| = |x| := by
  cases s with
  | positive => rfl
  | negative => exact abs_neg x

section

variable {format : Format} {sign sign' : Sign} {u v : UnpackedFloat}

/-! ### Finite numbers -/

@[simp]
theorem size_zero (s : Sign) : size (.zero s) = 0 :=
  rfl

private theorem size_pos (s : Sign) {m : ℕ} (e : ℤ) (hm : 0 < m) : 0 < size (.finite s m e hm) :=
  mul_pos (by exact_mod_cast hm) (by positivity)

section

variable {m m' : ℕ} {e e' : ℤ} {hm : 0 < m} {hm' : 0 < m'}

/-- The larger one of two numbers has the larger exponent, or the same exponent and not the smaller mantissa. -/
private theorem le_of_size_le (h : Canonical format sign (.finite sign m e hm))
    (h' : Canonical format sign (.finite sign m' e' hm'))
    (hsize : size (.finite sign m e hm) ≤ size (.finite sign m' e' hm')) : e < e' ∨ e = e' ∧ m ≤ m' := by
  obtain ⟨-, -, -, hlow⟩ := h
  obtain ⟨-, hlt', hleast', -⟩ := h'
  rcases lt_trichotomy e e' with hlt | rfl | hgt
  · exact .inl hlt
  · exact .inr ⟨rfl, by exact_mod_cast le_of_mul_le_mul_right hsize (by positivity)⟩
  · -- the mantissa with the larger exponent fills its bits, which is too much
    exfalso
    have hfull : 2 ^ format.mantissaBitsWithoutImplicit ≤ m := hlow.resolve_right (by omega)
    have hsmaller : size (.finite sign m' e' hm') < size (.finite sign m e hm) := by
      calc (m' : ℚ) * 2 ^ e'
        _ < (2 ^ format.mantissaBits : ℕ) * 2 ^ e' := by gcongr
        _ = (2 ^ format.mantissaBitsWithoutImplicit : ℕ) * 2 ^ (e' + 1) := pow_mantissaBits_mul_zpow ..
        _ ≤ m * 2 ^ e := by
          gcongr
          · exact one_le_two
          · omega
    exact absurd hsize (not_le.2 hsmaller)

private theorem compare_eq_lt (h : Canonical format sign (.finite sign m e hm))
    (h' : Canonical format sign (.finite sign m' e' hm'))
    (hsize : size (.finite sign m e hm) < size (.finite sign m' e' hm')) :
    (compare e e').then (compare m m') = .lt := by
  rcases le_of_size_le h h' hsize.le with hlt | ⟨rfl, hle⟩
  · rw [compare_lt_iff_lt.2 hlt]
    rfl
  · have hlt : m < m' := by
      refine hle.lt_of_ne ?_
      rintro rfl
      exact lt_irrefl _ hsize
    rw [compare_eq_iff_eq.2 rfl, compare_lt_iff_lt.2 hlt]
    rfl

/-- The exponents of two numbers of the same sign are compared first, and then the mantissas. -/
private theorem compare_eq_cmp_size (h : Canonical format sign (.finite sign m e hm))
    (h' : Canonical format sign (.finite sign m' e' hm')) :
    (compare e e').then (compare m m') = cmp (size (.finite sign m e hm)) (size (.finite sign m' e' hm')) := by
  rcases lt_trichotomy (size (.finite sign m e hm)) (size (.finite sign m' e' hm')) with hlt | heq | hgt
  · rw [compare_eq_lt h h' hlt, (cmp_eq_lt_iff _ _).2 hlt]
  · have hle := le_of_size_le h h' heq.le
    have hge := le_of_size_le h' h heq.ge
    obtain ⟨rfl, rfl⟩ : e = e' ∧ m = m' := by omega
    simp
  · have hswap : ((compare e' e).then (compare m' m)).swap = (compare e e').then (compare m m') := by
      rw [Ordering.swap_then, ← Std.OrientedCmp.eq_swap, ← Std.OrientedCmp.eq_swap]
    rw [← hswap, compare_eq_lt h' h hgt, (cmp_eq_gt_iff _ _).2 hgt]
    rfl

private theorem Canonical.compare_finite (h : Canonical format sign (.finite sign m e hm))
    (h' : Canonical format sign' (.finite sign' m' e' hm')) :
    (UnpackedFloat.finite sign m e hm).compare (.finite sign' m' e' hm') =
      some (cmp (signed sign (size (.finite sign m e hm))) (signed sign' (size (.finite sign' m' e' hm')))) := by
  have hpos := size_pos sign e hm
  have hpos' := size_pos sign' e' hm'
  cases sign with
  | positive =>
    cases sign' with
    | positive => exact congrArg some (compare_eq_cmp_size h h')
    | negative => exact congrArg some ((cmp_eq_gt_iff _ _).2 ((neg_neg_of_pos hpos').trans hpos)).symm
  | negative =>
    cases sign' with
    | positive => exact congrArg some ((cmp_eq_lt_iff _ _).2 ((neg_neg_of_pos hpos).trans hpos')).symm
    | negative =>
      have hneg : StrictAnti fun x : ℚ => -x := fun _ _ => neg_lt_neg
      refine congrArg some ?_
      rw [compare_eq_cmp_size h h', cmp_swap]
      exact (hneg.cmp_map_eq _ _).symm

end

/-- Finite numbers are compared as their sizes are, with their signs. -/
theorem Canonical.compare_eq (hu : Canonical format sign u) (hv : Canonical format sign' v) :
    u.compare v = some (cmp (signed sign (size u)) (signed sign' (size v))) := by
  match u, v, hu, hv with
  | .zero _, .zero _, _, _ => simp [UnpackedFloat.compare]
  | .zero _, .finite _ m e hm, _, ⟨rfl, _⟩ =>
    have hpos := size_pos sign' e hm
    rw [size_zero, signed_zero]
    cases sign' with
    | positive => exact congrArg some ((cmp_eq_lt_iff _ _).2 hpos).symm
    | negative => exact congrArg some ((cmp_eq_gt_iff _ _).2 (neg_neg_of_pos hpos)).symm
  | .finite _ m e hm, .zero _, ⟨rfl, _⟩, _ =>
    have hpos := size_pos sign e hm
    rw [size_zero, signed_zero]
    cases sign with
    | positive => exact congrArg some ((cmp_eq_gt_iff _ _).2 hpos).symm
    | negative => exact congrArg some ((cmp_eq_lt_iff _ _).2 (neg_neg_of_pos hpos)).symm
  | .finite .., .finite .., ⟨rfl, hu⟩, ⟨rfl, hv⟩ => exact compare_finite ⟨rfl, hu⟩ ⟨rfl, hv⟩

private theorem lt_iff_of_compare_eq {α : Type} [LinearOrder α] {x y : α} (h : u.compare v = some (cmp x y)) :
    u.lt v = true ↔ x < y := by
  rw [UnpackedFloat.lt, h, beq_iff_eq, Option.some_inj, cmp_eq_lt_iff]

private theorem le_iff_of_compare_eq {α : Type} [LinearOrder α] {x y : α} (h : u.compare v = some (cmp x y)) :
    u.le v = true ↔ x ≤ y := by
  rw [UnpackedFloat.le, h, Option.any_some, ← not_lt, ← cmp_eq_gt_iff, Ordering.isLE_iff_ne_gt]

theorem Canonical.lt_of_size_lt (hu : Canonical format .positive u) (hv : Canonical format .positive v)
    (hsize : size u < size v) : u.lt v = true :=
  (lt_iff_of_compare_eq (hu.compare_eq hv)).2 hsize

/-- A number that is not larger than a positive one is between that and its negative. -/
theorem Canonical.between_of_size_le (hu : Canonical format sign u) (hv : Canonical format .positive v)
    (hsize : size u ≤ size v) : v.neg.le u = true ∧ u.le v = true := by
  have habs : |signed sign (size u)| ≤ size v := by rwa [abs_signed, abs_of_nonneg (size_nonneg u)]
  obtain ⟨hlow, hhigh⟩ := abs_le.1 habs
  rw [← size_neg v] at hlow
  exact ⟨(le_iff_of_compare_eq (hv.neg.compare_eq hu)).2 hlow, (le_iff_of_compare_eq (hu.compare_eq hv)).2 hhigh⟩

/-! ### Values -/

/-- The exact value of a number, finite or infinite.  What is no number counts as zero. -/
noncomputable def value : UnpackedFloat → EReal
  | .infinity .positive => ⊤
  | .infinity .negative => ⊥
  | .finite sign m e hm => ((signed sign (size (.finite sign m e hm)) : ℚ) : ℝ)
  | .zero _ | .notANumber => 0

/-- A number that the format holds, finite or infinite. -/
inductive IsNumber (format : Format) : UnpackedFloat → Prop
  | infinity (sign : Sign) : IsNumber format (.infinity sign)
  | finite {sign : Sign} {u : UnpackedFloat} (h : Canonical format sign u) : IsNumber format u

theorem Canonical.value_eq (h : Canonical format sign u) : value u = ((signed sign (size u) : ℚ) : ℝ) := by
  match u, h with
  | .zero _, _ => simp [value]
  | .finite .., ⟨rfl, _⟩ => rfl

theorem value_neg (u : UnpackedFloat) : value u.neg = -value u := by
  match u with
  | .notANumber => simp [value, UnpackedFloat.neg]
  | .infinity .positive => rfl
  | .infinity .negative => rfl
  | .zero _ => simp [value, UnpackedFloat.neg]
  | .finite s m e hm =>
    have hsize : size (.finite (-s) m e hm) = size (.finite s m e hm) := rfl
    simp only [value, UnpackedFloat.neg, hsize, signed_neg]
    push_cast
    rfl

/-- What is taken out of bits is a number, or no number at all. -/
theorem isNumber_unpack {bits : BitVec format.numBits} (h : (unpack format bits).isNaN = false) :
    IsNumber format (unpack format bits) := by
  cases hu : unpack format bits with
  | notANumber =>
    rw [hu] at h
    cases h
  | infinity s => exact .infinity s
  | _ =>
    obtain ⟨sign, hsign⟩ := exists_canonical_unpack bits (by rw [hu]; rfl)
    rw [hu] at hsign
    exact .finite hsign

/-- The negative of a number that is held in bits is held in bits too. -/
theorem unpack_pack_neg {bits : BitVec format.numBits} (hbits : 2 ≤ format.exponentBits)
    (h : (unpack format bits).isNaN = false) :
    unpack format (pack format (unpack format bits).neg) = (unpack format bits).neg := by
  cases hu : unpack format bits with
  | notANumber =>
    rw [hu] at h
    cases h
  | infinity s => exact unpack_packedInfinity
  | zero s => exact unpack_packedZero
  | finite s m e hm =>
    obtain ⟨sign, hsign⟩ := exists_canonical_unpack bits (by rw [hu]; rfl)
    rw [hu] at hsign
    obtain rfl : s = sign := hsign.1
    exact unpack_pack_of_exponent_le hsign.neg (exponent_le_of_unpack hbits hu)

/-! ### Comparing -/

private theorem Canonical.compare_infinity (h : Canonical format sign u) (s : Sign) :
    (UnpackedFloat.infinity s).compare u = some (cmp (value (.infinity s)) (value u)) ∧
      u.compare (.infinity s) = some (cmp (value u) (value (.infinity s))) := by
  have htop : value u < ⊤ := h.value_eq ▸ EReal.coe_lt_top _
  have hbot : ⊥ < value u := h.value_eq ▸ EReal.bot_lt_coe _
  have hinfinite : (UnpackedFloat.infinity s).compare u = some (if s == .positive then .gt else .lt) ∧
      u.compare (.infinity s) = some (if s == .positive then .lt else .gt) := by
    match u, h with
    | .zero _, _ => cases s <;> exact ⟨rfl, rfl⟩
    | .finite s' _ _ _, _ => cases s <;> cases s' <;> exact ⟨rfl, rfl⟩
  rw [hinfinite.1, hinfinite.2]
  cases s with
  | positive =>
    exact ⟨congrArg some ((cmp_eq_gt_iff _ _).2 htop).symm, congrArg some ((cmp_eq_lt_iff _ _).2 htop).symm⟩
  | negative =>
    exact ⟨congrArg some ((cmp_eq_lt_iff _ _).2 hbot).symm, congrArg some ((cmp_eq_gt_iff _ _).2 hbot).symm⟩

/-- Numbers are compared as their values are. -/
theorem IsNumber.compare_eq (hu : IsNumber format u) (hv : IsNumber format v) :
    u.compare v = some (cmp (value u) (value v)) := by
  cases hu with
  | infinity s =>
    cases hv with
    | infinity s' =>
      have hlt : (⊥ : EReal) < ⊤ := bot_lt_top
      cases s <;> cases s'
      · exact congrArg some (cmp_self_eq_eq _).symm
      · exact congrArg some ((cmp_eq_lt_iff _ _).2 hlt).symm
      · exact congrArg some ((cmp_eq_gt_iff _ _).2 hlt).symm
      · exact congrArg some (cmp_self_eq_eq _).symm
    | finite hv => exact (hv.compare_infinity s).1
  | finite hu =>
    cases hv with
    | infinity s => exact (hu.compare_infinity s).2
    | finite hv =>
      have hcoe : StrictMono fun x : ℚ => ((x : ℝ) : EReal) := fun _ _ h => EReal.coe_lt_coe_iff.2 (Rat.cast_lt.2 h)
      rw [hu.compare_eq hv, hu.value_eq, hv.value_eq]
      exact congrArg some (hcoe.cmp_map_eq _ _).symm

/-- What is not larger than something is a number, and so is the other one. -/
theorem isNaN_of_le (h : u.le v = true) : u.isNaN = false ∧ v.isNaN = false := by
  match u, v, h with
  | .infinity _, .infinity _, _ | .infinity _, .zero _, _ | .infinity _, .finite .., _ => exact ⟨rfl, rfl⟩
  | .zero _, .infinity _, _ | .zero _, .zero _, _ | .zero _, .finite .., _ => exact ⟨rfl, rfl⟩
  | .finite .., .infinity _, _ | .finite .., .zero _, _ | .finite .., .finite .., _ => exact ⟨rfl, rfl⟩

theorem IsNumber.lt_iff (hu : IsNumber format u) (hv : IsNumber format v) : u.lt v = true ↔ value u < value v :=
  lt_iff_of_compare_eq (hu.compare_eq hv)

theorem IsNumber.le_iff (hu : IsNumber format u) (hv : IsNumber format v) : u.le v = true ↔ value u ≤ value v :=
  le_iff_of_compare_eq (hu.compare_eq hv)

/-- A number between minus one and one is finite. -/
theorem IsNumber.exists_below_one (h : IsNumber format u) (hlow : -1 ≤ value u) (hhigh : value u ≤ 1) :
    ∃ s, Below format s 0 u := by
  cases h with
  | infinity s =>
    cases s with
    | positive => exact absurd hhigh (not_le.2 (EReal.coe_lt_top 1))
    | negative => exact absurd hlow (not_le.2 (EReal.bot_lt_coe (-1)))
  | finite h =>
    rw [h.value_eq] at hlow hhigh
    rw [← EReal.coe_one, ← EReal.coe_neg, EReal.coe_le_coe_iff] at hlow
    have habs : |signed _ (size u)| ≤ 1 := abs_le.2 ⟨by exact_mod_cast hlow, by exact_mod_cast hhigh⟩
    rw [abs_signed, abs_of_nonneg (size_nonneg u)] at habs
    exact ⟨_, h, by rwa [pow_zero]⟩

end

/-! ### Comparing in the two precisions -/

theorem float_lt_iff {x y : Float} : x < y ↔ x.toModel.unpack.lt y.toModel.unpack = true :=
  decide_eq_true_iff

theorem float32_le_iff {x y : Float32} : x ≤ y ↔ x.toModel.unpack.le y.toModel.unpack = true :=
  decide_eq_true_iff

end Ostinato.Numeric
