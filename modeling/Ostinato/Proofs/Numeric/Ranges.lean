import Mathlib
import Ostinato.Proofs.Numeric.Bounds
import Ostinato.Proofs.Numeric.Series

/-!
# Ranges of the elementary functions

The functions that are rounded from enclosures have values of the sizes that their series allow: sines are at most two
(`exists_double_sine`), exponentials of negative numbers at most four (`exists_double_exponential`) and hyperbolic
tangents at most one (`exists_single_tanhSingle`).  The first two bounds could be better; the last one is sharp.
-/

namespace Ostinato.Numeric

open Float.Model (UnpackedFloat Format)
open Float.Model.UnpackedFloat

/-! ### Enclosures -/

section

variable {format : Format} {k : ℕ}

/-- What an enclosure is rounded to is the lower end of one of the enclosures that were tried. -/
private theorem exists_roundRefined (format : Format) (enclose : ℕ → Enclosure) {precisions : List ℕ}
    (h : precisions ≠ []) :
    ∃ p, roundRefined format enclose precisions =
      roundDyadic format (enclose p).sign (enclose p).lower (enclose p).exponent := by
  have hround : ∀ (b : Enclosure) (other : UnpackedFloat),
      (b.round? format).getD other = roundDyadic format b.sign b.lower b.exponent ∨
        (b.round? format).getD other = other := by
    intro b other
    rw [Enclosure.round?]
    split
    · exact .inl rfl
    · exact .inr rfl
  induction precisions with
  | nil => exact absurd rfl h
  | cons p finer ih =>
    cases finer with
    | nil => exact ⟨p, (hround (enclose p) _).elim id id⟩
    | cons p' finer =>
      rcases hround (enclose p) (roundRefined format enclose (p' :: finer)) with hfound | hlater
      · exact ⟨p, hfound⟩
      · obtain ⟨q, hq⟩ := ih (List.cons_ne_nil _ _)
        exact ⟨q, hlater.trans hq⟩

/-- A bound on the lower ends of all enclosures is a bound on what they are rounded to. -/
private theorem exists_below_roundRefined (format : Format) (enclose : ℕ → Enclosure) {precisions : List ℕ}
    (h : precisions ≠ []) (hlower : ∀ p, ((enclose p).lower : ℚ) * 2 ^ (enclose p).exponent ≤ 2 ^ k) :
    ∃ s, Below format s k (roundRefined format enclose precisions) := by
  obtain ⟨p, hp⟩ := exists_roundRefined format enclose h
  rw [hp]
  exact ⟨_, (nearest_roundDyadic format _ _ _).below (hlower p)⟩

/-- The size that a scaled number stands for, if its exponent takes at least the scale away. -/
private theorem lower_around_le {value p : ℕ} {e : ℤ} (sign : Sign) (h : value ≤ 2 ^ k * unit p) (he : e ≤ -p) :
    ((around sign value e).lower : ℚ) * 2 ^ (around sign value e).exponent ≤ 2 ^ k := by
  have hvalue : ((value - slack : ℕ) : ℚ) ≤ 2 ^ k * 2 ^ p := by
    rw [unit_eq] at h
    exact_mod_cast (Nat.sub_le _ _).trans h
  calc ((value - slack : ℕ) : ℚ) * 2 ^ e
    _ ≤ 2 ^ k * 2 ^ p * 2 ^ (-(p : ℤ)) :=
      mul_le_mul hvalue (zpow_le_zpow_right₀ one_le_two he) (by positivity) (by positivity)
    _ = 2 ^ k := by
      rw [zpow_neg, zpow_natCast, mul_assoc, mul_inv_cancel₀ (by positivity), mul_one]

end

private theorem doublePrecisions_ne_nil : doublePrecisions ≠ [] :=
  List.cons_ne_nil _ _

private theorem singlePrecisions_ne_nil : singlePrecisions ≠ [] :=
  List.cons_ne_nil _ _

/-! ### Sine -/

private theorem lower_encloseSine_le (sign : Sign) (m : ℕ) (e : ℤ) (extra : ℕ) :
    ((encloseSine sign m e extra).lower : ℚ) * 2 ^ (encloseSine sign m e extra).exponent ≤ 2 ^ 1 := by
  simp only [encloseSine]
  exact lower_around_le _ (by simpa using Turn.sine_le (Turn.rest_ofAngle_le m e _)) le_rfl

theorem exists_double_sine {x : Float} (h : x.isFinite = true) : ∃ s, Double s 1 (sine x) := by
  have hfinite : x.toModel.unpack.isFinite = true := h
  rw [sine]
  split
  · rename_i sign m e hm _
    obtain ⟨s, hs⟩ := exists_below_roundRefined .binary64 (encloseSine sign m e) doublePrecisions_ne_nil
      (lower_encloseSine_le sign m e)
    exact ⟨s, double_pack hs (by decide)⟩
  · rename_i s hzero
    refine ⟨s, ?_⟩
    rw [Double, hzero]
    exact below_zero
  · rename_i hnone hnot
    cases hu : x.toModel.unpack with
    | finite sign m e hm => exact absurd hu (hnone sign m e hm)
    | zero s => exact absurd hu (hnot s)
    | infinity s => rw [hu] at hfinite; cases hfinite
    | notANumber => rw [hu] at hfinite; cases hfinite

/-! ### Exponential -/

/-- A negative argument is a negative number of whole multiples of a constant and a rest below the constant. -/
private theorem octaves_of_negative (argument ln2 : ℕ) :
    (-(argument : ℤ)).fdiv ln2 ≤ 0 ∧ (-(argument : ℤ) - (-(argument : ℤ)).fdiv ln2 * ln2).toNat ≤ ln2 := by
  rw [Int.fdiv_eq_ediv_of_nonneg _ (Int.natCast_nonneg ln2)]
  rcases Nat.eq_zero_or_pos ln2 with rfl | hpos
  · simp
  · have hpos' : (0 : ℤ) < ln2 := by exact_mod_cast hpos
    have hrest := Int.emod_lt_of_pos (-(argument : ℤ)) hpos'
    rw [Int.emod_def, mul_comm] at hrest
    refine ⟨?_, by omega⟩
    have hnonpos : -(argument : ℤ) / ln2 ≤ 0 / ln2 := Int.ediv_le_ediv hpos' (by omega)
    rwa [Int.zero_ediv] at hnonpos

private theorem lower_encloseExp_le (m : ℕ) (e : ℤ) (p : ℕ) :
    ((encloseExp .negative m e p).lower : ℚ) * 2 ^ (encloseExp .negative m e p).exponent ≤ 2 ^ 2 := by
  obtain ⟨hoctaves, hrest⟩ := octaves_of_negative (scale m e (p + 16)) (ln2Scaled (p + 16))
  have hargument : ∀ rest, rest ≤ ln2Scaled (p + 16) → rest >>> 16 ≤ unit p := by
    intro rest hle
    rw [Nat.shiftRight_eq_div_pow]
    refine Nat.div_le_of_le_mul ((hle.trans (ln2Scaled_le _)).trans_eq ?_)
    rw [unit_add, Nat.mul_comm]
  exact lower_around_le _ (expScaled_le (hargument _ hrest)) ((sub_le_sub_right hoctaves _).trans_eq (zero_sub _))

theorem exists_double_exponential {k : ℕ} {x : Float} (h : Double .negative k x) :
    ∃ s, Double s 2 (exponential x) := by
  rw [exponential]
  have hcanonical := h.canonical
  split
  · rename_i sign m e hm hu
    rw [hu] at hcanonical
    obtain rfl : sign = .negative := hcanonical.1
    split
    · obtain ⟨s, hs⟩ := exists_below_roundRefined .binary64 (encloseExp .negative m e) doublePrecisions_ne_nil
        (lower_encloseExp_le m e)
      exact ⟨s, double_pack hs (by decide)⟩
    · exact ⟨.positive, double_pack below_zero (by decide)⟩
  · exact ⟨.positive, double_of_isBelow (by decide)⟩
  all_goals
    rename_i hu
    rw [hu] at hcanonical
    cases hcanonical

/-! ### Hyperbolic tangent -/

private theorem lower_encloseTanh_le (sign : Sign) (m : ℕ) (e : ℤ) (extra : ℕ) :
    ((encloseTanh sign m e extra).lower : ℚ) * 2 ^ (encloseTanh sign m e extra).exponent ≤ 2 ^ 0 := by
  have hquotient : ∀ p minusOne : ℕ, (minusOne <<< p) / (minusOne + 2 * unit p) ≤ 2 ^ 0 * unit p := by
    intro p minusOne
    rw [Nat.shiftLeft_eq, unit_eq, pow_zero, Nat.one_mul]
    refine Nat.div_le_of_le_mul (Nat.mul_le_mul_right _ (Nat.le_add_right _ _))
  exact lower_around_le _ (hquotient _ _) le_rfl

/-- The hyperbolic tangent of a number is at most one, also that of an infinite number. -/
theorem exists_single_tanhSingle {x : Float32} (h : x.isNaN = false) : ∃ s, Single s 0 (tanhSingle x) := by
  have hnumber : x.toModel.unpack.isNaN = false := h
  have hone : Single .positive 0 1.0 := single_of_isBelow (by decide)
  rw [tanhSingle]
  split
  · rename_i sign m e hm _
    split
    · obtain ⟨s, hs⟩ := exists_below_roundRefined .binary32 (encloseTanh sign m e) singlePrecisions_ne_nil
        (lower_encloseTanh_le sign m e)
      exact ⟨s, single_pack hs (by decide)⟩
    · split
      · exact ⟨_, hone.neg (by decide)⟩
      · exact ⟨_, hone⟩
  · rename_i s hzero
    refine ⟨s, ?_⟩
    rw [Single, hzero]
    exact below_zero
  · exact ⟨_, hone.neg (by decide)⟩
  · exact ⟨_, hone⟩
  · rename_i hu
    rw [hu] at hnumber
    cases hnumber

end Ostinato.Numeric
