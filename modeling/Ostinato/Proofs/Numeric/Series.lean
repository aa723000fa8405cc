import Mathlib
import Ostinato.Numeric.Elementary

/-!
# Bounds on the fixed point series

How large the constants and the functions on scaled numbers can be.  The terms of each series fall at least by a fixed
factor, so that the terms behind one of them are together at most a fixed part of it.  The bounds hold at every
precision; they are far from sharp, but enough for a function that is made of the series to stay within its range.

* `piScaled_bounds`, `ln2Scaled_le`: the constants.
* `sinScaled_le`, `cosScaled_le`, `expScaled_le`: the functions on `[0, 1]`.
* `Turn.rest_ofAngle_le`: the rest of an angle after whole quarter turns.
-/

namespace Ostinato.Numeric

variable {p x : ℕ}

theorem unit_eq (p : ℕ) : unit p = 2 ^ p :=
  Nat.one_shiftLeft p

private theorem unit_pos (p : ℕ) : 0 < unit p := by
  rw [unit_eq]
  exact Nat.two_pow_pos p

theorem unit_add (p k : ℕ) : unit (p + k) = unit p * 2 ^ k := by
  rw [unit_eq, unit_eq, pow_add]

/-! ### Constants -/

/-- The terms of the series of a reciprocal are together at most `n² / (n² - 1)` times the first of them. -/
private theorem natAbs_reciprocalSeries_le {n : ℕ} (hn : 1 ≤ n) (flip : ℤ) (hflip : flip.natAbs = 1) (fuel power d : ℕ)
    (sign : ℤ) (hsign : sign.natAbs = 1) (sum : ℤ) :
    (n * n - 1) * (reciprocalSeries n flip fuel power d sign sum - sum).natAbs ≤ n * n * power := by
  induction fuel generalizing power d sign sum with
  | zero => simp [reciprocalSeries]
  | succ fuel ih =>
    rw [reciprocalSeries]
    split
    · simp
    · have hrest := ih (power / (n * n)) (d + 2) (sign * flip) (by rw [Int.natAbs_mul, hsign, hflip])
        (sum + sign * (power / d : ℕ))
      have hterm : (sign * (power / d : ℕ)).natAbs ≤ power := by
        rw [Int.natAbs_mul, hsign, Nat.one_mul, Int.natAbs_natCast]
        exact Nat.div_le_self power d
      have hsquare : 1 ≤ n * n := Nat.mul_pos hn hn
      generalize reciprocalSeries n flip fuel (power / (n * n)) (d + 2) (sign * flip) (sum + sign * (power / d : ℕ)) =
        value at hrest ⊢
      generalize sign * ((power / d : ℕ) : ℤ) = term at hrest hterm
      have htriangle : (value - sum).natAbs ≤ (value - (sum + term)).natAbs + power := by omega
      calc (n * n - 1) * (value - sum).natAbs
        _ ≤ (n * n - 1) * ((value - (sum + term)).natAbs + power) := Nat.mul_le_mul_left _ htriangle
        _ = (n * n - 1) * (value - (sum + term)).natAbs + (n * n - 1) * power := Nat.mul_add ..
        _ ≤ power + (n * n - 1) * power := by
          exact Nat.add_le_add_right (hrest.trans (Nat.mul_div_le power (n * n))) _
        _ = n * n * power := by
          rw [Nat.add_comm, ← Nat.succ_mul, Nat.succ_eq_add_one, Nat.sub_add_cancel hsquare]

/-- The series of a reciprocal differs from its first term by at most `1 / (n² - 1)` of it. -/
private theorem natAbs_reciprocalSeries_sub_le {n : ℕ} (hn : 2 ≤ n) (flip : ℤ) (hflip : flip.natAbs = 1) (p : ℕ) :
    (n * n - 1) * (reciprocalSeries n flip p (unit p / n) 1 1 0 - (unit p / n : ℕ)).natAbs ≤ unit p / n := by
  cases p with
  | zero =>
    have hzero : unit 0 / n = 0 := Nat.div_eq_of_lt hn
    simp [reciprocalSeries, hzero]
  | succ p =>
    rw [reciprocalSeries]
    split
    · rename_i hzero
      simp [hzero]
    · have hrest := natAbs_reciprocalSeries_le (n := n) (by omega) flip hflip p (unit (p + 1) / n / (n * n)) (1 + 2)
        (1 * flip) (by rw [Int.one_mul, hflip]) (0 + 1 * (unit (p + 1) / n / 1 : ℕ))
      rw [Nat.div_one, Int.one_mul, Int.zero_add, Int.one_mul] at hrest ⊢
      exact hrest.trans (Nat.mul_div_le _ _)

private theorem computePi_bounds (p : ℕ) : 2 * unit p ≤ computePi p ∧ computePi p ≤ 4 * unit p := by
  have hfive := natAbs_reciprocalSeries_sub_le (n := 5) (by decide) (-1) rfl (p + 24)
  have hmany := natAbs_reciprocalSeries_sub_le (n := 239) (by decide) (-1) rfl (p + 24)
  have hpos := unit_pos p
  rw [computePi, arctanReciprocal, arctanReciprocal, Nat.shiftRight_eq_div_pow]
  rw [unit_add] at hfive hmany ⊢
  omega

private theorem computeLn2_le (p : ℕ) : computeLn2 p ≤ unit p := by
  have hthree := natAbs_reciprocalSeries_sub_le (n := 3) (by decide) 1 rfl (p + 24)
  have hpos := unit_pos p
  rw [computeLn2, artanhReciprocal, Nat.shiftRight_eq_div_pow]
  rw [unit_add] at hthree ⊢
  omega

private theorem unit_eq_mul {p q : ℕ} (h : p ≤ q) : unit q = unit p * 2 ^ (q - p) := by
  rw [← unit_add, Nat.add_sub_cancel' h]

theorem piScaled_bounds (p : ℕ) : 2 * unit p ≤ piScaled p ∧ piScaled p ≤ 4 * unit p := by
  rw [piScaled]
  split
  · rename_i hp
    obtain ⟨hlow, hhigh⟩ := computePi_bounds keptBits
    have hpos := Nat.two_pow_pos (keptBits - p)
    rw [unit_eq_mul hp, ← Nat.mul_assoc] at hlow hhigh
    rw [keptPi, Nat.shiftRight_eq_div_pow]
    exact ⟨(Nat.le_div_iff_mul_le hpos).2 hlow, Nat.div_le_of_le_mul (hhigh.trans_eq (Nat.mul_comm ..))⟩
  · exact computePi_bounds p

theorem ln2Scaled_le (p : ℕ) : ln2Scaled p ≤ unit p := by
  rw [ln2Scaled]
  split
  · rename_i hp
    have hhigh := computeLn2_le keptBits
    rw [unit_eq_mul hp] at hhigh
    rw [keptLn2, Nat.shiftRight_eq_div_pow]
    exact Nat.div_le_of_le_mul (hhigh.trans_eq (Nat.mul_comm ..))
  · exact computeLn2_le p

/-! ### Sine and cosine -/

private theorem mul_shiftRight_le {a b : ℕ} (h : b ≤ unit p) : (a * b) >>> p ≤ a := by
  rw [Nat.shiftRight_eq_div_pow]
  rw [unit_eq] at h
  exact Nat.div_le_of_le_mul ((Nat.mul_le_mul_left a h).trans_eq (Nat.mul_comm ..))

/-- For arguments in `[0, 1]`, the terms behind one of them are together at most as large as it. -/
private theorem natAbs_alternatingSeries_le (hx : x ≤ unit p) (fuel term d : ℕ) (sign : ℤ) (hd : 1 ≤ d)
    (hsign : sign.natAbs = 1) (sum : ℤ) :
    (alternatingSeries p x fuel term d sign sum - sum).natAbs ≤ term := by
  induction fuel generalizing term d sign sum with
  | zero => simp [alternatingSeries]
  | succ fuel ih =>
    simp only [alternatingSeries]
    have hhalf : (term * x) >>> p / (d * (d + 1)) ≤ term / 2 := by
      refine (Nat.div_le_div_left (c := 2) ?_ two_pos).trans (Nat.div_le_div_right (mul_shiftRight_le hx))
      exact Nat.mul_le_mul hd (Nat.succ_le_succ hd)
    generalize (term * x) >>> p / (d * (d + 1)) = next at hhalf ⊢
    split
    · simp
    · have hrest := ih next (d + 2) (-sign) (by omega) (by omega) (sum + sign * next)
      have hterm : (sign * (next : ℤ)).natAbs = next := by
        rw [Int.natAbs_mul, hsign, Nat.one_mul, Int.natAbs_natCast]
      generalize alternatingSeries p x fuel next (d + 2) (-sign) (sum + sign * next) = value at hrest ⊢
      generalize sign * (next : ℤ) = signed at hrest hterm
      omega

theorem sinScaled_le (hx : x ≤ unit p) : sinScaled p x ≤ 2 * unit p := by
  have hsquare : (x * x) >>> p ≤ unit p := (mul_shiftRight_le hx).trans hx
  have hseries := natAbs_alternatingSeries_le hsquare p x 2 (-1) (by decide) rfl x
  rw [sinScaled]
  omega

theorem cosScaled_le (hx : x ≤ unit p) : cosScaled p x ≤ 2 * unit p := by
  have hsquare : (x * x) >>> p ≤ unit p := (mul_shiftRight_le hx).trans hx
  have hseries := natAbs_alternatingSeries_le hsquare p (unit p) 1 (-1) (by decide) rfl (unit p)
  rw [cosScaled]
  omega

/-- An angle is at most one after the nearest whole number of quarter turns. -/
theorem Turn.rest_ofAngle_le (mantissa : ℕ) (exponent : ℤ) (p : ℕ) :
    (Turn.ofAngle mantissa exponent p).rest ≤ unit p := by
  simp only [Turn.ofAngle]
  generalize (leadingBit mantissa exponent).toNat + 8 = guard
  generalize scale mantissa exponent (p + guard) = angle
  obtain ⟨hlow, hhigh⟩ := piScaled_bounds (p + guard)
  obtain ⟨quarter, hquarter⟩ : ∃ quarter, quarter = piScaled (p + guard) / 2 := ⟨_, rfl⟩
  have hpos : 0 < 2 * quarter := by
    have := unit_pos (p + guard)
    omega
  rw [← hquarter]
  obtain ⟨quarters, hquarters⟩ : ∃ quarters, quarters = (2 * angle + quarter) / (2 * quarter) := ⟨_, rfl⟩
  have hdown := Nat.div_mul_le_self (2 * angle + quarter) (2 * quarter)
  have hup := Nat.lt_div_mul_add hpos (a := 2 * angle + quarter)
  rw [← hquarters] at hdown hup ⊢
  have hwhole : quarters * (2 * quarter) = 2 * (quarters * quarter) := by ring
  rw [hwhole] at hdown hup
  have hbound : quarter ≤ 2 * (unit p * 2 ^ guard) := by
    rw [← unit_add]
    omega
  have hshift : ∀ rest, 2 * rest ≤ quarter → rest >>> guard ≤ unit p := fun rest hrest => by
    rw [Nat.shiftRight_eq_div_pow]
    exact Nat.div_le_of_le_mul (by rw [Nat.mul_comm]; omega)
  split <;> exact hshift _ (by omega)

theorem Turn.sine_le {t : Turn} (h : t.rest ≤ unit p) : (t.sine p).2 ≤ 2 * unit p := by
  rw [Turn.sine]
  split
  · exact sinScaled_le h
  · exact cosScaled_le h
  · exact sinScaled_le h
  · exact cosScaled_le h

/-! ### Exponential -/

/-- For arguments of at most a quarter, the next term and those behind it are together at most a third more than it. -/
private theorem exponentialSeries_le (hx : 4 * x ≤ unit p) (fuel term d sum : ℕ) (hd : 1 ≤ d) :
    3 * exponentialSeries p x fuel term d sum ≤ 3 * sum + 4 * ((term * x) >>> p) := by
  induction fuel generalizing term d sum with
  | zero => simp [exponentialSeries]
  | succ fuel ih =>
    simp only [exponentialSeries]
    have hnext : (term * x) >>> p / d ≤ (term * x) >>> p := Nat.div_le_self _ _
    generalize (term * x) >>> p / d = next at hnext ⊢
    split
    · omega
    · have hrest := ih next (d + 1) (sum + next) (by omega)
      have hquarter : 4 * ((next * x) >>> p) ≤ next := by
        rw [Nat.shiftRight_eq_div_pow]
        rw [unit_eq] at hx
        have hproduct : 4 * (next * x) ≤ next * 2 ^ p := by
          calc 4 * (next * x)
            _ = next * (4 * x) := by ring
            _ ≤ next * 2 ^ p := Nat.mul_le_mul_left next hx
        have hdiv := Nat.div_mul_le_self (next * x) (2 ^ p)
        have hpos := Nat.two_pow_pos p
        refine Nat.le_of_mul_le_mul_right ?_ hpos
        calc 4 * (next * x / 2 ^ p) * 2 ^ p
          _ = 4 * (next * x / 2 ^ p * 2 ^ p) := by ring
          _ ≤ 4 * (next * x) := Nat.mul_le_mul_left 4 hdiv
          _ ≤ next * 2 ^ p := hproduct
      omega

/-- Squaring a scaled number squares a bound on it. -/
private theorem squareScaled_le {a b : ℕ} (count : ℕ) (h : a * x ≤ b * unit p) :
    a ^ 2 ^ count * squareScaled p count x ≤ b ^ 2 ^ count * unit p := by
  induction count generalizing a b x with
  | zero => simpa [squareScaled] using h
  | succ count ih =>
    rw [squareScaled, pow_succ', pow_mul, pow_mul]
    refine ih ?_
    rw [Nat.shiftRight_eq_div_pow]
    rw [unit_eq] at h ⊢
    refine Nat.le_of_mul_le_mul_right ?_ (Nat.two_pow_pos p)
    calc a ^ 2 * (x * x / 2 ^ p) * 2 ^ p
      _ = a ^ 2 * (x * x / 2 ^ p * 2 ^ p) := by ring
      _ ≤ a ^ 2 * (x * x) := Nat.mul_le_mul_left _ (Nat.div_mul_le_self _ _)
      _ = (a * x) * (a * x) := by ring
      _ ≤ (b * 2 ^ p) * (b * 2 ^ p) := Nat.mul_le_mul h h
      _ = b ^ 2 * 2 ^ p * 2 ^ p := by ring

theorem expScaled_le (hx : x ≤ unit p) : expScaled p x ≤ 4 * unit p := by
  simp only [expScaled, halvings]
  have hunit : unit (p + 2 * 8) = unit p * 65536 := unit_add p 16
  have hshift : x <<< 8 = x * 256 := Nat.shiftLeft_eq x 8
  have hcancel : (unit (p + 2 * 8) * (x <<< 8)) >>> (p + 2 * 8) = x <<< 8 := by
    rw [Nat.shiftRight_eq_div_pow, unit_eq, Nat.mul_div_cancel_left _ (Nat.two_pow_pos _)]
  have hseries := exponentialSeries_le (p := p + 2 * 8) (x := x <<< 8) (by omega) (p + 2 * 8) (unit (p + 2 * 8)) 1
    (unit (p + 2 * 8)) le_rfl
  rw [hcancel] at hseries
  generalize exponentialSeries (p + 2 * 8) (x <<< 8) (p + 2 * 8) (unit (p + 2 * 8)) 1 (unit (p + 2 * 8)) = root
    at hseries ⊢
  have hsquare := squareScaled_le (p := p + 2 * 8) (x := root) (a := 192) (b := 193) 8 (by omega)
  have hpower : 193 ^ 2 ^ 8 ≤ 4 * 192 ^ 2 ^ 8 := by norm_num
  have hroot : squareScaled (p + 2 * 8) 8 root ≤ 4 * unit (p + 2 * 8) := by
    refine Nat.le_of_mul_le_mul_left ?_ (show 0 < 192 ^ 2 ^ 8 by positivity)
    refine hsquare.trans ((Nat.mul_le_mul_right _ hpower).trans_eq ?_)
    ring
  rw [Nat.shiftRight_eq_div_pow]
  omega

end Ostinato.Numeric
