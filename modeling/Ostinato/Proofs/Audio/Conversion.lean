import Mathlib
import Ostinato.Proofs.Audio.Loudness
import Ostinato.Proofs.Numeric.Order
import Ostinato.Proofs.Numeric.Wholes

/-!
# Rounding ticks down to samples

A duration is divided by the ticks of a second before it is multiplied by the samples of a second, and both results are
rounded to nearest, so the number of samples is not always the exact one, rounded down.  It is unless the product comes
to lie on the other side of a whole number: one sample is missing if the duration lasts a whole number of samples and
the rounded product falls short of it, and there is one too many if the duration lasts a little less than a whole number
and the product reaches it (`Timebase.samplesFor_rounding`).

* `Timebase.parts`: the exact length of a duration.
* `Timebase.FallsShort`, `Timebase.GoesPast`: the two ways in which the number of samples is not the exact one.
* `Timebase.le_samplesFor_iff`: which numbers of samples a duration is given at least.
-/

namespace Ostinato

open Numeric
open Float.Model (UnpackedFloat)

namespace Timebase

variable {timebase : Timebase} {duration : Int64}

/-- The exact length of a duration in parts of a sample, of which 960 are one sample. -/
def parts (timebase : Timebase) (duration : Int64) : Nat :=
  duration.toInt.toNat * timebase.sampleRate.toNat

/-- The length of a duration in seconds, after rounding. -/
def roundedSeconds (duration : Int64) : ℚ :=
  size (ofInt64 duration / ticksPerSecond).toModel.unpack

/-- The duration lasts a whole number of samples, and the rounded seconds make less than that number by more than half a
step. -/
def FallsShort (timebase : Timebase) (duration : Int64) : Prop :=
  960 ∣ timebase.parts duration ∧
    roundedSeconds duration * timebase.sampleRate.toNat <
      (timebase.parts duration / 960 : ℕ) - halfStep (timebase.parts duration / 960)

/-- The duration lasts one part less than a whole number of samples, and the rounded seconds make at most half a step
less than that number. -/
def GoesPast (timebase : Timebase) (duration : Int64) : Prop :=
  960 ∣ timebase.parts duration + 1 ∧
    ((timebase.parts duration + 1) / 960 : ℕ) - halfStep ((timebase.parts duration + 1) / 960) ≤
      roundedSeconds duration * timebase.sampleRate.toNat

/-! ### The two operations -/

private theorem ofInt64_of_nonneg (h : 0 ≤ duration) : ofInt64 duration = .ofModel (.ofNat duration.toInt.toNat) := by
  have hcast : (duration.toInt.toNat : ℤ) = duration.toInt := Int.toNat_of_nonneg (Int64.le_iff_toInt_le.1 h)
  show Float.ofModel (.pack (UnpackedFloat.normalize .binary64 duration.toInt 0 .positive)) = _
  rw [← hcast]
  rfl

private theorem toNat_toUInt64 (h : 0 ≤ duration) : duration.toUInt64.toNat = duration.toInt.toNat := by
  have hcond : duration.toInt = _ := BitVec.toInt_eq_toNat_cond duration.toBitVec
  have hnonneg : 0 ≤ duration.toInt := Int64.le_iff_toInt_le.1 h
  have hlt := UInt64.toNat_lt duration.toUInt64
  have hbits : duration.toBitVec.toNat = duration.toUInt64.toNat := rfl
  rw [hbits] at hcond
  split at hcond <;> omega

private theorem toFloat_toUInt64 (h : 0 ≤ duration) : duration.toUInt64.toFloat = ofInt64 duration := by
  rw [ofInt64_of_nonneg h, ← toNat_toUInt64 h]
  rfl

private theorem size_rate (timebase : Timebase) : size timebase.rate.toModel.unpack = timebase.sampleRate.toNat :=
  size_ofNat ((UInt32.toNat_lt timebase.sampleRate).le.trans (by decide))

private theorem double_duration (h : 0 ≤ duration) : Double .positive 64 (ofInt64 duration) := by
  rw [← toFloat_toUInt64 h]
  exact double_toFloat _

private theorem double_seconds_of_nonneg (h : 0 ≤ duration) : Double .positive 64 (ofInt64 duration / ticksPerSecond) :=
  (double_duration h).div double_ticksPerSecond one_le_size_ticksPerSecond (by decide)

/-- The seconds are the nearest ones to the exact quotient. -/
private theorem nearest_seconds (h : 0 ≤ duration) (hsmall : duration.toInt.toNat ≤ 2 ^ 53) :
    Nearest .binary64 .positive (duration.toInt.toNat / 960 : ℚ)
      (ofInt64 duration / ticksPerSecond).toModel.unpack := by
  have hticks : size ticksPerSecond.toModel.unpack = 960 := by
    rw [ticksPerSecond_eq]
    exact_mod_cast size_ofNat (by decide)
  have hduration : size (ofInt64 duration).toModel.unpack = duration.toInt.toNat := by
    rw [ofInt64_of_nonneg h]
    exact size_ofNat hsmall
  rw [(double_duration h).unpack_div double_ticksPerSecond one_le_size_ticksPerSecond (by decide), ← hticks,
    ← hduration]
  exact nearest_div (double_duration h).canonical double_ticksPerSecond.canonical (by rw [hticks]; norm_num)

/-- The product is the nearest one to the product of the rounded seconds and the rate. -/
private theorem nearest_samples (h : 0 ≤ duration) :
    Nearest .binary64 .positive (roundedSeconds duration * timebase.sampleRate.toNat)
      (ofInt64 duration / ticksPerSecond * timebase.rate).toModel.unpack := by
  rw [(double_seconds_of_nonneg h).unpack_mul (double_rate timebase) (by decide), roundedSeconds, ← size_rate]
  exact nearest_mul (double_seconds_of_nonneg h).canonical (double_rate timebase).canonical

/-! ### The error of the seconds -/

private theorem roundedSeconds_nonneg (duration : Int64) : 0 ≤ roundedSeconds duration :=
  size_nonneg _

/-- A duration of a positive rate is not too large to be held exactly. -/
private theorem toNat_le_of_parts_lt (hrate : timebase.sampleRate.toNat ≠ 0)
    (hsmall : timebase.parts duration < 2 ^ 53) : duration.toInt.toNat ≤ 2 ^ 53 :=
  (Nat.le_mul_of_pos_right _ (Nat.pos_of_ne_zero hrate)).trans hsmall.le

private theorem cast_parts_div (timebase : Timebase) (duration : Int64) :
    (timebase.parts duration : ℚ) / 960 = duration.toInt.toNat / 960 * timebase.sampleRate.toNat := by
  rw [parts]
  push_cast
  ring

/-- The rounded seconds make less than one part more or less than the exact length. -/
private theorem abs_roundedSeconds_mul_sub_le (h : 0 ≤ duration) (hsmall : timebase.parts duration < 2 ^ 53) :
    |roundedSeconds duration * timebase.sampleRate.toNat - timebase.parts duration / 960| ≤
      timebase.parts duration / 960 / 2 ^ 53 := by
  rcases eq_or_ne timebase.sampleRate.toNat 0 with hrate | hrate
  · rw [parts, hrate]
    simp
  · have hnearest := nearest_seconds h (toNat_le_of_parts_lt hrate hsmall)
    have herror : |roundedSeconds duration - duration.toInt.toNat / 960| ≤ duration.toInt.toNat / 960 / 2 ^ 53 := by
      rcases Nat.eq_zero_or_pos duration.toInt.toNat with hzero | hpos
      · have hin : InFormat .binary64 (duration.toInt.toNat / 960 : ℚ) := by
          rw [hzero, Nat.cast_zero, zero_div]
          exact_mod_cast inFormat_natCast (Nat.zero_le _)
        rw [roundedSeconds, hnearest.size_eq hin, hzero]
        simp
      · refine hnearest.abs_size_sub_le_div ?_
        have hone : (1 : ℚ) ≤ duration.toInt.toNat := by exact_mod_cast hpos
        calc (2 : ℚ) ^ (Float.Model.Format.minExponent .binary64 + _)
          _ ≤ 2 ^ (-10 : ℤ) := zpow_le_zpow_right₀ one_le_two (by decide)
          _ ≤ 1 / 960 := by norm_num
          _ ≤ duration.toInt.toNat / 960 := by gcongr
    calc |roundedSeconds duration * timebase.sampleRate.toNat - timebase.parts duration / 960|
      _ = |roundedSeconds duration - duration.toInt.toNat / 960| * timebase.sampleRate.toNat := by
        rw [cast_parts_div, ← sub_mul, abs_mul, Nat.abs_cast]
      _ ≤ duration.toInt.toNat / 960 / 2 ^ 53 * timebase.sampleRate.toNat := by gcongr
      _ = timebase.parts duration / 960 / 2 ^ 53 := by
        rw [cast_parts_div, div_mul_eq_mul_div]

/-- Multiples of a 64th of a second are held exactly. -/
private theorem roundedSeconds_mul_eq (h : 0 ≤ duration) (hsmall : timebase.parts duration < 2 ^ 53)
    (hdvd : 15 ∣ duration.toInt.toNat) :
    roundedSeconds duration * timebase.sampleRate.toNat = timebase.parts duration / 960 := by
  rcases eq_or_ne timebase.sampleRate.toNat 0 with hrate | hrate
  · rw [parts, hrate]
    simp
  · have hle := toNat_le_of_parts_lt hrate hsmall
    have hin : InFormat .binary64 (duration.toInt.toNat / 960 : ℚ) := by
      obtain ⟨k, hk⟩ := hdvd
      have hkle : k ≤ 2 ^ 53 := by omega
      refine ⟨k, -6, hkle, by decide, ?_⟩
      rw [hk]
      push_cast
      norm_num
      ring
    rw [cast_parts_div, roundedSeconds, (nearest_seconds h hle).size_eq hin]

/-! ### Dropping the fraction -/

section

variable (hpos : 0 ≤ duration) (hsmall : timebase.parts duration < 2 ^ 53)

include hpos hsmall

private theorem abs_roundedSeconds_mul_sub_lt :
    |roundedSeconds duration * timebase.sampleRate.toNat - timebase.parts duration / 960| < 1 / 960 := by
  refine (abs_roundedSeconds_mul_sub_le hpos hsmall).trans_lt ?_
  have hlt : (timebase.parts duration : ℚ) < 2 ^ 53 := by exact_mod_cast hsmall
  rw [div_div, div_lt_div_iff₀ (by norm_num) (by norm_num)]
  linarith

private theorem size_samples_lt : size (ofInt64 duration / ticksPerSecond * timebase.rate).toModel.unpack < 2 ^ 64 := by
  have hlt : (timebase.parts duration : ℚ) < 2 ^ 53 := by exact_mod_cast hsmall
  have herror := (abs_lt.1 (abs_roundedSeconds_mul_sub_lt hpos hsmall)).2
  have hle : roundedSeconds duration * timebase.sampleRate.toNat ≤ 2 ^ 53 := by linarith
  exact ((nearest_samples hpos).size_le (inFormat_two_pow .binary64 53) hle).trans_lt (by norm_num)

private theorem samplesFor_eq_floor :
    timebase.samplesFor duration = ⌊size (ofInt64 duration / ticksPerSecond * timebase.rate).toModel.unpack⌋₊ :=
  (nearest_samples hpos).canonical.toNat_toUInt64 (size_samples_lt hpos hsmall)

/-- An event that starts when the duration ends starts behind its samples. -/
private theorem sampleAt_toUInt64 : timebase.sampleAt duration.toUInt64 = some (timebase.samplesFor duration) := by
  have htop : (18446744073709551616.0 : Float) = .ofModel (.ofNat (2 ^ 64)) := by decide
  have hnearest : Nearest .binary64 .positive (2 ^ 64) (18446744073709551616.0 : Float).toModel.unpack := by
    rw [htop]
    exact_mod_cast nearest_ofNat le_rfl
  have hless : size (ofInt64 duration / ticksPerSecond * timebase.rate).toModel.unpack <
      size (18446744073709551616.0 : Float).toModel.unpack := by
    rw [hnearest.size_eq (inFormat_two_pow .binary64 64)]
    exact size_samples_lt hpos hsmall
  have hbelow : ofInt64 duration / ticksPerSecond * timebase.rate < 18446744073709551616.0 :=
    decide_eq_true ((nearest_samples hpos).canonical.lt_of_size_lt hnearest.canonical hless)
  simp only [sampleAt, toFloat_toUInt64 hpos, if_pos hbelow]
  rfl

/-- A duration is given at least a number of samples if the product of its rounded seconds is at most half a step less
than that number. -/
theorem le_samplesFor_iff {n : ℕ} (hone : 1 ≤ n) (hn : n ≤ 2 ^ 52) :
    n ≤ timebase.samplesFor duration ↔
      (n : ℚ) - halfStep n ≤ roundedSeconds duration * timebase.sampleRate.toNat := by
  rw [samplesFor_eq_floor hpos hsmall, Nat.le_floor_iff (size_nonneg _),
    (double_seconds_of_nonneg hpos).unpack_mul (double_rate timebase) (by decide),
    natCast_le_size_mul_iff (double_seconds_of_nonneg hpos).canonical (double_rate timebase).canonical hone hn,
    size_rate]
  rfl

/-- A number of samples is reached if the exact length is more than it. -/
private theorem le_samplesFor_of_lt {n : ℕ} (hn : 960 * n < timebase.parts duration) :
    n ≤ timebase.samplesFor duration := by
  rcases Nat.eq_zero_or_pos n with rfl | hone
  · exact Nat.zero_le _
  · rw [le_samplesFor_iff hpos hsmall hone (by omega)]
    have hmore : (n : ℚ) + 1 / 960 ≤ timebase.parts duration / 960 := by
      have hcast : ((960 * n + 1 : ℕ) : ℚ) ≤ timebase.parts duration := by exact_mod_cast hn
      push_cast at hcast
      linarith
    linarith [halfStep_pos n, (abs_lt.1 (abs_roundedSeconds_mul_sub_lt hpos hsmall)).1]

/-- A number of samples is not reached if the exact length is more than one part less than it. -/
private theorem samplesFor_lt_of_lt {n : ℕ} (hn : timebase.parts duration + 1 < 960 * n) (htop : n ≤ 2 ^ 44) :
    timebase.samplesFor duration < n := by
  rw [← not_le, le_samplesFor_iff hpos hsmall (by omega) (htop.trans (by decide)), not_le]
  have hless : (timebase.parts duration : ℚ) / 960 ≤ n - 2 / 960 := by
    have hcast : ((timebase.parts duration + 2 : ℕ) : ℚ) ≤ (960 * n : ℕ) := by exact_mod_cast hn
    push_cast at hcast
    linarith
  have hstep : halfStep n ≤ 1 / 1024 := (halfStep_le htop).trans_eq (by norm_num)
  linarith [(abs_lt.1 (abs_roundedSeconds_mul_sub_lt hpos hsmall)).2]

end

/-! ### Rounding down -/

/-- A duration falls short only if it is no multiple of a 64th of a second. -/
private theorem FallsShort.not_dvd (hpos : 0 ≤ duration) (hsmall : timebase.parts duration < 2 ^ 53)
    (h : timebase.FallsShort duration) : ¬ 15 ∣ duration.toInt.toNat := by
  intro hdvd
  obtain ⟨⟨n, hn⟩, hless⟩ := h
  rw [roundedSeconds_mul_eq hpos hsmall hdvd, hn, Nat.mul_div_cancel_left _ (by norm_num)] at hless
  push_cast at hless
  linarith [halfStep_pos n]

private theorem GoesPast.not_dvd (h : timebase.GoesPast duration) : ¬ 15 ∣ duration.toInt.toNat := by
  intro hdvd
  have hparts : 15 ∣ timebase.parts duration := hdvd.mul_right _
  have hnext := h.1
  omega

/-- Only the product of a long duration goes past a whole number. -/
private theorem GoesPast.two_pow_le (hpos : 0 ≤ duration) (hsmall : timebase.parts duration < 2 ^ 53)
    (h : timebase.GoesPast duration) : 2 ^ 52 ≤ timebase.parts duration := by
  by_contra hshort
  rw [not_le] at hshort
  obtain ⟨⟨n, hn⟩, hmore⟩ := h
  rw [hn, Nat.mul_div_cancel_left _ (by norm_num)] at hmore
  have hstep : halfStep n ≤ 1 / 2048 :=
    (halfStep_le (show n ≤ 2 ^ 43 by omega)).trans_eq (by norm_num)
  have hexact : (timebase.parts duration : ℚ) / 960 = n - 1 / 960 := by
    have hcast : ((timebase.parts duration + 1 : ℕ) : ℚ) = (960 * n : ℕ) := by rw [hn]
    push_cast at hcast
    linarith
  have herror : (timebase.parts duration : ℚ) / 960 / 2 ^ 53 ≤ 1 / 1920 := by
    have hcast : (timebase.parts duration : ℚ) ≤ 2 ^ 52 := by exact_mod_cast hshort.le
    rw [div_div, div_le_div_iff₀ (by norm_num) (by norm_num)]
    linarith
  linarith [(abs_le.1 (abs_roundedSeconds_mul_sub_le hpos hsmall)).2]

section

variable (hpos : 0 ≤ duration) (hsmall : timebase.parts duration < 2 ^ 53)

include hpos hsmall

private theorem le_samplesFor_of_not_fallsShort (h : ¬ timebase.FallsShort duration) :
    timebase.parts duration / 960 ≤ timebase.samplesFor duration := by
  by_cases hdvd : 960 ∣ timebase.parts duration
  · rcases Nat.eq_zero_or_pos (timebase.parts duration / 960) with hzero | hone
    · rw [hzero]
      exact Nat.zero_le _
    · rw [le_samplesFor_iff hpos hsmall hone (by omega)]
      exact not_lt.1 fun hless => h ⟨hdvd, hless⟩
  · exact le_samplesFor_of_lt hpos hsmall (by omega)

private theorem samplesFor_lt_of_not_goesPast (h : ¬ timebase.GoesPast duration) :
    timebase.samplesFor duration < timebase.parts duration / 960 + 1 := by
  by_cases hdvd : 960 ∣ timebase.parts duration + 1
  · have hnext : (timebase.parts duration + 1) / 960 = timebase.parts duration / 960 + 1 := by omega
    rw [← hnext, ← not_le, le_samplesFor_iff hpos hsmall (by omega) (by omega)]
    exact fun hmore => h ⟨hdvd, hmore⟩
  · exact samplesFor_lt_of_lt hpos hsmall (by omega) (by omega)

private theorem samplesFor_of_fallsShort (h : timebase.FallsShort duration) :
    timebase.samplesFor duration + 1 = timebase.parts duration / 960 := by
  obtain ⟨hdvd, hless⟩ := h
  have hone : 1 ≤ timebase.parts duration / 960 := by
    by_contra hzero
    have hnonneg := mul_nonneg (roundedSeconds_nonneg duration) (Nat.cast_nonneg timebase.sampleRate.toNat)
    rw [Nat.lt_one_iff.1 (not_le.1 hzero), Nat.cast_zero] at hless
    linarith [halfStep_pos 0]
  have hlt : timebase.samplesFor duration < timebase.parts duration / 960 := by
    rwa [← not_le, le_samplesFor_iff hpos hsmall hone (by omega), not_le]
  have hle : timebase.parts duration / 960 - 1 ≤ timebase.samplesFor duration :=
    le_samplesFor_of_lt hpos hsmall (by omega)
  omega

private theorem samplesFor_of_goesPast (h : timebase.GoesPast duration) :
    timebase.samplesFor duration = timebase.parts duration / 960 + 1 := by
  obtain ⟨hdvd, hmore⟩ := h
  have hnext : (timebase.parts duration + 1) / 960 = timebase.parts duration / 960 + 1 := by omega
  have hle : (timebase.parts duration + 1) / 960 ≤ timebase.samplesFor duration := by
    rwa [le_samplesFor_iff hpos hsmall (by omega) (by omega)]
  have hlt : timebase.samplesFor duration < timebase.parts duration / 960 + 2 :=
    samplesFor_lt_of_lt hpos hsmall (by omega) (by omega)
  omega

end

/-- The number of samples is the exact length, rounded down, but for the durations whose product falls short of a whole
number, which are given one sample less, and those whose product goes past one, which are given one more.  Neither
happens to multiples of a 64th of a second, and the latter happens only to long durations. -/
theorem samplesFor_rounding (timebase : Timebase) (duration : Int64) (hpos : 0 ≤ duration)
    (hsmall : timebase.parts duration < 2 ^ 53) :
    timebase.sampleAt duration.toUInt64 = some (timebase.samplesFor duration) ∧
      (timebase.samplesFor duration = timebase.parts duration / 960 ↔
        ¬ timebase.FallsShort duration ∧ ¬ timebase.GoesPast duration) ∧
      (timebase.FallsShort duration →
        timebase.samplesFor duration + 1 = timebase.parts duration / 960 ∧ ¬ 15 ∣ duration.toInt.toNat) ∧
      (timebase.GoesPast duration →
        timebase.samplesFor duration = timebase.parts duration / 960 + 1 ∧ ¬ 15 ∣ duration.toInt.toNat ∧
          2 ^ 52 ≤ timebase.parts duration) := by
  refine ⟨sampleAt_toUInt64 hpos hsmall, ⟨fun hexact => ⟨fun hshort => ?_, fun hpast => ?_⟩, ?_⟩, fun hshort => ?_,
    fun hpast => ?_⟩
  · have hless := samplesFor_of_fallsShort hpos hsmall hshort
    omega
  · have hmore := samplesFor_of_goesPast hpos hsmall hpast
    omega
  · rintro ⟨hshort, hpast⟩
    have hle := le_samplesFor_of_not_fallsShort hpos hsmall hshort
    have hlt := samplesFor_lt_of_not_goesPast hpos hsmall hpast
    omega
  · exact ⟨samplesFor_of_fallsShort hpos hsmall hshort, hshort.not_dvd hpos hsmall⟩
  · exact ⟨samplesFor_of_goesPast hpos hsmall hpast, hpast.not_dvd, hpast.two_pow_le hpos hsmall⟩

/-- The duration of 8085 samples falls short of them at the usual rate, and that of nearly 9379984657485 samples goes
past them at a high one. -/
theorem samplesFor_rounding_bothWays :
    (0 : Int64) ≤ 176 ∧ ({} : Timebase).parts 176 < 2 ^ 53 ∧ ({} : Timebase).parts 176 = 960 * 8085 ∧
      ({} : Timebase).samplesFor 176 = 8084 ∧ FallsShort {} 176 ∧
    (0 : Int64) ≤ 2933173 ∧ (⟨3069980963⟩ : Timebase).parts 2933173 < 2 ^ 53 ∧
      (⟨3069980963⟩ : Timebase).parts 2933173 + 1 = 960 * 9379984657485 ∧
      (⟨3069980963⟩ : Timebase).samplesFor 2933173 = 9379984657485 ∧ GoesPast ⟨3069980963⟩ 2933173 := by
  have hshort : FallsShort {} 176 := by
    obtain ⟨-, hexact, -, hpast⟩ := samplesFor_rounding {} 176 (by decide) (by decide)
    by_contra hnot
    have hsamples := hexact.2 ⟨hnot, fun h => absurd (hpast h).1 (by decide)⟩
    exact absurd hsamples (by decide)
  have hpast : GoesPast ⟨3069980963⟩ 2933173 := by
    obtain ⟨-, hexact, hshort, -⟩ := samplesFor_rounding ⟨3069980963⟩ 2933173 (by decide) (by decide)
    by_contra hnot
    have hsamples := hexact.2 ⟨fun h => absurd (hshort h).1 (by decide), hnot⟩
    exact absurd hsamples (by decide)
  exact ⟨by decide, by decide, by decide, by decide, hshort, by decide, by decide, by decide, by decide, hpast⟩

/-- Not even a duration of a whole number of samples is always given as many. -/
theorem samplesFor_not_exact :
    ¬ ∀ (timebase : Timebase) (duration : Int64), 0 ≤ duration → timebase.parts duration < 2 ^ 53 →
      960 ∣ timebase.parts duration → timebase.samplesFor duration = timebase.parts duration / 960 := by
  intro hexact
  exact absurd (hexact {} 176 (by decide) (by decide) (by decide)) (by decide)

end Timebase

end Ostinato
