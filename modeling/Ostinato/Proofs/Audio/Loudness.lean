import Mathlib
import Ostinato.Proofs.Audio.Playing
import Ostinato.Proofs.Numeric.Ranges

/-!
# How loud sounds are

Velocities are words, envelopes fall, and waves stay within a fixed range, so no sample of a sound is larger than a
fixed power of two (`Sound.exists_single_wave`), not even those of a chord, however many pitches it has.  The exception
are pitches that are so high that the angle of their wave is not a finite number any more; `Sound.HasAngles` says that
this happens to none of a sound.
-/

namespace Ostinato

open Numeric

/-! ### Times -/

namespace Timebase

variable {timebase : Timebase}

theorem double_rate (timebase : Timebase) : Double .positive 32 timebase.rate :=
  double_pack (below_normalize .binary64 (UInt32.toNat_lt timebase.sampleRate).le) (by decide)

private theorem one_le_size_rate (h : timebase.sampleRate ≠ 0) : 1 ≤ size timebase.rate.toModel.unpack := by
  have hpos : 1 ≤ timebase.sampleRate.toNat := Nat.one_le_iff_ne_zero.2 fun hzero => h (UInt32.toNat_inj.1 hzero)
  have hlt := UInt32.toNat_lt timebase.sampleRate
  exact one_le_size_ofNat hpos (hlt.le.trans (by decide))

private theorem double_seconds (h : timebase.sampleRate ≠ 0) (i : UInt64) : Double .positive 64 (timebase.seconds i) :=
  (double_toFloat i).div (double_rate timebase) (one_le_size_rate h) (by decide)

theorem ticksPerSecond_eq : ticksPerSecond = .ofModel (.ofNat 960) := by
  decide

theorem double_ticksPerSecond : Double .positive 10 ticksPerSecond :=
  double_of_isBelow (by decide)

theorem one_le_size_ticksPerSecond : 1 ≤ size ticksPerSecond.toModel.unpack := by
  rw [ticksPerSecond_eq]
  exact one_le_size_ofNat (by decide) (by decide)

/-- Without samples in a second, no sound has any. -/
theorem samplesFor_of_sampleRate_eq_zero (h : timebase.sampleRate = 0) (duration : Int64) :
    timebase.samplesFor duration = 0 := by
  obtain ⟨s, hs⟩ := double_ofInt64 duration
  have hquotient := hs.div double_ticksPerSecond one_le_size_ticksPerSecond (by decide)
  have hrate : timebase.rate.toModel.unpack = .zero .positive := by
    rw [rate, h]
    rfl
  rw [samplesFor, hquotient.toUInt64_mul_of_zero hrate]
  rfl

end Timebase

/-! ### Parts of sounds -/

section

variable {t c : Float}

private theorem exists_double_loudness (velocity : Int64) : ∃ s, Double s 63 (loudness velocity) := by
  obtain ⟨s, hs⟩ := double_ofInt64 velocity
  have hconst : Double .positive 7 127.0 := double_of_isBelow (by decide)
  have hsize : 1 ≤ size (127.0 : Float).toModel.unpack := by
    rw [show (127.0 : Float) = .ofModel (.ofNat 127) by decide]
    exact one_le_size_ofNat (by decide) (by decide)
  exact ⟨_, hs.div hconst hsize (by decide)⟩

/-- An envelope falls from one on. -/
private theorem exists_double_envelope (ht : Double .positive 64 t) (hc : Double .positive 6 c) :
    ∃ s, Double s 2 (exponential (-t * c)) :=
  exists_double_exponential ((ht.neg (by decide)).mul hc (by decide))

/-! ### Noise -/

/-- The upper bits of a word are put behind the exponent bits of one. -/
private theorem unpackExponent_fraction (word : UInt64) :
    @Float.Model.UnpackedFloat.unpackExponent .binary64 ((word >>> 12) ||| 0x3ff0000000000000).toBitVec = 1023#11 := by
  have hword : word.toNat >>> 12 >>> 52 = 0 := by
    rw [← Nat.shiftRight_add, Nat.shiftRight_eq_div_pow]
    exact Nat.div_eq_of_lt (UInt64.toNat_lt word)
  rw [Float.Model.UnpackedFloat.unpackExponent_def]
  apply BitVec.eq_of_toNat_eq
  simp [BitVec.extractLsb'_toNat, Nat.shiftRight_or_distrib, hword]

private theorem exists_double_ofWord (word : UInt64) : ∃ s, Double s 5 (Noise.ofWord word) := by
  have hone : Double .positive 1 1.0 := double_of_isBelow (by decide)
  have hspread : Double .positive 2 Noise.spread := double_of_isBelow (by decide)
  have hminus : Double .negative 4 (-1.0) := (hone.neg (by decide)).mono (by decide)
  obtain ⟨_, hbits⟩ := exists_double_ofBits (unpackExponent_fraction word)
  obtain ⟨_, hfraction⟩ := hbits.sub hone (by decide)
  exact (hfraction.mul hspread (by decide)).add hminus (by decide)

/-! ### Sounds -/

private theorem exists_double_noteSample (voice : Voice) (velocity : Int64) {frequency : Float}
    (ht : Double .positive 64 t) (hangle : (2.0 * pi * frequency * t).isFinite = true) :
    ∃ s, Double s 70 (noteSample voice velocity frequency t) := by
  obtain ⟨_, hloud⟩ := exists_double_loudness velocity
  have hamplitude := hloud.mul (double_of_isBelow (k := 0) (x := 0.3) (by decide)) (by decide)
  obtain ⟨_, hphase⟩ := exists_double_sine hangle
  cases voice with
  | bass =>
    obtain ⟨_, hfall⟩ := exists_double_envelope (c := 2.0) ht (double_of_isBelow (by decide))
    exact ⟨_, ((hamplitude.mul hfall (by decide)).mul hphase (by decide)).mono (by decide)⟩
  | guitar =>
    obtain ⟨_, hfall⟩ := exists_double_envelope (c := 1.5) ht (double_of_isBelow (by decide))
    have hone : Double .positive 0 1.0 := double_of_isBelow (by decide)
    have hsquare : ∃ s, Double s 0 (if sineWave frequency t > 0.0 then 1.0 else -1.0) := by
      split
      · exact ⟨_, hone⟩
      · exact ⟨_, hone.neg (by decide)⟩
    obtain ⟨_, hsquare⟩ := hsquare
    have hhalf : Double .positive 0 0.5 := double_of_isBelow (by decide)
    exact ⟨_, (((hamplitude.mul hfall (by decide)).mul hsquare (by decide)).mul hhalf (by decide)).mono (by decide)⟩

private theorem exists_double_chordSample (velocity : Int64) {frequencies : List Float} (ht : Double .positive 64 t)
    (hangles : ∀ frequency ∈ frequencies, (2.0 * pi * frequency * t).isFinite = true) :
    ∃ s, Double s 120 (chordSample velocity frequencies t) := by
  obtain ⟨_, hloud⟩ := exists_double_loudness velocity
  obtain ⟨_, hfall⟩ := exists_double_envelope (c := 1.5) ht (double_of_isBelow (by decide))
  have hpart : Double .positive 0 0.15 := double_of_isBelow (by decide)
  have hamplitude := (hloud.mul hfall (by decide)).mul hpart (by decide)
  have hsilence : Double .positive 120 0.0 := double_of_isBelow (by decide)
  -- the waves are absorbed before their sum gets much larger than they are
  refine List.foldlRecOn (motive := fun sum => ∃ s, Double s 120 sum) frequencies _ ⟨_, hsilence⟩
    fun sum hsum frequency hmem => ?_
  obtain ⟨_, hsum⟩ := hsum
  obtain ⟨_, hphase⟩ := exists_double_sine (hangles frequency hmem)
  exact hsum.absorb (hamplitude.mul hphase (by decide)) (by decide) (by decide)

private theorem exists_double_drumSample (kind : DrumKind) (velocity : Int64) {noise : Float}
    (ht : Double .positive 64 t) (hnoise : ∃ s, Double s 5 noise) :
    ∃ s, Double s 70 (drumSample kind velocity noise t) := by
  obtain ⟨_, hloud⟩ := exists_double_loudness velocity
  obtain ⟨_, hnoise⟩ := hnoise
  have hamplitude := hloud.mul (double_of_isBelow (k := 0) (x := 0.4) (by decide)) (by decide)
  cases kind with
  | kick =>
    obtain ⟨_, hfall⟩ := exists_double_envelope (c := 15.0) ht (double_of_isBelow (by decide))
    obtain ⟨_, hsweep⟩ := exists_double_envelope (c := 50.0) ht (double_of_isBelow (by decide))
    have hturn : Double .positive 3 (2.0 * pi) := double_of_isBelow (by decide)
    have htop : Double .positive 6 60.0 := double_of_isBelow (by decide)
    have hangle := (hturn.mul (htop.mul hsweep (by decide)) (by decide)).mul ht (by decide)
    obtain ⟨_, hphase⟩ := exists_double_sine hangle.isFinite
    exact ⟨_, ((hamplitude.mul hfall (by decide)).mul hphase (by decide)).mono (by decide)⟩
  | snare =>
    obtain ⟨_, hfall⟩ := exists_double_envelope (c := 10.0) ht (double_of_isBelow (by decide))
    exact ⟨_, (hamplitude.mul hfall (by decide)).mul hnoise (by decide)⟩
  | hiHat =>
    obtain ⟨_, hfall⟩ := exists_double_envelope (c := 20.0) ht (double_of_isBelow (by decide))
    have hhalf : Double .positive 0 0.5 := double_of_isBelow (by decide)
    exact ⟨_, ((hamplitude.mul hfall (by decide)).mul hnoise (by decide)).mul hhalf (by decide)⟩
  | other =>
    have hsilence : Double .positive 70 0.0 := double_of_isBelow (by decide)
    exact ⟨_, hsilence⟩

end

/-! ### Samples -/

namespace Track

/-- The power of two that no sample of a sound on a track exceeds; chords are as long as a program makes them. -/
def headroom : Track → ℕ
  | .guitar => 120
  | .bass | .drums => 70

private theorem headroom_le (track : Track) : track.headroom ≤ 120 := by
  cases track <;> decide

end Track

namespace Sound

variable {timebase : Timebase} {sound : Sound} {i : ℕ}

/-- Whether the angles of all pitches of a sound are finite numbers at its `i`th sample. -/
def HasAngles (timebase : Timebase) (sound : Sound) (i : ℕ) : Prop :=
  ∀ pitch ∈ sound.pitches, (2.0 * pi * frequency pitch * timebase.seconds (UInt64.ofNat i)).isFinite = true

instance (timebase : Timebase) (sound : Sound) (i : ℕ) : Decidable (sound.HasAngles timebase i) :=
  List.decidableBAll _ sound.pitches

/-- The samples of a sound are within the headroom of its track, where its angles are finite. -/
theorem exists_single_wave (hrate : timebase.sampleRate ≠ 0) (voice : Voice) (noise : Noise)
    (hangles : sound.HasAngles timebase i) :
    ∃ s, Single s sound.track.headroom (sound.wave timebase voice noise i) := by
  have ht := Timebase.double_seconds hrate (UInt64.ofNat i)
  have hheadroom : sound.track.headroom ≤ 127 := (Track.headroom_le _).trans (by decide)
  cases sound with
  | note n =>
    obtain ⟨_, h⟩ := exists_double_noteSample voice n.velocity ht (hangles n.pitch (List.mem_singleton.2 rfl))
    exact ⟨_, single_narrow h hheadroom⟩
  | chord c =>
    obtain ⟨_, h⟩ := exists_double_chordSample c.velocity ht (List.forall_mem_map.2 hangles)
    exact ⟨_, single_narrow h hheadroom⟩
  | drum d =>
    have hnoise : ∃ s, Double s 5 (noise.number i) := by
      rw [Noise.number_eq]
      exact exists_double_ofWord _
    obtain ⟨_, h⟩ := exists_double_drumSample d.kind d.velocity ht hnoise
    exact ⟨_, single_narrow h hheadroom⟩

end Sound

end Ostinato
