import Ostinato.Audio.Synth
import Ostinato.Proofs.Audio.Buffers

/-!
# Playing

A sound that is in tune is a wave once it is known how far the noise has been used when it starts, although its samples
draw the noise one by one (`Sound.sample?_of_inTune`).  So playing a sound puts a layer on a buffer and uses up the
noise of the sound, or fails for one of two reasons and does neither (`Synth.play?_eq`); playing an event does the same
to the buffer of its track, at the sample of its stamp (`Synth.render?_eq_ok_iff`).
-/

namespace Ostinato

open Numeric

/-! ### Pitches -/

/-- Whether the distance of a pitch from the tuning note fits a word. -/
def HasFrequency (pitch : Int64) : Prop :=
  Int64.minValue.toInt + tuningPitch.toInt ≤ pitch.toInt

instance (pitch : Int64) : Decidable (HasFrequency pitch) :=
  inferInstanceAs (Decidable (_ ≤ _))

/-- The frequency of a pitch that has one. -/
def frequency (pitch : Int64) : Float :=
  440.0 * powerOfTwo (ofInt64 (pitch - tuningPitch) / 12.0)

private theorem frequency?_of_hasFrequency {pitch : Int64} (h : HasFrequency pitch) :
    frequency? pitch = .ok (frequency pitch) := by
  unfold HasFrequency at h
  exact if_neg (by omega)

private theorem frequency?_of_not_hasFrequency {pitch : Int64} (h : ¬HasFrequency pitch) :
    frequency? pitch = .error .pitchOverflow := by
  unfold HasFrequency at h
  exact if_pos (by omega)

private theorem mapM_frequency?_of_forall {pitches : List Int64} (h : ∀ pitch ∈ pitches, HasFrequency pitch) :
    pitches.mapM frequency? = .ok (pitches.map frequency) := by
  induction pitches with
  | nil => rfl
  | cons pitch pitches ih =>
    obtain ⟨hpitch, hpitches⟩ := List.forall_mem_cons.1 h
    rw [List.mapM_cons, frequency?_of_hasFrequency hpitch, ih hpitches]
    rfl

private theorem mapM_frequency?_of_not_forall {pitches : List Int64}
    (h : ¬∀ pitch ∈ pitches, HasFrequency pitch) : pitches.mapM frequency? = .error .pitchOverflow := by
  induction pitches with
  | nil => exact absurd (List.forall_mem_nil _) h
  | cons pitch pitches ih =>
    rw [List.mapM_cons]
    by_cases hpitch : HasFrequency pitch
    · have hpitches : ¬∀ pitch ∈ pitches, HasFrequency pitch :=
        fun hall => h (List.forall_mem_cons.2 ⟨hpitch, hall⟩)
      rw [frequency?_of_hasFrequency hpitch, ih hpitches]
      rfl
    · rw [frequency?_of_not_hasFrequency hpitch]
      rfl

/-! ### Noise -/

namespace Noise

/-- The noise after a number of draws. -/
def after (noise : Noise) (count : Nat) : Noise :=
  (fun noise => noise.draw.2)^[count] noise

/-- The number that the `i`th of the following draws gives, counted from zero. -/
def number (noise : Noise) (i : Nat) : Float :=
  (noise.after i).draw.1

@[simp] theorem after_zero (noise : Noise) : noise.after 0 = noise := rfl

private theorem after_succ (noise : Noise) (count : Nat) : noise.after (count + 1) = (noise.after count).draw.2 :=
  Function.iterate_succ_apply' _ _ _

theorem after_add (noise : Noise) (count more : Nat) : noise.after (count + more) = (noise.after count).after more := by
  rw [Nat.add_comm]
  exact Function.iterate_add_apply _ _ _ _

theorem after_eq (noise : Noise) (count : Nat) :
    noise.after count = { noise with drawn := noise.drawn + count } := by
  induction count with
  | zero => rfl
  | succ count ih =>
    rw [after_succ, ih]
    rfl

theorem number_eq (noise : Noise) (i : Nat) : noise.number i = ofWord (noise.word (noise.drawn + i)) := by
  rw [number, after_eq]
  rfl

end Noise

/-! ### Drums -/

namespace DrumKind

variable {kind : DrumKind}

/-- Whether hits of a kind draw random numbers. -/
def isNoisy : DrumKind → Bool
  | snare | hiHat => true
  | kick | other _ => false

private theorem draw_of_isNoisy (h : kind.isNoisy = true) (noise : Noise) : kind.draw noise = noise.draw := by
  cases kind with
  | snare | hiHat => rfl
  | kick | other => cases h

private theorem draw_of_not_isNoisy (h : kind.isNoisy = false) (noise : Noise) : kind.draw noise = (0.0, noise) := by
  cases kind with
  | snare | hiHat => cases h
  | kick | other => rfl

/-- A hit that draws no random numbers does not depend on any. -/
theorem drumSample_congr (h : kind.isNoisy = false) (velocity : Int64) (value other : Float) :
    drumSample kind velocity value = drumSample kind velocity other := by
  cases kind with
  | snare | hiHat => cases h
  | kick | other => rfl

end DrumKind

/-! ### Waves -/

namespace Sound

variable {sound : Sound}

/-- The pitches of a sound; a drum hit has none. -/
def pitches : Sound → List Int64
  | note n => [n.pitch]
  | chord c => c.pitches
  | drum _ => []

/-- Whether all pitches of a sound have frequencies. -/
def InTune (sound : Sound) : Prop :=
  ∀ pitch ∈ sound.pitches, HasFrequency pitch

instance (sound : Sound) : Decidable sound.InTune :=
  List.decidableBAll HasFrequency sound.pitches

/-- Whether a sound is a snare or a hi-hat. -/
def isNoisy : Sound → Bool
  | drum d => d.kind.isNoisy
  | note _ | chord _ => false

/-- The `i`th sample of a sound, where the noise is as far used as when the sound starts. -/
def wave (timebase : Timebase) (voice : Voice) (noise : Noise) (sound : Sound) (i : Nat) : Float32 :=
  let t := timebase.seconds (UInt64.ofNat i)
  narrow (match sound with
    | note n => noteSample voice n.velocity (frequency n.pitch) t
    | chord c => chordSample c.velocity (c.pitches.map frequency) t
    | drum d => drumSample d.kind d.velocity (noise.number i) t)

/-- The samples of a sound in tune are those of its wave, and a noisy sound draws one number for each. -/
theorem sample?_of_inTune (timebase : Timebase) (voice : Voice) (h : sound.InTune) :
    ∃ sample, sound.sample? timebase voice = .ok sample ∧ ∀ noise i,
      sample i (noise.after (if sound.isNoisy then i else 0)) =
        (sound.wave timebase voice noise i, noise.after (if sound.isNoisy then i + 1 else 0)) := by
  cases sound with
  | note n =>
    have hpitch : HasFrequency n.pitch := h n.pitch (List.mem_singleton.2 rfl)
    rw [sample?, frequency?_of_hasFrequency hpitch]
    exact ⟨_, rfl, fun noise i => rfl⟩
  | chord c =>
    have hpitches : ∀ pitch ∈ c.pitches, HasFrequency pitch := h
    rw [sample?, mapM_frequency?_of_forall hpitches]
    exact ⟨_, rfl, fun noise i => rfl⟩
  | drum d =>
    refine ⟨_, rfl, fun noise i => ?_⟩
    cases hnoisy : d.kind.isNoisy with
    | true =>
      have hdraw := DrumKind.draw_of_isNoisy hnoisy (noise.after i)
      simp only [isNoisy, hnoisy, if_true, hdraw, Noise.after_succ]
      rfl
    | false =>
      have hdraw := DrumKind.draw_of_not_isNoisy hnoisy noise
      have hsample := DrumKind.drumSample_congr hnoisy d.velocity 0.0 (noise.number i)
      simp only [isNoisy, hnoisy, Bool.false_eq_true, if_false, Noise.after_zero, hdraw, hsample]
      rfl

private theorem sample?_of_not_inTune (timebase : Timebase) (voice : Voice) (h : ¬sound.InTune) :
    sound.sample? timebase voice = .error .pitchOverflow := by
  cases sound with
  | note n =>
    have hpitch : ¬HasFrequency n.pitch := by simpa [InTune, pitches] using h
    rw [sample?, frequency?_of_not_hasFrequency hpitch]
    rfl
  | chord c =>
    have hpitches : ¬∀ pitch ∈ c.pitches, HasFrequency pitch := h
    rw [sample?, mapM_frequency?_of_not_forall hpitches]
    rfl
  | drum d => exact absurd (List.forall_mem_nil _) h

end Sound

/-! ### Synthesizers -/

/-- The number of random numbers that a sound draws. -/
def Timebase.draws (timebase : Timebase) (sound : Sound) : Nat :=
  if sound.isNoisy then timebase.samplesFor sound.duration else 0

namespace Synth

/-- The synthesizer after it has played a sound. -/
def past (synth : Synth) (sound : Sound) : Synth :=
  { synth with noise := synth.noise.after (synth.timebase.draws sound) }

/-- Playing a sound puts a layer on the buffer and uses up the noise of the sound; it fails if the sound is out of tune
or does not fit. -/
theorem play?_eq (synth : Synth) (voice : Voice) (sound : Sound) (start : Nat) (buffer : Buffer) :
    synth.play? voice sound start buffer =
      if sound.InTune then
        if start + synth.timebase.samplesFor sound.duration ≤ maxSamples then
          .ok (synth.past sound, buffer.layer start (synth.timebase.samplesFor sound.duration)
            (sound.wave synth.timebase voice synth.noise))
        else .error .tooLong
      else .error .pitchOverflow := by
  unfold play?
  split
  · rename_i htune
    obtain ⟨sample, hsample, hfollows⟩ := Sound.sample?_of_inTune synth.timebase voice htune
    rw [hsample]
    by_cases hfits : start + synth.timebase.samplesFor sound.duration ≤ maxSamples
    · have hreach := Buffer.reach?_eq_ok_iff.2 ⟨hfits, (rfl : buffer.grow _ = _)⟩
      have hadd := Buffer.addFrom_eq_add (hfollows synth.noise) start
        (synth.timebase.samplesFor sound.duration) (buffer.grow (start + synth.timebase.samplesFor sound.duration))
      have hfirst : synth.noise.after (if sound.isNoisy then 0 else 0) = synth.noise := by
        rw [ite_self, Noise.after_zero]
      rw [hfirst] at hadd
      rw [if_pos hfits]
      show (buffer.reach? _ _ >>= _) = _
      rw [hreach]
      show Except.ok (_, _) = _
      rw [hadd]
      rfl
    · rw [if_neg hfits]
      show (buffer.reach? _ _ >>= _) = _
      rw [Buffer.reach?_of_lt (Nat.lt_of_not_le hfits)]
      rfl
  · rename_i htune
    rw [Sound.sample?_of_not_inTune _ _ htune]
    rfl

end Synth

/-! ### Events -/

/-- The place of an event: the sample at which it starts, if all of it fits. -/
structure Timebase.Places (timebase : Timebase) (event : Event) (start : Nat) : Prop where
  sampleAt_eq : timebase.sampleAt event.timestamp = some start
  stop_le : start + timebase.samplesFor event.sound.duration ≤ maxSamples

namespace Synth

variable {synth synth' : Synth} {event : Event} {tracks tracks' : Tracks}

/-- The tracks after an event that is in tune was played at a sample. -/
def placed (synth : Synth) (event : Event) (start : Nat) (tracks : Tracks) : Tracks :=
  tracks.set event.track ((tracks.get event.track).layer start (synth.timebase.samplesFor event.sound.duration)
    (event.sound.wave synth.timebase (Voice.ofTrack event.track) synth.noise))

theorem render?_of_places {start : Nat} (htune : event.sound.InTune) (h : synth.timebase.Places event start) :
    synth.render? event tracks = .ok (synth.past event.sound, synth.placed event start tracks) := by
  unfold render?
  rw [h.sampleAt_eq]
  show Tracks.modify? _ _ _ = _
  rw [Tracks.modify?_eq, play?_eq, if_pos htune, if_pos h.stop_le]
  rfl

theorem render?_of_not_places (htune : event.sound.InTune) (h : ∀ start, ¬synth.timebase.Places event start) :
    synth.render? event tracks = .error .tooLong := by
  unfold render?
  split
  · rfl
  · rename_i start hstart
    have hlong : ¬start + synth.timebase.samplesFor event.sound.duration ≤ maxSamples :=
      fun hstop => h start ⟨hstart, hstop⟩
    rw [Tracks.modify?_eq, play?_eq, if_pos htune, if_neg hlong]
    rfl

private theorem inTune_of_render?_eq_ok (h : synth.render? event tracks = .ok (synth', tracks')) :
    event.sound.InTune := by
  by_contra htune
  unfold render? at h
  split at h
  · cases h
  · rw [Tracks.modify?_eq, play?_eq, if_neg htune] at h
    cases h

/-- An event is played exactly if it is in tune and has its place. -/
theorem render?_eq_ok_iff :
    synth.render? event tracks = .ok (synth', tracks') ↔
      event.sound.InTune ∧ ∃ start, synth.timebase.Places event start ∧
        synth' = synth.past event.sound ∧ tracks' = synth.placed event start tracks := by
  constructor
  · intro h
    have htune := inTune_of_render?_eq_ok h
    by_cases hplaces : ∃ start, synth.timebase.Places event start
    · obtain ⟨start, hstart⟩ := hplaces
      rw [render?_of_places htune hstart] at h
      obtain ⟨rfl, rfl⟩ := Prod.mk.inj (Except.ok.inj h)
      exact ⟨htune, start, hstart, rfl, rfl⟩
    · rw [render?_of_not_places htune (not_exists.1 hplaces)] at h
      cases h
  · rintro ⟨htune, start, hstart, rfl, rfl⟩
    exact render?_of_places htune hstart

/-! ### Several events -/

theorem renderAll?_cons_of_render?_eq_ok {events : List Event}
    (h : synth.render? event tracks = .ok (synth', tracks')) :
    synth.renderAll? (event :: events) tracks = synth'.renderAll? events tracks' := by
  rw [renderAll?, h]
  rfl

theorem renderAll?_cons_of_render?_eq_error {events : List Event} {e : AudioError}
    (h : synth.render? event tracks = .error e) : synth.renderAll? (event :: events) tracks = .error e := by
  rw [renderAll?, h]
  rfl

/-- If events are played one after the other, then the first one is played and the others after it. -/
theorem exists_of_renderAll?_cons {events : List Event} {result : Synth × Tracks}
    (h : synth.renderAll? (event :: events) tracks = .ok result) :
    ∃ synth' tracks', synth.render? event tracks = .ok (synth', tracks') ∧
      synth'.renderAll? events tracks' = .ok result := by
  cases hfirst : synth.render? event tracks with
  | error e =>
    rw [renderAll?_cons_of_render?_eq_error hfirst] at h
    cases h
  | ok first =>
    rw [renderAll?_cons_of_render?_eq_ok hfirst] at h
    exact ⟨first.1, first.2, rfl, h⟩

/-- Events that are played one after the other are played up to any of them, and on from there. -/
theorem exists_of_renderAll?_append {before after : List Event} {result : Synth × Tracks}
    (h : synth.renderAll? (before ++ after) tracks = .ok result) :
    ∃ reached changed, synth.renderAll? before tracks = .ok (reached, changed) ∧
      reached.renderAll? after changed = .ok result := by
  induction before generalizing synth tracks with
  | nil => exact ⟨synth, tracks, rfl, h⟩
  | cons event before ih =>
    obtain ⟨next, changed, hfirst, hrest⟩ := exists_of_renderAll?_cons h
    obtain ⟨reached, later, hbefore, hafter⟩ := ih hrest
    exact ⟨reached, later, (renderAll?_cons_of_render?_eq_ok hfirst).trans hbefore, hafter⟩

end Synth

end Ostinato
