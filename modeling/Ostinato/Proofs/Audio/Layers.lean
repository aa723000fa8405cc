import Ostinato.Proofs.Audio.Extent

/-!
# Tracks as layers

A track is the sum of the events that are played on it.  At every sample it holds what the events that are heard there
add, one after the other from silence on, each with the noise that is left when its turn comes
(`Synth.getElem?_get_of_renderAll?`).  The events of other tracks draw no noise that a track could miss, so they may as
well be left out (`Timebase.heard_filter`).
-/

namespace Ostinato

/-! ### What is heard -/

/-- A sound that draws no noise does not depend on it. -/
private theorem Sound.wave_congr {sound : Sound} (h : sound.isNoisy = false) (timebase : Timebase) (voice : Voice)
    (noise other : Noise) : sound.wave timebase voice noise = sound.wave timebase voice other := by
  cases sound with
  | note n => rfl
  | chord c => rfl
  | drum d =>
    funext i
    have hsample := DrumKind.drumSample_congr h d.velocity (noise.number i) (other.number i)
    simp only [wave, hsample]

/-- Only the drums are noisy. -/
private theorem Sound.isNoisy_of_track_ne {sound : Sound} (h : sound.track ≠ .drums) : sound.isNoisy = false := by
  cases sound with
  | note n => rfl
  | chord c => rfl
  | drum d => exact absurd rfl h

namespace Timebase

variable {timebase : Timebase} {track : Track} {i : Nat} {noise : Noise} {event : Event} {events : List Event}

/-- The number of the sample of an event that falls on the `i`th sample of its track, if one does. -/
def offset? (timebase : Timebase) (event : Event) (i : Nat) : Option Nat :=
  (timebase.sampleAt event.timestamp).bind fun start =>
    if start ≤ i ∧ i < start + timebase.samplesFor event.sound.duration then some (i - start) else none

/-- What an event adds to the `i`th sample of a track if it is played with the given noise. -/
def heard? (timebase : Timebase) (track : Track) (i : Nat) (noise : Noise) (event : Event) : Option Float32 :=
  if event.track = track then
    (timebase.offset? event i).map (event.sound.wave timebase (Voice.ofTrack track) noise)
  else none

/-- The events, each with the noise that is left when its turn comes. -/
def reached (timebase : Timebase) : Noise → List Event → List (Noise × Event)
  | _, [] => []
  | noise, event :: events => (noise, event) :: reached timebase (noise.after (timebase.draws event.sound)) events

/-- What the events add to the `i`th sample of a track, one after the other. -/
def heard (timebase : Timebase) (track : Track) (i : Nat) (noise : Noise) (events : List Event) : List Float32 :=
  (timebase.reached noise events).filterMap fun entry => timebase.heard? track i entry.1 entry.2

theorem heard_cons : timebase.heard track i noise (event :: events) =
    (timebase.heard? track i noise event).toList ++
      timebase.heard track i (noise.after (timebase.draws event.sound)) events := by
  unfold heard
  rw [reached, List.filterMap_cons]
  cases timebase.heard? track i noise event <;> rfl

/-- Where no event of a track falls, nothing is heard. -/
private theorem heard_eq_nil (h : ∀ event ∈ events, event.track = track → timebase.offset? event i = none) :
    timebase.heard track i noise events = [] := by
  induction events generalizing noise with
  | nil => rfl
  | cons event events ih =>
    obtain ⟨hevent, hevents⟩ := List.forall_mem_cons.1 h
    have hsilent : timebase.heard? track i noise event = none := by
      unfold heard?
      split
      · rename_i htrack
        rw [hevent htrack, Option.map_none]
      · rfl
    rw [heard_cons, hsilent, ih hevents]
    rfl

private theorem draws_of_track_ne (h : event.track ≠ .drums) : timebase.draws event.sound = 0 := by
  unfold draws
  rw [Sound.isNoisy_of_track_ne h]
  rfl

private theorem heard?_congr {other : Noise} (h : track = .drums → noise = other) :
    timebase.heard? track i noise event = timebase.heard? track i other event := by
  by_cases hdrums : track = .drums
  · rw [h hdrums]
  · unfold heard?
    split
    · rename_i htrack
      have hquiet : event.sound.isNoisy = false := Sound.isNoisy_of_track_ne fun he => hdrums (htrack.symm.trans he)
      rw [Sound.wave_congr hquiet timebase (Voice.ofTrack track) noise other]
    · rfl

/-- What is heard on a track depends on its own events only, and only that of the drums on the noise. -/
theorem heard_filter {other : Noise} (h : track = .drums → noise = other) :
    timebase.heard track i noise events = timebase.heard track i other (events.filter (·.track = track)) := by
  induction events generalizing noise other with
  | nil => rfl
  | cons event events ih =>
    by_cases htrack : event.track = track
    · have hlater : track = .drums →
          noise.after (timebase.draws event.sound) = other.after (timebase.draws event.sound) := by
        intro hdrums
        rw [h hdrums]
      rw [List.filter_cons_of_pos (by simpa using htrack), heard_cons, heard_cons, heard?_congr h, ih hlater]
    · have hlater : track = .drums → noise.after (timebase.draws event.sound) = other := by
        intro hdrums
        have hquiet : timebase.draws event.sound = 0 := draws_of_track_ne fun he => htrack (he.trans hdrums.symm)
        rw [hquiet, Noise.after_zero, h hdrums]
      have hsilent : timebase.heard? track i noise event = none := if_neg htrack
      rw [List.filter_cons_of_neg (by simpa using htrack), heard_cons, hsilent, ih hlater]
      rfl

end Timebase

/-! ### Sums -/

namespace Synth

variable {synth synth' : Synth} {tracks tracks' : Tracks} {events : List Event}

/-- An event adds to the samples on which it falls, and to no others. -/
private theorem getElem?_get_placed {event : Event} {start : Nat} (h : synth.timebase.Places event start)
    (track : Track) (i : Nat) :
    ((synth.placed event start tracks).get track)[i]?.getD 0.0 =
      (synth.timebase.heard? track i synth.noise event).toList.foldl (· + ·) ((tracks.get track)[i]?.getD 0.0) := by
  unfold placed Timebase.heard? Timebase.offset?
  rw [Tracks.get_set, h.sampleAt_eq, Option.bind_some]
  by_cases htrack : event.track = track
  · subst htrack
    rw [if_pos rfl, if_pos rfl, Buffer.getElem?_layer]
    by_cases hspan : start ≤ i ∧ i < start + synth.timebase.samplesFor event.sound.duration
    · have hinside : i <
          max (tracks.get event.track).size (start + synth.timebase.samplesFor event.sound.duration) := by
        omega
      rw [if_pos hinside, if_pos hspan, if_pos hspan]
      rfl
    · rw [if_neg hspan, if_neg hspan]
      by_cases hinside :
          i < max (tracks.get event.track).size (start + synth.timebase.samplesFor event.sound.duration)
      · rw [if_pos hinside]
        rfl
      · -- behind the end there is nothing, before and after
        have hnone : (tracks.get event.track)[i]? = none := Array.getElem?_eq_none (by omega)
        rw [if_neg hinside, hnone]
        rfl
  · rw [if_neg htrack, if_neg htrack]
    rfl

/-- Every sample is the sum of what is heard there, in the order in which the events are played. -/
theorem getElem?_get_of_renderAll? (h : synth.renderAll? events tracks = .ok (synth', tracks')) (track : Track)
    (i : Nat) :
    (tracks'.get track)[i]?.getD 0.0 =
      (synth.timebase.heard track i synth.noise events).foldl (· + ·) ((tracks.get track)[i]?.getD 0.0) := by
  induction events generalizing synth tracks with
  | nil =>
    obtain ⟨rfl, rfl⟩ := Prod.mk.inj (Except.ok.inj h)
    rfl
  | cons event events ih =>
    obtain ⟨next, changed, hfirst, hrest⟩ := exists_of_renderAll?_cons h
    obtain ⟨-, start, hplaces, rfl, rfl⟩ := render?_eq_ok_iff.1 hfirst
    rw [ih hrest, getElem?_get_placed hplaces, Timebase.heard_cons, List.foldl_append]
    rfl

/-- Events that are played one after the other into empty tracks make layers.  A track is as long as the last of its
events needs it to be; each of its samples is the sum of what the events of the track that fall on it add, in the order
in which they are played and from silence on; where none falls it is silent; and what events of other tracks are played
makes no difference. -/
theorem renderAll?_layers (h : synth.renderAll? events {} = .ok (synth', tracks)) (track : Track) :
    (tracks.get track).size = synth.timebase.lastStop (events.filter (·.track = track)) ∧
      (∀ i (hi : i < (tracks.get track).size),
        (tracks.get track)[i] = (synth.timebase.heard track i synth.noise events).foldl (· + ·) 0.0) ∧
      (∀ i (hi : i < (tracks.get track).size),
        (∀ event ∈ events, event.track = track → synth.timebase.offset? event i = none) →
          (tracks.get track)[i] = 0.0) ∧
      ∀ i, synth.timebase.heard track i synth.noise events =
        synth.timebase.heard track i synth.noise (events.filter (·.track = track)) := by
  have hsum : ∀ i (hi : i < (tracks.get track).size),
      (tracks.get track)[i] = (synth.timebase.heard track i synth.noise events).foldl (· + ·) 0.0 := by
    intro i hi
    have hvalue := getElem?_get_of_renderAll? h track i
    rwa [Array.getElem?_eq_getElem hi, Option.getD_some, Tracks.get_empty] at hvalue
  refine ⟨?_, hsum, ?_, fun i => Timebase.heard_filter fun _ => rfl⟩
  · rw [size_get_of_renderAll? h, Tracks.get_empty]
    exact Nat.zero_max _
  · intro i hi hfree
    rw [hsum i hi, Timebase.heard_eq_nil hfree]
    rfl

/-- Two snares with a pause between them, and two notes that overlap. -/
def overlap : List Event :=
  [⟨0, .drum ⟨.snare, 127, 2⟩⟩, ⟨0, .note ⟨69, 100, 3⟩⟩, ⟨1, .note ⟨57, 64, 3⟩⟩, ⟨3, .drum ⟨.snare, 90, 2⟩⟩]

/-- A synthesizer that makes a sample for each tick. -/
def slow : Synth := ⟨⟨960⟩, .ofSeed 7⟩

theorem exists_renderAll?_overlap : ∃ result, slow.renderAll? overlap {} = .ok result := by
  apply exists_renderAll?_of_places
  · simp only [overlap, List.forall_mem_cons]
    exact ⟨by decide, by decide, by decide, by decide, List.forall_mem_nil _⟩
  · simp only [overlap, List.forall_mem_cons]
    exact ⟨⟨0, by decide, by decide⟩, ⟨0, by decide, by decide⟩, ⟨1, by decide, by decide⟩,
      ⟨3, by decide, by decide⟩, List.forall_mem_nil _⟩

theorem renderAll?_layers_overlap :
    ∃ synth' tracks, slow.renderAll? overlap {} = .ok (synth', tracks) ∧
      tracks.bass.size = 4 ∧ tracks.drums.size = 5 ∧
      tracks.bass[2]? = some (0.0 + (Sound.note ⟨69, 100, 3⟩).wave ⟨960⟩ .bass ((Noise.ofSeed 7).after 2) 2 +
        (Sound.note ⟨57, 64, 3⟩).wave ⟨960⟩ .bass ((Noise.ofSeed 7).after 2) 1) ∧
      tracks.drums[2]? = some (0.0 : Float32) ∧
      tracks.drums[4]? = some (0.0 + (Sound.drum ⟨.snare, 90, 2⟩).wave ⟨960⟩ .bass ((Noise.ofSeed 7).after 2) 1) := by
  obtain ⟨⟨synth', tracks⟩, h⟩ := exists_renderAll?_overlap
  obtain ⟨hbass, hbassSum, -, -⟩ := renderAll?_layers h .bass
  obtain ⟨hdrums, hdrumsSum, hdrumsFree, -⟩ := renderAll?_layers h .drums
  have hbassSize : tracks.bass.size = 4 := hbass.trans (by decide)
  have hdrumsSize : tracks.drums.size = 5 := hdrums.trans (by decide)
  refine ⟨synth', tracks, h, hbassSize, hdrumsSize, ?_, ?_, ?_⟩
  · rw [Array.getElem?_eq_getElem (by omega)]
    exact congrArg some (hbassSum 2 (by rw [hbass]; decide))
  · rw [Array.getElem?_eq_getElem (by omega)]
    refine congrArg some (hdrumsFree 2 (by rw [hdrums]; decide) ?_)
    simp only [overlap, List.forall_mem_cons]
    exact ⟨by decide, by decide, by decide, by decide, List.forall_mem_nil _⟩
  · rw [Array.getElem?_eq_getElem (by omega)]
    exact congrArg some (hdrumsSum 4 (by rw [hdrums]; decide))

end Synth

end Ostinato
