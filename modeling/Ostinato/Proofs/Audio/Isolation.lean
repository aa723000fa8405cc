import Ostinato.Proofs.Audio.Layers

/-!
# Isolated tracks

All tracks draw from one source of noise, but only snares and hi-hats draw from it, one number for each of their samples
(`Synth.noise_of_renderAll?`).  So what is played on a track is decided by the events of this track alone, for the drums
together with the noise at the start, and it is known which number each sample of a noisy hit uses
(`Synth.renderAll?_isolated`).
-/

namespace Ostinato

open Numeric

/-- The random numbers that events draw are those for the samples of the noisy ones. -/
private theorem Timebase.sum_draws (timebase : Timebase) (events : List Event) :
    (events.map fun event => timebase.draws event.sound).sum =
      ((events.filter (·.sound.isNoisy)).map fun event => timebase.samplesFor event.sound.duration).sum := by
  induction events with
  | nil => rfl
  | cons event events ih =>
    rw [List.map_cons, List.sum_cons, ih, draws, List.filter_cons]
    cases event.sound.isNoisy with
    | true => rfl
    | false => exact Nat.zero_add _

namespace Synth

variable {synth synth' : Synth} {tracks tracks' : Tracks} {events : List Event}

/-! ### The use of the noise -/

theorem noise_of_renderAll? (h : synth.renderAll? events tracks = .ok (synth', tracks')) :
    synth' = { synth with
      noise := synth.noise.after (events.map fun event => synth.timebase.draws event.sound).sum } := by
  induction events generalizing synth tracks with
  | nil =>
    obtain ⟨rfl, rfl⟩ := Prod.mk.inj (Except.ok.inj h)
    rfl
  | cons event events ih =>
    obtain ⟨next, changed, hfirst, hrest⟩ := exists_of_renderAll?_cons h
    obtain ⟨-, start, hplaces, rfl, rfl⟩ := render?_eq_ok_iff.1 hfirst
    rw [ih hrest, List.map_cons, List.sum_cons, Noise.after_add]
    rfl

/-! ### Tracks -/

/-- What is played on a track is decided by its own events, and for the drums by the noise. -/
private theorem get_eq_of_filter_eq {timebase : Timebase} {noise other : Noise} {others : List Event}
    (h : Synth.renderAll? ⟨timebase, noise⟩ events {} = .ok (synth, tracks))
    (hothers : Synth.renderAll? ⟨timebase, other⟩ others {} = .ok (synth', tracks')) {track : Track}
    (hfilter : events.filter (·.track = track) = others.filter (·.track = track))
    (hnoise : track = .drums → noise = other) : tracks.get track = tracks'.get track := by
  have hsize : (tracks.get track).size = (tracks'.get track).size := by
    rw [size_get_of_renderAll? h, size_get_of_renderAll? hothers, hfilter]
  apply Array.ext hsize
  intro i hi hi'
  have hheard : timebase.heard track i noise events = timebase.heard track i other others := by
    rw [Timebase.heard_filter hnoise, hfilter]
    exact (Timebase.heard_filter fun _ => rfl).symm
  have hvalue := getElem?_get_of_renderAll? h track i
  have hvalue' := getElem?_get_of_renderAll? hothers track i
  rw [Array.getElem?_eq_getElem hi, Option.getD_some] at hvalue
  rw [Array.getElem?_eq_getElem hi', Option.getD_some] at hvalue'
  rw [hvalue, hvalue', hheard]

/-! ### Hits -/

/-- A hit adds a number to each of its samples that is made of the noise it meets. -/
private theorem getElem?_drums_of_render? {stamp : Ticks} {hit : Drum}
    (h : synth.render? ⟨stamp, .drum hit⟩ tracks = .ok (synth', tracks')) :
    ∃ start, synth.timebase.sampleAt stamp = some start ∧
      ∀ j < synth.timebase.samplesFor hit.duration, tracks'.drums[start + j]? =
        some (tracks.drums[start + j]?.getD 0.0 + narrow (drumSample hit.kind hit.velocity
          (Noise.ofWord (synth.noise.word (synth.noise.drawn + j))) (synth.timebase.seconds (UInt64.ofNat j)))) := by
  obtain ⟨-, start, hplaces, -, rfl⟩ := render?_eq_ok_iff.1 h
  refine ⟨start, hplaces.sampleAt_eq, fun j hj => ?_⟩
  have hinside : start + j < max tracks.drums.size (start + synth.timebase.samplesFor hit.duration) := by omega
  have hspan : start ≤ start + j ∧ start + j < start + synth.timebase.samplesFor hit.duration := by omega
  show (tracks.drums.layer start (synth.timebase.samplesFor hit.duration) _)[start + j]? = _
  rw [Buffer.getElem?_layer, if_pos hinside, if_pos hspan, Nat.add_sub_cancel_left, Sound.wave, Noise.number_eq]

/-- An event uses up one random number for each of its samples if it is a snare or a hi-hat, and none otherwise.  So two
tracks with the same events are the same, whatever else is played between them and, but for the drums, whatever the
noise; and what the samples of a hit have of the noise are the numbers behind those of the noisy hits before it. -/
theorem renderAll?_isolated :
    (∀ synth event tracks synth' tracks', render? synth event tracks = .ok (synth', tracks') →
      synth' = { synth with noise := { synth.noise with drawn := synth.noise.drawn +
        if event.sound.isNoisy then synth.timebase.samplesFor event.sound.duration else 0 } }) ∧
    (∀ timebase noise other events others synth tracks synth' tracks',
      renderAll? ⟨timebase, noise⟩ events {} = .ok (synth, tracks) →
      renderAll? ⟨timebase, other⟩ others {} = .ok (synth', tracks') →
      ∀ track, events.filter (·.track = track) = others.filter (·.track = track) →
        (track = .drums → noise = other) → tracks.get track = tracks'.get track) ∧
    ∀ synth before stamp hit after tracks result,
      renderAll? synth (before ++ ⟨stamp, .drum hit⟩ :: after) tracks = .ok result →
      ∃ reached changed next later start, synth.renderAll? before tracks = .ok (reached, changed) ∧
        reached.render? ⟨stamp, .drum hit⟩ changed = .ok (next, later) ∧
        next.renderAll? after later = .ok result ∧
        synth.timebase.sampleAt stamp = some start ∧
        ∀ j < synth.timebase.samplesFor hit.duration, later.drums[start + j]? =
          some (changed.drums[start + j]?.getD 0.0 + narrow (drumSample hit.kind hit.velocity
            (Noise.ofWord (synth.noise.word (synth.noise.drawn + ((before.filter (·.sound.isNoisy)).map
              fun event => synth.timebase.samplesFor event.sound.duration).sum + j)))
            (synth.timebase.seconds (UInt64.ofNat j)))) := by
  refine ⟨?_, ?_, ?_⟩
  · intro synth event tracks synth' tracks' h
    obtain ⟨-, start, -, rfl, -⟩ := render?_eq_ok_iff.1 h
    rw [past, Noise.after_eq, Timebase.draws]
  · intro timebase noise other events others synth tracks synth' tracks' h hothers track hfilter hnoise
    exact get_eq_of_filter_eq h hothers hfilter hnoise
  · intro synth before stamp hit after tracks result h
    obtain ⟨reached, changed, hbefore, hafter⟩ := exists_of_renderAll?_append h
    obtain ⟨next, later, hhit, hrest⟩ := exists_of_renderAll?_cons hafter
    have hreached := noise_of_renderAll? hbefore
    rw [Timebase.sum_draws, Noise.after_eq] at hreached
    obtain ⟨start, hstart, hsamples⟩ := getElem?_drums_of_render? hhit
    rw [hreached] at hstart hsamples
    exact ⟨reached, changed, next, later, start, hbefore, hhit, hrest, hstart, hsamples⟩

/-- The notes of `overlap` with other hits around them. -/
def otherwise : List Event :=
  [⟨0, .note ⟨69, 100, 3⟩⟩, ⟨0, .drum ⟨.hiHat, 90, 5⟩⟩, ⟨1, .note ⟨57, 64, 3⟩⟩]

theorem renderAll?_isolated_otherwise :
    ∃ (synth synth' reached next : Synth) (tracks tracks' changed later : Tracks),
      slow.renderAll? overlap {} = .ok (synth, tracks) ∧
      renderAll? ⟨⟨960⟩, .ofSeed 8⟩ otherwise {} = .ok (synth', tracks') ∧
      tracks.bass = tracks'.bass ∧
      reached.render? ⟨3, .drum ⟨.snare, 90, 2⟩⟩ changed = .ok (next, later) ∧
      next.noise.drawn = reached.noise.drawn + 2 ∧
      later.drums[4]? = some (changed.drums[4]?.getD 0.0 + narrow (drumSample .snare 90
        (Noise.ofWord ((Noise.ofSeed 7).word 3)) (Timebase.seconds ⟨960⟩ 1))) := by
  have hotherwise : ∃ result, renderAll? ⟨⟨960⟩, .ofSeed 8⟩ otherwise {} = .ok result := by
    apply exists_renderAll?_of_places
    · simp only [otherwise, List.forall_mem_cons]
      exact ⟨by decide, by decide, by decide, List.forall_mem_nil _⟩
    · simp only [otherwise, List.forall_mem_cons]
      exact ⟨⟨0, by decide, by decide⟩, ⟨0, by decide, by decide⟩, ⟨1, by decide, by decide⟩, List.forall_mem_nil _⟩
  obtain ⟨⟨synth, tracks⟩, h⟩ := exists_renderAll?_overlap
  obtain ⟨⟨synth', tracks'⟩, h'⟩ := hotherwise
  obtain ⟨hdraws, htracks, hhits⟩ := renderAll?_isolated
  have hbass := htracks _ _ _ _ _ _ _ _ _ h h' .bass (by decide) nofun
  obtain ⟨reached, changed, next, later, start, hbefore, hhit, -, hstart, hsamples⟩ :=
    hhits slow (overlap.take 3) 3 ⟨.snare, 90, 2⟩ [] {} (synth, tracks) h
  have hsample := hsamples 1 (by decide)
  obtain rfl : 3 = start := Option.some.inj ((by decide : slow.timebase.sampleAt 3 = some 3).symm.trans hstart)
  have hdrawn : ((((overlap.take 3).filter (·.sound.isNoisy)).map
    fun event => slow.timebase.samplesFor event.sound.duration).sum) = 2 := by decide
  rw [hdrawn] at hsample
  have htimebase : reached.timebase = slow.timebase := by rw [noise_of_renderAll? hbefore]
  have htwo : Timebase.samplesFor ⟨960⟩ 2 = 2 := by decide
  have hnext : next.noise.drawn = reached.noise.drawn + 2 := by
    rw [hdraws _ _ _ _ _ hhit, htimebase]
    exact congrArg (reached.noise.drawn + ·) htwo
  exact ⟨synth, synth', reached, next, tracks, tracks', changed, later, h, h', hbass, hhit, hnext, hsample⟩

end Synth

end Ostinato
