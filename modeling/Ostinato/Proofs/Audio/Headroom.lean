import Mathlib
import Ostinato.Audio.Render
import Ostinato.Proofs.Audio.Layers
import Ostinato.Proofs.Audio.Loudness
import Ostinato.Proofs.Audio.Mixing
import Ostinato.Proofs.Numeric.Order

/-!
# Headroom of the mix

Every number is limited to `[-0.8, 0.8]`, also an infinite one (`softLimit_between`); both ends are reached, because a
hyperbolic tangent in single precision is one from some size on.  So a sample of the mix is within these bounds or no
number at all.  It can be the latter only if an event that is heard there has an angle that is not finite: the samples
of the bass and of the drums are so small that no sum of them, however many they are, becomes infinite, so that
infinities of different signs do not meet (`renderWith_between`).
-/

namespace Ostinato

open Numeric

/-! ### Limiting -/

/-- What can be compared is a number. -/
private theorem isNaN_of_ge {x : Float32} (h : -0.8 ≤ x) : x.isNaN = false :=
  (isNaN_of_le (float32_le_iff.1 h)).2

private theorem isNaN_softLimit {x : Float32} (h : x.isNaN = true) : (softLimit x).isNaN = true := by
  obtain rfl : x = Float32.nan := by simpa using h
  decide

/-- A limited number is within the bounds, ends included. -/
theorem softLimit_between {x : Float32} (h : x.isNaN = false) : -0.8 ≤ softLimit x ∧ softLimit x ≤ 0.8 := by
  obtain ⟨m, e, hm, hgain⟩ : ∃ m e, ∃ hm : 0 < m, (0.7 : Float32).toModel.unpack = .finite .positive m e hm :=
    ⟨_, _, by decide, rfl⟩
  have hdriven : (x * 0.7).isNaN = false := by
    refine @isNaN_unpack_pack .binary32 _ ?_
    rw [hgain]
    exact isNaN_mul h
  obtain ⟨s, htanh⟩ := exists_single_tanhSingle hdriven
  have hbound : Single .positive 0 0.8 := single_of_isBelow (by decide)
  -- the bound itself is a number of the format, so that rounding the product does not take it past the bound
  have hnearest := nearest_mul htanh.canonical hbound.canonical
  have hsize := hnearest.size_le hbound.canonical.inFormat
    (mul_le_of_le_one_left (size_nonneg _) (htanh.size_le.trans_eq (pow_zero _)))
  have hback : (softLimit x).toModel.unpack =
      (tanhSingle (x * 0.7)).toModel.unpack.mul .binary32 (0.8 : Float32).toModel.unpack :=
    Below.unpack_pack ⟨hnearest.canonical, hsize.trans hbound.size_le⟩ (by decide) (by decide)
  have hneg : (-0.8 : Float32).toModel.unpack = (0.8 : Float32).toModel.unpack.neg := rfl
  rw [← hback] at hsize hnearest
  obtain ⟨hbelow, habove⟩ := hnearest.canonical.between_of_size_le hbound.canonical hsize
  exact ⟨float32_le_iff.2 (by rwa [hneg]), float32_le_iff.2 habove⟩

/-! ### Sums -/

section

variable {x y sum : Float32} {xs : List Float32} {j k : ℕ}

private theorem isNaN_float32_add (hx : x.isNaN = false) (hy : y.isNaN = false)
    (h : x.isFinite = true ∨ y.isFinite = true) : (x + y).isNaN = false :=
  @isNaN_unpack_pack .binary32 _ (isNaN_add hx hy h)

private theorem exists_single_foldl (hjk : j + 25 ≤ k) (hk : k ≤ 127) (h : ∀ x ∈ xs, ∃ s, Single s j x)
    (hsum : ∃ s, Single s k sum) : ∃ s, Single s k (xs.foldl (· + ·) sum) := by
  refine List.foldlRecOn (motive := fun sum => ∃ s, Single s k sum) xs (· + ·) hsum fun sum hsum x hx => ?_
  obtain ⟨_, hsum⟩ := hsum
  obtain ⟨_, hx⟩ := h x hx
  exact hsum.absorb hx hjk hk

/-- A sum of finite numbers may become infinite, but then it stays so. -/
private theorem isNaN_foldl (h : ∀ x ∈ xs, ∃ s, Single s j x) (hsum : sum.isNaN = false) :
    (xs.foldl (· + ·) sum).isNaN = false := by
  refine List.foldlRecOn (motive := fun sum => sum.isNaN = false) xs (· + ·) hsum fun sum hsum x hx => ?_
  obtain ⟨_, hx⟩ := h x hx
  exact isNaN_float32_add hsum hx.canonical.isNaN_eq_false (.inr hx.isFinite)

end

/-! ### What is heard -/

namespace Timebase

variable {timebase : Timebase} {track : Track} {noise : Noise} {event : Event} {events : List Event} {i j : ℕ}

private theorem exists_of_mem_heard {x : Float32} (h : x ∈ timebase.heard track i noise events) :
    ∃ event ∈ events, event.track = track ∧ ∃ j, timebase.offset? event i = some j ∧
      ∃ other, x = event.sound.wave timebase (Voice.ofTrack track) other j := by
  induction events generalizing noise with
  | nil => cases h
  | cons event events ih =>
    rw [heard_cons, List.mem_append, Option.mem_toList] at h
    rcases h with hfirst | hlater
    · unfold heard? at hfirst
      split at hfirst
      · rename_i htrack
        obtain ⟨j, hj, rfl⟩ := Option.map_eq_some_iff.1 hfirst
        exact ⟨event, List.mem_cons_self, htrack, j, hj, noise, rfl⟩
      · cases hfirst
    · obtain ⟨event', hmem, hevent'⟩ := ih hlater
      exact ⟨event', List.mem_cons_of_mem _ hmem, hevent'⟩

/-- An event that is heard has samples, and so has a second. -/
private theorem sampleRate_ne_zero_of_offset? (h : timebase.offset? event i = some j) : timebase.sampleRate ≠ 0 := by
  intro hrate
  unfold offset? at h
  obtain ⟨start, -, hspan⟩ := Option.bind_eq_some_iff.1 h
  rw [samplesFor_of_sampleRate_eq_zero hrate] at hspan
  split at hspan
  · rename_i hinside
    omega
  · cases hspan

/-- The events that fall on a sample have no angle there that is not finite. -/
def HasAngles (timebase : Timebase) (events : List Event) (i : ℕ) : Prop :=
  ∀ event ∈ events, ∀ j, timebase.offset? event i = some j → event.sound.HasAngles timebase j

private theorem exists_single_of_mem_heard (h : timebase.HasAngles events i) :
    ∀ x ∈ timebase.heard track i noise events, ∃ s, Single s track.headroom x := by
  intro x hx
  obtain ⟨event, hmem, rfl, j, hj, other, rfl⟩ := exists_of_mem_heard hx
  exact Sound.exists_single_wave (sampleRate_ne_zero_of_offset? hj) _ other (h event hmem j hj)

end Timebase

/-! ### Mixing -/

namespace Tracks

variable {tracks : Tracks} {i : ℕ}

/-- A sum of samples that are numbers is a number, if at most the one of the guitar is infinite. -/
private theorem isNaN_mixed {k : ℕ} (hbass : ∃ s, Single s k (tracks.bass[i]?.getD 0.0)) (hk : k < 127)
    (hguitar : (tracks.guitar[i]?.getD 0.0).isNaN = false) (hdrums : ∃ s, Single s k (tracks.drums[i]?.getD 0.0)) :
    (tracks.mixed i).isNaN = false := by
  obtain ⟨_, hbass⟩ := hbass
  obtain ⟨_, hdrums⟩ := hdrums
  have hsilence : Single .positive k 0.0 := single_of_isBelow rfl
  have hfirst : ∃ s, Single s (k + 1) (if i < tracks.bass.size then 0.0 + tracks.bass[i]?.getD 0.0 else 0.0) := by
    split
    · exact hsilence.add hbass hk
    · exact ⟨_, hsilence.mono (Nat.le_succ k)⟩
  obtain ⟨_, hfirst⟩ := hfirst
  have hstep : ∀ (inside : Prop) [Decidable inside] (x y : Float32), x.isNaN = false → y.isNaN = false →
      x.isFinite = true ∨ y.isFinite = true → (if inside then x + y else x).isNaN = false := by
    intro inside _ x y hx hy h
    split
    · exact isNaN_float32_add hx hy h
    · exact hx
  exact hstep _ _ _ (hstep _ _ _ hfirst.canonical.isNaN_eq_false hguitar (.inl hfirst.isFinite))
    hdrums.canonical.isNaN_eq_false (.inr hdrums.isFinite)

end Tracks

/-! ### Renders -/

section

variable {noise : Noise} {program : Program} {config : RenderConfig} {rendered : Render} {i : ℕ}

/-- What is rendered is played from empty tracks on, then mixed. -/
private theorem exists_of_renderWith (h : renderWith noise program config = .ok rendered) :
    (∃ synth', Synth.renderAll? ⟨config.timebase, noise⟩ rendered.events {} = .ok (synth', rendered.tracks)) ∧
      ∃ length, rendered.master = (rendered.tracks.sum length).map softLimit := by
  obtain ⟨hplayed, hmix⟩ := of_renderWith h
  refine ⟨hplayed, max rendered.tracks.length (rendered.tracks.length + config.tail), ?_⟩
  rw [Tracks.mixdown?_eq, if_pos (Tracks.of_mixdown? hmix).1] at hmix
  exact (Except.ok.inj hmix).symm

/-- Where all angles are finite, the sum of what was played is a number. -/
private theorem isNaN_mixed_of_renderAll? {synth synth' : Synth} {events : List Event} {tracks : Tracks}
    (h : synth.renderAll? events {} = .ok (synth', tracks)) (hangles : synth.timebase.HasAngles events i) :
    (tracks.mixed i).isNaN = false := by
  have hsum := fun track => Synth.getElem?_get_of_renderAll? h track i
  have hsilence : ∀ track, ((Tracks.get {} track)[i]?.getD 0.0 : Float32) = 0.0 := by
    intro track
    rw [Tracks.get_empty]
    rfl
  have hheard : ∀ track, ∀ x ∈ synth.timebase.heard track i synth.noise events,
      ∃ s, Single s track.headroom x := fun track => Timebase.exists_single_of_mem_heard hangles
  have hquiet : ∀ track, track.headroom + 25 ≤ 95 → ∃ s, Single s 95 ((tracks.get track)[i]?.getD 0.0) := by
    intro track htrack
    rw [hsum, hsilence]
    exact exists_single_foldl htrack (by decide) (hheard track) ⟨.positive, single_of_isBelow rfl⟩
  -- the bound on chords is too weak to keep sums of them finite, but it is enough for them to be numbers
  have hguitar : ((tracks.get .guitar)[i]?.getD 0.0).isNaN = false := by
    rw [hsum, hsilence]
    exact isNaN_foldl (hheard .guitar) (by decide)
  exact Tracks.isNaN_mixed (hquiet .bass (by decide)) (by decide) hguitar (hquiet .drums (by decide))

/-- Every sample of a rendered mix is no number or within `[-0.8, 0.8]`, with any noise; and it is a number unless an
event that falls on it has an angle there that is not finite. -/
theorem renderWith_between (h : renderWith noise program config = .ok rendered) (hi : i < rendered.master.size) :
    (rendered.master[i].isNaN = true ∨ -0.8 ≤ rendered.master[i] ∧ rendered.master[i] ≤ 0.8) ∧
      (config.timebase.HasAngles rendered.events i → rendered.master[i].isNaN = false) := by
  obtain ⟨⟨synth', hall⟩, length, hmaster⟩ := exists_of_renderWith h
  have hsample : rendered.master[i] = softLimit (rendered.tracks.mixed i) := by
    have hlength : i < length := by simpa [hmaster] using hi
    apply Option.some.inj
    rw [← Array.getElem?_eq_getElem hi, hmaster, Array.getElem?_map, Tracks.getElem?_sum _ hlength, Option.map_some]
  rw [hsample]
  constructor
  · rcases hmixed : (rendered.tracks.mixed i).isNaN with _ | _
    · exact .inr (softLimit_between hmixed)
    · exact .inl (isNaN_softLimit hmixed)
  · intro hangles
    exact isNaN_of_ge (softLimit_between (isNaN_mixed_of_renderAll? hall hangles)).1

end

/-- A note that is much louder than usual, and after it one that is much higher than can be heard. -/
def excess : Program :=
  #[.note ⟨69, 4611686018427387904, 2⟩, .wait 2, .note ⟨100000, 100, 1⟩, .halt]

/-- A sample for each tick. -/
def coarse : RenderConfig where
  sampleRate := 960
  maxInstructions := some 4

/-- The events of `excess`. -/
private def excessEvents : List Event :=
  [⟨0, .note ⟨69, 4611686018427387904, 2⟩⟩, ⟨2, .note ⟨100000, 100, 1⟩⟩]

private theorem exists_render_excess :
    ∃ rendered, render excess coarse = .ok rendered ∧ rendered.events = excessEvents ∧
      rendered.master = #[0.0, 0.8, Float32.nan] := by
  have hrun : run? .collect excess coarse.maxInstructions {} = some (runWithin .collect excess 4 {}) := rfl
  have hevents : (runWithin .collect excess 4 {}).received.events.toList = excessEvents := by decide +kernel
  have hsorted : (runWithin .collect excess 4 {}).received.sorted = excessEvents := by
    rw [Schedule.sorted, hevents]
    exact List.mergeSort_of_pairwise (by decide)
  have hplayed : (renderEvents coarse (.ofSeed coarse.noiseSeed) (runWithin .collect excess 4 {}).exit excessEvents).map
      (fun rendered => (rendered.events, rendered.master)) = .ok (excessEvents, #[0.0, 0.8, Float32.nan]) := by
    decide +kernel
  have hrender : render excess coarse =
      renderEvents coarse (.ofSeed coarse.noiseSeed) (runWithin .collect excess 4 {}).exit excessEvents := by
    rw [render, renderWith, hrun, ← hsorted]
  rw [← hrender] at hplayed
  cases hresult : render excess coarse with
  | error e =>
    rw [hresult] at hplayed
    cases hplayed
  | ok rendered =>
    rw [hresult] at hplayed
    obtain ⟨hevents, hmaster⟩ := Prod.mk.inj (Except.ok.inj hplayed)
    exact ⟨rendered, rfl, hevents, hmaster⟩

theorem renderWith_between_excess : ∃ rendered, render excess coarse = .ok rendered ∧
    ∃ hi : 1 < rendered.master.size, coarse.timebase.HasAngles rendered.events 1 ∧
      rendered.master[1].isNaN = false ∧ (-0.8 : Float32) ≤ rendered.master[1] ∧ rendered.master[1] ≤ 0.8 := by
  obtain ⟨rendered, hrender, hevents, hmaster⟩ := exists_render_excess
  have hi : 1 < rendered.master.size := by
    rw [hmaster]
    decide
  have hangles : coarse.timebase.HasAngles rendered.events 1 := by
    rw [hevents]
    refine List.forall_mem_cons.2 ⟨?_, List.forall_mem_cons.2 ⟨?_, List.forall_mem_nil _⟩⟩
    · intro j hj
      obtain rfl : 1 = j := Option.some.inj ((by decide +kernel : _ = some 1).symm.trans hj)
      decide +kernel
    · intro j hj
      exact absurd ((by decide +kernel : _ = none).symm.trans hj) nofun
  obtain ⟨hbetween, hnumber⟩ := renderWith_between hrender hi
  have hvalid := hnumber hangles
  exact ⟨rendered, hrender, hi, hangles, hvalid, hbetween.resolve_left (ne_true_of_eq_false hvalid)⟩

/-- The bounds are reached, and a pitch that is too high makes a sample that is no number. -/
theorem render_reaches_bound : ∃ rendered, render excess coarse = .ok rendered ∧
    (∃ x ∈ rendered.master, x.isNaN = false ∧ ¬x < 0.8) ∧ ∃ x ∈ rendered.master, x.isNaN = true := by
  obtain ⟨rendered, hrender, -, hmaster⟩ := exists_render_excess
  refine ⟨rendered, hrender, ?_, ?_⟩ <;> rw [hmaster]
  · exact ⟨0.8, by simp, by decide +kernel, by decide +kernel⟩
  · exact ⟨Float32.nan, by simp, by decide +kernel⟩

end Ostinato
