import Ostinato.Proofs.Audio.Extent

/-!
# The mix, sample by sample

The tracks are added one after the other to a buffer that is at least as long as all of them.  So each of its samples is
the sum, in the order of the tracks and from silence on, of the samples of those tracks that have not ended before it,
whichever of them are longer than others.  More silence behind the tracks makes a mix longer and changes nothing else
(`Tracks.mixdown?_eq_sums`).
-/

namespace Ostinato

namespace Tracks

/-- The sum of the tracks at a sample; where a track has ended, it is left out. -/
def mixed (tracks : Tracks) (i : ℕ) : Float32 :=
  Track.all.foldl
    (fun x track => if i < (tracks.get track).size then x + (tracks.get track)[i]?.getD 0.0 else x) 0.0

/-- Adding whole tracks to a buffer adds their samples to each of its samples. -/
private theorem getElem?_foldl_add (tracks : Tracks) (kinds : List Track) (master : Buffer) :
    (kinds.foldl (fun master track => Buffer.add master 0 (tracks.get track).size
      fun i => (tracks.get track).getD i 0.0) master)[i]? =
    master[i]?.map fun x => kinds.foldl
      (fun x track => if i < (tracks.get track).size then x + (tracks.get track)[i]?.getD 0.0 else x) x := by
  induction kinds generalizing master with
  | nil => simp
  | cons track kinds ih =>
    rw [List.foldl_cons, ih, Buffer.getElem?_add]
    simp [Option.map_map, Function.comp_def]

theorem getElem?_sum (tracks : Tracks) {length : ℕ} (hi : i < length) :
    (tracks.sum length)[i]? = some (tracks.mixed i) := by
  rw [sum, getElem?_foldl_add, Array.getElem?_replicate, if_pos hi]
  rfl

/-- The samples that are added are those of the tracks that are longer. -/
private theorem mixed_eq_foldl (tracks : Tracks) (i : ℕ) :
    tracks.mixed i = (Track.all.filterMap fun track => (tracks.get track)[i]?).foldl (· + ·) 0.0 := by
  rw [mixed, List.foldl_filterMap]
  refine congrArg (fun step => List.foldl step 0.0 Track.all) ?_
  funext x track
  by_cases hi : i < (tracks.get track).size
  · rw [if_pos hi, Array.getElem?_eq_getElem hi]
    rfl
  · rw [if_neg hi, Array.getElem?_eq_none (Nat.le_of_not_lt hi)]

/-- Where all tracks have ended there is silence. -/
private theorem mixed_of_length_le {tracks : Tracks} {i : ℕ} (hi : tracks.length ≤ i) : tracks.mixed i = 0.0 := by
  have hended : (Track.all.filterMap fun track => (tracks.get track)[i]?) = [] := by
    refine List.filterMap_eq_nil_iff.2 fun track _ => ?_
    exact Array.getElem?_eq_none (length_le_iff.1 hi track)
  rw [mixed_eq_foldl, hended]
  rfl

section

variable {tracks : Tracks} {least more : ℕ} {master longer : Buffer}

private theorem mixdown?_eq_error_iff :
    tracks.mixdown? least = .error .tooLong ↔ maxSamples < max tracks.length least := by
  rw [mixdown?_eq, ← Nat.not_le]
  split
  · rename_i hfits
    simp [hfits]
  · rename_i hlong
    simp [hlong]

/-- A mix is as long as the longest track, or as was asked for, which is within the limit, and its samples are the
limited sums. -/
theorem of_mixdown? (h : tracks.mixdown? least = .ok master) :
    max tracks.length least ≤ maxSamples ∧ master.size = max tracks.length least ∧
      ∀ i < max tracks.length least, master[i]? = some (softLimit (tracks.mixed i)) := by
  rw [mixdown?_eq] at h
  split at h
  · rename_i hfits
    obtain rfl := Except.ok.inj h
    refine ⟨hfits, by rw [Array.size_map, size_sum], fun i hi => ?_⟩
    rw [Array.getElem?_map, getElem?_sum tracks hi, Option.map_some]
  · cases h

/-- If more silence is asked for, the mix goes on in silence. -/
private theorem prefix_of_mixdown? (h : tracks.mixdown? least = .ok master) (hmore : tracks.mixdown? more = .ok longer)
    (hle : least ≤ more) :
    master.toList <+: longer.toList ∧ ∀ i < longer.size, master.size ≤ i → longer[i]? = some (softLimit 0.0) := by
  obtain ⟨-, hsize, hmaster⟩ := of_mixdown? h
  obtain ⟨-, hsizes, hlonger⟩ := of_mixdown? hmore
  constructor
  · refine List.prefix_iff_getElem?.2 fun i hi => ?_
    rw [Array.length_toList, hsize] at hi
    rw [Array.getElem?_toList, hlonger i (by omega), ← hmaster i hi, ← Array.getElem?_toList,
      List.getElem?_eq_getElem]
  · intro i hi hended
    rw [hlonger i (by omega), mixed_of_length_le (by omega)]

end

/-- The mix fails exactly if it would be longer than the limit; otherwise it is as long as the longest track, or as was
asked for, and each of its samples is the limited sum, from silence on, of the samples there of the tracks that are
longer, in their order.  A mix that is to be longer begins with the shorter one and goes on in silence. -/
theorem mixdown?_eq_sums (tracks : Tracks) (least : ℕ) :
    tracks.length = max (max tracks.bass.size tracks.guitar.size) tracks.drums.size ∧
      (tracks.mixdown? least = .error .tooLong ↔ maxSamples < max tracks.length least) ∧
      (max tracks.length least ≤ maxSamples →
        ∃ master, tracks.mixdown? least = .ok master ∧ master.size = max tracks.length least ∧
          ∀ i < master.size, master[i]? = some (softLimit
            ((Track.all.filterMap fun track => (tracks.get track)[i]?).foldl (· + ·) 0.0))) ∧
      ∀ more master longer, least ≤ more → tracks.mixdown? least = .ok master →
        tracks.mixdown? more = .ok longer →
          master.toList <+: longer.toList ∧
            ∀ i < longer.size, master.size ≤ i → longer[i]? = some (softLimit 0.0) := by
  refine ⟨length_eq tracks, mixdown?_eq_error_iff, ?_, ?_⟩
  · intro hfits
    have hmaster := mixdown?_eq tracks least
    rw [if_pos hfits] at hmaster
    obtain ⟨-, hsize, hsamples⟩ := of_mixdown? hmaster
    refine ⟨_, hmaster, hsize, fun i hi => ?_⟩
    rw [hsamples i (hsize ▸ hi), mixed_eq_foldl]
  · intro more master longer hle h hmore
    exact prefix_of_mixdown? h hmore hle

/-- The drums end before the bass, and the mix goes on in silence behind both. -/
example : (mixdown? ⟨#[0.25, 0.25], #[], #[0.25]⟩ 3).toOption =
    some #[softLimit 0.5, softLimit 0.25, softLimit 0.0] := by
  decide +kernel

end Tracks

/-! ### Renders -/

/-- What is rendered is played on empty tracks, and these are mixed, with the tail behind them. -/
theorem of_renderWith {noise : Noise} {program : Program} {config : RenderConfig} {rendered : Render}
    (h : renderWith noise program config = .ok rendered) :
    (∃ synth', Synth.renderAll? ⟨config.timebase, noise⟩ rendered.events {} = .ok (synth', rendered.tracks)) ∧
      rendered.tracks.mixdown? (rendered.tracks.length + config.tail) = .ok rendered.master := by
  unfold renderWith at h
  split at h
  · cases h
  · rename_i outcome _
    unfold renderEvents at h
    cases hall : Synth.renderAll? ⟨config.timebase, noise⟩ outcome.received.sorted {} with
    | error e =>
      rw [hall] at h
      cases h
    | ok result =>
      rw [hall] at h
      change (result.2.mixdown? _ >>= _) = _ at h
      cases hmix : result.2.mixdown? (result.2.length + config.tail) with
      | error e =>
        rw [hmix] at h
        cases h
      | ok master =>
        rw [hmix] at h
        obtain rfl := Except.ok.inj h
        exact ⟨⟨_, hall⟩, hmix⟩

end Ostinato
