import Ostinato.Audio.Render
import Ostinato.Proofs.Audio.Mixing
import Ostinato.Proofs.Audio.WaveFormat

/-!
# One limit for buffers, mixes and files

The encoder refuses lists of samples whose sizes do not fit the fields of a file, and audio is never made longer than
`maxSamples`.  These are the same limit: the encoder takes exactly the lists that are not longer
(`dataSize?_isSome_iff`), and whatever is asked of buffers, with or without success, none of them gets longer
(`Tracks.Within.performAll`).  So whatever is rendered can be encoded (`limits_agree`).
-/

namespace Ostinato

/-! ### Writing into a span -/

private theorem exists_of_map_eq_ok {ε α β : Type} {x : Except ε α} {f : α → β} {b : β} (h : x.map f = .ok b) :
    ∃ a, x = .ok a ∧ f a = b := by
  cases x with
  | error e => cases h
  | ok a => exact ⟨a, rfl, Except.ok.inj h⟩

namespace Buffer

/-- The buffer with the samples of a span replaced, each by what `write` makes of its number and its value. -/
def overwrite (buffer : Buffer) (start length : Nat) (write : Nat → Float32 → Float32) : Buffer :=
  buffer.mapIdx fun k x => if start ≤ k ∧ k < start + length then write (k - start) x else x

/-- Gives out a span of a buffer, grown as needed, and has its samples replaced. -/
def overwriteSpan? (buffer : Buffer) (start length : Nat) (write : Nat → Float32 → Float32) :
    Except AudioError Buffer :=
  (buffer.reach? start length).map fun reached => reached.overwrite start length write

@[simp] theorem size_overwrite (buffer : Buffer) (start length : Nat) (write : Nat → Float32 → Float32) :
    (buffer.overwrite start length write).size = buffer.size :=
  Array.size_mapIdx

/-- Adding to a span is one way to replace its samples. -/
theorem addSpan?_eq_overwriteSpan? (buffer : Buffer) (start length : Nat) (wave : Nat → Float32) :
    buffer.addSpan? start length wave = buffer.overwriteSpan? start length fun i x => x + wave i := by
  have hadd : ∀ reached : Buffer,
      reached.add start length wave = reached.overwrite start length fun i x => x + wave i := by
    intro reached
    apply Array.ext_getElem?
    intro k
    rw [getElem?_add, overwrite, Array.getElem?_mapIdx]
  unfold addSpan? overwriteSpan?
  cases buffer.reach? start length with
  | error e => rfl
  | ok reached => exact congrArg Except.ok (hadd reached)

/-- A span that is given out ends within the limit. -/
private theorem size_of_overwriteSpan? {buffer buffer' : Buffer} {start length : Nat} {write : Nat → Float32 → Float32}
    (h : buffer.overwriteSpan? start length write = .ok buffer') (hsize : buffer.size ≤ maxSamples) :
    buffer'.size ≤ maxSamples := by
  obtain ⟨reached, hreach, rfl⟩ := exists_of_map_eq_ok h
  obtain ⟨hstop, rfl⟩ := reach?_eq_ok_iff.1 hreach
  rw [size_overwrite, size_grow]
  omega

end Buffer

/-- Playing a sound leaves the buffer within the limit. -/
private theorem Synth.size_of_play? {synth synth' : Synth} {voice : Voice} {sound : Sound} {start : Nat}
    {buffer buffer' : Buffer} (h : synth.play? voice sound start buffer = .ok (synth', buffer'))
    (hsize : buffer.size ≤ maxSamples) : buffer'.size ≤ maxSamples := by
  rw [play?_eq] at h
  split at h
  · split at h
    · rename_i hstop
      obtain ⟨-, rfl⟩ := Prod.mk.inj (Except.ok.inj h)
      rw [Buffer.size_layer]
      omega
    · cases h
  · cases h

/-! ### Requests -/

/-- What can be asked of a synthesizer and its tracks. -/
inductive Synth.Request where
  /-- To give out a span of a track, whose samples are then replaced. -/
  | span (track : Track) (start length : Nat) (write : Nat → Float32 → Float32)
  /-- To play a sound on a track, from a sample on. -/
  | sound (track : Track) (voice : Voice) (played : Sound) (start : Nat)
  /-- To play an event on its own track. -/
  | event (played : Event)

/-- Does what is asked, or fails. -/
def Synth.Request.run? (synth : Synth) (tracks : Tracks) : Request → Except AudioError (Synth × Tracks)
  | .span track start length write =>
    tracks.modify? (fun buffer => (buffer.overwriteSpan? start length write).map (synth, ·)) track
  | .sound track voice played start => tracks.modify? (synth.play? voice played start) track
  | .event played => synth.render? played tracks

namespace Tracks

variable {tracks : Tracks}

/-- No track is longer than the limit. -/
def Within (tracks : Tracks) : Prop :=
  ∀ track, (tracks.get track).size ≤ maxSamples

/-- The tracks after a request to some synthesizer; one that fails leaves them as they were. -/
def perform (tracks : Tracks) (asked : Synth × Synth.Request) : Tracks :=
  match asked.2.run? asked.1 tracks with
  | .ok (_, changed) => changed
  | .error _ => tracks

/-- The tracks after requests, one after the other, each to a synthesizer of its own. -/
def performAll (tracks : Tracks) (asked : List (Synth × Synth.Request)) : Tracks :=
  asked.foldl perform tracks

private theorem within_empty : Within {} := by
  intro track
  rw [get_empty]
  exact Nat.zero_le _

private theorem Within.set {buffer : Buffer} (h : tracks.Within) (track : Track) (hsize : buffer.size ≤ maxSamples) :
    (tracks.set track buffer).Within := by
  intro other
  rw [get_set]
  split
  · exact hsize
  · exact h other

/-- An operation that keeps a buffer within the limit keeps all of them within it. -/
private theorem Within.of_modify? {α : Type} {f : Buffer → Except AudioError (α × Buffer)} {track : Track}
    {a : α} {tracks' : Tracks} (hf : ∀ buffer a buffer', f buffer = .ok (a, buffer') →
      buffer.size ≤ maxSamples → buffer'.size ≤ maxSamples)
    (h : tracks.Within) (hmodify : tracks.modify? f track = .ok (a, tracks')) : tracks'.Within := by
  rw [modify?_eq] at hmodify
  obtain ⟨result, hbuffer, hresult⟩ := exists_of_map_eq_ok hmodify
  obtain ⟨-, rfl⟩ := Prod.mk.inj hresult
  exact h.set track (hf _ _ _ hbuffer (h track))

private theorem Within.of_run? {synth synth' : Synth} {tracks' : Tracks} {request : Synth.Request} (h : tracks.Within)
    (hrun : request.run? synth tracks = .ok (synth', tracks')) : tracks'.Within := by
  cases request with
  | span track start length write =>
    refine h.of_modify? ?_ hrun
    intro buffer _ buffer' hbuffer
    obtain ⟨changed, hspan, hresult⟩ := exists_of_map_eq_ok hbuffer
    obtain ⟨-, rfl⟩ := Prod.mk.inj hresult
    exact Buffer.size_of_overwriteSpan? hspan
  | sound track voice played start =>
    refine h.of_modify? ?_ hrun
    intro buffer _ buffer' hbuffer
    exact Synth.size_of_play? hbuffer
  | event played =>
    unfold Synth.Request.run? Synth.render? at hrun
    dsimp only at hrun
    split at hrun
    · cases hrun
    · refine h.of_modify? ?_ hrun
      intro buffer _ buffer' hbuffer
      exact Synth.size_of_play? hbuffer

private theorem Within.perform (h : tracks.Within) (asked : Synth × Synth.Request) : (tracks.perform asked).Within := by
  unfold Tracks.perform
  split
  · rename_i hrun
    exact h.of_run? hrun
  · exact h

/-- Whatever is asked of tracks within the limit, they stay within it. -/
theorem Within.performAll (h : tracks.Within) (asked : List (Synth × Synth.Request)) :
    (tracks.performAll asked).Within := by
  induction asked generalizing tracks with
  | nil => exact h
  | cons first asked ih => exact ih (h.perform first)

/-- Tracks within the limit are mixed, if no more silence is asked for than there is room for. -/
private theorem Within.exists_mixdown? (h : tracks.Within) {least : Nat} (hleast : least ≤ maxSamples) :
    ∃ master, tracks.mixdown? least = .ok master := by
  have hlength : max tracks.length least ≤ maxSamples := Nat.max_le.2 ⟨length_le_iff.2 h, hleast⟩
  rw [mixdown?_eq, if_pos hlength]
  exact ⟨_, rfl⟩

private theorem size_of_mixdown? {least : Nat} {master : Buffer} (h : tracks.mixdown? least = .ok master) :
    master.size ≤ maxSamples := by
  obtain ⟨hfits, hsize, -⟩ := of_mixdown? h
  exact hsize.trans_le hfits

end Tracks

/-! ### Encoding -/

/-- The sizes in a file fit their fields exactly up to the limit. -/
private theorem sizes_fit_iff {count : Nat} :
    (2 * count < UInt32.size ∧ 2 * count + 36 < UInt32.size) ↔ count ≤ maxSamples := by
  have hmax : maxSamples = 2147483629 := rfl
  have hsize : UInt32.size = 4294967296 := rfl
  omega

theorem dataSize?_isSome_iff {count : Nat} : (dataSize? count).isSome = true ↔ count ≤ maxSamples := by
  constructor
  · intro h
    by_contra hlong
    rw [dataSize?_of_lt (Nat.lt_of_not_le hlong)] at h
    cases h
  · intro h
    obtain ⟨dataSize, hsome, -⟩ := dataSize?_of_le h
    rw [hsome]
    rfl

/-- The number of samples is not checked again once parts are written. -/
private theorem failure_writeParts_ne (room : Option Nat) (taken : Array UInt8) (parts : List (Option (List UInt8)))
    (count : Nat) : (writeParts room taken parts).failure ≠ some (.tooManySamples count) := by
  induction parts generalizing room taken with
  | nil => simp [writeParts]
  | cons part parts ih =>
    cases part with
    | none => simp [writeParts]
    | some part =>
      cases room with
      | none => exact ih none _
      | some free =>
        unfold writeParts
        dsimp only
        split
        · exact ih _ _
        · simp

/-- A list of samples is refused for its length exactly if it is longer than the limit. -/
theorem failure_writeWave_iff (room : Option Nat) (samples : List Int16) (sampleRate : UInt32) :
    (writeWave room samples sampleRate).failure = some (.tooManySamples samples.length) ↔
      maxSamples < samples.length := by
  constructor
  · intro h
    by_contra hcount
    obtain ⟨dataSize, hsome, -⟩ := dataSize?_of_le (Nat.le_of_not_lt hcount)
    unfold writeWave at h
    rw [hsome] at h
    exact failure_writeParts_ne _ _ _ _ h
  · intro h
    unfold writeWave
    rw [dataSize?_of_lt h]

/-! ### Renders -/

/-- A mix that was rendered is within the limit. -/
private theorem size_master_of_renderWith {noise : Noise} {program : Program} {config : RenderConfig}
    {rendered : Render} (h : renderWith noise program config = .ok rendered) : rendered.master.size ≤ maxSamples :=
  Tracks.size_of_mixdown? (of_renderWith h).2

private theorem failure_writeWave_of_renderWith {noise : Noise} {program : Program} {config : RenderConfig}
    {rendered : Render} (hrate : config.sampleRate.toNat < 2 ^ 31)
    (h : renderWith noise program config = .ok rendered) :
    (writeWave none (quantizeAll rendered.master) config.sampleRate).failure = none := by
  have hcount : (quantizeAll rendered.master).length ≤ maxSamples := by
    rw [quantizeAll, List.length_map, Array.length_toList]
    exact size_master_of_renderWith h
  exact (isWaveFile_waveBytes hcount hrate).1

/-- The sizes of a list of samples pass the checks of the encoder exactly if the list is within the limit on buffers and
mixes.  Tracks that were empty at first stay within it, whatever is asked of them, and can be mixed; and whatever is
rendered, with any noise, is encoded completely if the writer has room. -/
theorem limits_agree :
    (∀ count, (2 * count < UInt32.size ∧ 2 * count + 36 < UInt32.size) ↔ count ≤ maxSamples) ∧
      (∀ count, (dataSize? count).isSome = true ↔ count ≤ maxSamples) ∧
      (∀ room samples sampleRate, (writeWave room samples sampleRate).failure =
        some (.tooManySamples samples.length) ↔ maxSamples < samples.length) ∧
      (∀ asked track, ((Tracks.performAll {} asked).get track).size ≤ maxSamples) ∧
      (∀ asked, ∃ master, (Tracks.performAll {} asked).mixdown? 0 = .ok master) ∧
      ∀ noise program config rendered, config.sampleRate.toNat < 2 ^ 31 →
        renderWith noise program config = .ok rendered →
          (writeWave none (quantizeAll rendered.master) config.sampleRate).failure = none := by
  have hwithin : ∀ asked, (Tracks.performAll {} asked).Within := fun asked => Tracks.within_empty.performAll asked
  refine ⟨fun count => sizes_fit_iff, fun count => dataSize?_isSome_iff, failure_writeWave_iff, hwithin, ?_, ?_⟩
  · intro asked
    exact (hwithin asked).exists_mixdown? (Nat.zero_le _)
  · intro noise program config rendered hrate h
    exact failure_writeWave_of_renderWith hrate h

/-- As much silence as there is room for. -/
def longestRest : RenderConfig where
  sampleRate := 960
  maxInstructions := some 1
  tailTicks := 2147483629

theorem limits_agree_longestRest :
    ∃ rendered, renderWith (.ofSeed 7) #[.halt] longestRest = .ok rendered ∧ rendered.master.size = maxSamples ∧
      (writeWave none (quantizeAll rendered.master) longestRest.sampleRate).failure = none := by
  have hfits : longestRest.timebase.Fits [] longestRest.tail := ⟨List.forall_mem_nil _, by decide⟩
  obtain ⟨tracks, hrendered, hsizes⟩ := renderEvents_of_fits (.ofSeed 7) .halted (List.forall_mem_nil _) hfits
  have hsorted : Schedule.sorted {} = [] := List.mergeSort_nil
  have hrender : renderWith (.ofSeed 7) #[.halt] longestRest =
      .ok ⟨.halted, [], tracks, (tracks.sum (tracks.length + longestRest.tail)).map softLimit⟩ := by
    show renderEvents longestRest _ .halted (Schedule.sorted {}) = _
    rw [hsorted]
    exact hrendered
  have hlength : tracks.length = 0 := Nat.le_zero.1 (Tracks.length_le_iff.2 fun track => (hsizes track).le)
  have htail : longestRest.tail = maxSamples := by decide
  obtain ⟨-, -, -, -, -, hencoded⟩ := limits_agree
  refine ⟨_, hrender, ?_, hencoded _ _ _ _ (by decide) hrender⟩
  rw [Array.size_map, Tracks.size_sum, hlength, htail, Nat.zero_add]

end Ostinato
