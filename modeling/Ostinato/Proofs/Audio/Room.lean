import Ostinato.Proofs.Audio.WaveFormat

/-!
# Writers that run out of room

A file is written in many parts, and a writer that runs out of room cuts one of them short.  Whichever part that is, the
writer has then taken the first bytes of the file, as many as it had room for, and it has taken all of them without a
failure exactly if there was room for the whole file (`writeWave_some`).  The size of a file is known from the number of
its samples, so it is known in advance which of the two it will be (`writeWave_room`).
-/

namespace Ostinato

/-- What was taken before stays in front. -/
private theorem taken_prefix_writeParts (taken : Array UInt8) (parts : List (Option (List UInt8))) :
    taken.toList <+: (writeParts none taken parts).taken.toList := by
  induction parts generalizing taken with
  | nil => exact List.prefix_rfl
  | cons part parts ih =>
    cases part with
    | none => exact List.prefix_rfl
    | some part =>
      refine List.IsPrefix.trans ?_ (ih (taken ++ part))
      rw [Array.toList_appendList]
      exact List.prefix_append _ _

/-- A writer with limited room takes the first bytes of what a writer with unlimited room takes, and fails for want of
room exactly if these are not all. -/
private theorem writeParts_some (room : Nat) (taken : Array UInt8) (parts : List (Option (List UInt8))) :
    (writeParts (some room) taken parts).taken.toList =
        (writeParts none taken parts).taken.toList.take (taken.size + room) ∧
      (writeParts (some room) taken parts).failure =
        if (writeParts none taken parts).taken.size ≤ taken.size + room then (writeParts none taken parts).failure
        else some .full := by
  have hall : ∀ (room : Nat) (taken : Array UInt8), taken.toList = taken.toList.take (taken.size + room) :=
    fun room taken => (List.take_of_length_le (Nat.le_add_right _ _)).symm
  induction parts generalizing room taken with
  | nil => exact ⟨hall room taken, (if_pos (Nat.le_add_right _ _)).symm⟩
  | cons part parts ih =>
    cases part with
    | none => exact ⟨hall room taken, (if_pos (Nat.le_add_right _ _)).symm⟩
    | some part =>
      have hsize : (taken ++ part).size = taken.size + part.length := by
        rw [← Array.length_toList, Array.toList_appendList, List.length_append, Array.length_toList]
      rw [writeParts, writeParts]
      by_cases hfits : part.length ≤ room
      · have hroom : (taken ++ part).size + (room - part.length) = taken.size + room := by omega
        rw [if_pos hfits, ← hroom]
        exact ih (room - part.length) (taken ++ part)
      · -- the writer stops within this part, and what would follow the part is behind all that it has taken
        obtain ⟨rest, hrest⟩ := taken_prefix_writeParts (taken ++ part) parts
        have hlength : (writeParts none (taken ++ part) parts).taken.size = (taken ++ part).size + rest.length := by
          rw [← Array.length_toList, ← hrest, List.length_append, Array.length_toList]
        have hlong : ¬(writeParts none (taken ++ part) parts).taken.size ≤ taken.size + room := by omega
        rw [if_neg hfits, if_neg hlong, ← hrest]
        refine ⟨?_, rfl⟩
        rw [Array.toList_appendList, Array.toList_appendList, List.append_assoc, ← Array.length_toList,
          List.take_length_add_append, List.take_append_of_le_length (Nat.le_of_not_le hfits)]

/-- So it is for whole files. -/
theorem writeWave_some (room : Nat) (samples : List Int16) (sampleRate : UInt32) :
    (writeWave (some room) samples sampleRate).taken.toList =
        (waveBytes samples sampleRate).taken.toList.take room ∧
      (writeWave (some room) samples sampleRate).failure =
        if (waveBytes samples sampleRate).taken.size ≤ room then (waveBytes samples sampleRate).failure
        else some .full := by
  unfold waveBytes writeWave
  cases dataSize? samples.length with
  | none => exact ⟨List.take_nil.symm, (if_pos (Nat.zero_le room)).symm⟩
  | some size =>
    have hparts := writeParts_some room #[] (waveParts size sampleRate samples)
    rwa [Array.size_empty, Nat.zero_add] at hparts

/-- A writer with room for so many bytes, and none after them, takes as many bytes of the file as there are, up to this
number; there is no failure exactly if these are all of them, otherwise the writer has no room left. -/
theorem writeWave_room {samples : List Int16} {sampleRate : UInt32} (hcount : samples.length ≤ maxSamples)
    (hrate : sampleRate.toNat < 2 ^ 31) (room : Nat) :
    (writeWave (some room) samples sampleRate).taken.toList =
        (waveBytes samples sampleRate).taken.toList.take (min room (44 + 2 * samples.length)) ∧
      (writeWave (some room) samples sampleRate).taken.size = min room (44 + 2 * samples.length) ∧
      (writeWave (some room) samples sampleRate).failure =
        if 44 + 2 * samples.length ≤ room then none else some .full := by
  obtain ⟨hdone, hfile⟩ := isWaveFile_waveBytes hcount hrate
  have hlength := hfile.length_eq
  obtain ⟨htaken, hfailure⟩ := writeWave_some room samples sampleRate
  rw [← Array.length_toList, hlength, hdone] at hfailure
  refine ⟨?_, ?_, hfailure⟩
  · rw [htaken, ← hlength, List.take_eq_take_min]
  · rw [← Array.length_toList, htaken, List.length_take, hlength]

/-- A writer that stops between the two bytes of a sample. -/
theorem writeWave_room_midSample :
    [5, -5].length ≤ maxSamples ∧ (8000 : UInt32).toNat < 2 ^ 31 ∧
      (writeWave (some 45) [5, -5] 8000).taken.toList = (waveBytes [5, -5] 8000).taken.toList.take 45 ∧
      (writeWave (some 45) [5, -5] 8000).taken.size = 45 ∧
      (writeWave (some 45) [5, -5] 8000).failure = some .full := by
  have hcount : [5, -5].length ≤ maxSamples := by decide
  have hrate : (8000 : UInt32).toNat < 2 ^ 31 := by decide
  exact ⟨hcount, hrate, writeWave_room hcount hrate 45⟩

end Ostinato
