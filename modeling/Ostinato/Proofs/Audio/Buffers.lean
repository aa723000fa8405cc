import Mathlib
import Ostinato.Audio.Tracks

/-!
# Buffers, sample by sample

Adding a sound to a buffer changes the samples of its span and no others, and the samples in front of the span that
the buffer did not have are silent (`Buffer.getElem?_layer`).  The samples of a sound are made one after the other
from a source; if it is known which source each of them meets, they may as well be made all at once
(`Buffer.addFrom_eq_add`).  An operation on one track leaves the buffers of the others alone (`Tracks.modify?_eq`).
-/

namespace Ostinato

namespace Buffer

variable {σ : Type}

/-! ### Growing -/

@[simp] theorem size_grow (buffer : Buffer) (length : Nat) :
    (buffer.grow length).size = max buffer.size length := by
  simp only [grow, Array.size_append, Array.size_replicate]
  omega

/-- Growing keeps the samples and puts silence behind them. -/
theorem getElem?_grow (buffer : Buffer) (length k : Nat) :
    (buffer.grow length)[k]? = if k < max buffer.size length then some (buffer[k]?.getD 0.0) else none := by
  unfold grow
  by_cases hk : k < buffer.size
  · have hlt : k < max buffer.size length := by omega
    rw [Array.getElem?_append_left hk, if_pos hlt, Array.getElem?_eq_getElem hk, Option.getD_some]
  · have hnone : buffer[k]? = none := Array.getElem?_eq_none (by omega)
    rw [Array.getElem?_append_right (by omega), Array.getElem?_replicate, hnone, Option.getD_none]
    by_cases hlt : k < max buffer.size length
    · rw [if_pos (by omega), if_pos hlt]
    · rw [if_neg (by omega), if_neg hlt]

theorem reach?_eq_ok_iff {buffer reached : Buffer} {start length : Nat} :
    buffer.reach? start length = .ok reached ↔
      start + length ≤ maxSamples ∧ reached = buffer.grow (start + length) := by
  unfold reach?
  split
  · rename_i h
    simp [h, eq_comm]
  · rename_i h
    simp [h]

theorem reach?_of_lt {buffer : Buffer} {start length : Nat} (h : maxSamples < start + length) :
    buffer.reach? start length = .error .tooLong :=
  if_neg (Nat.not_le.2 h)

/-! ### Adding -/

/-- Which samples are made of the sources that are met one after the other, where they go, and what is left. -/
private theorem addFrom_of_follows {sample : Nat → σ → Float32 × σ} {sources : Nat → σ} {wave : Nat → Float32}
    (h : ∀ i, sample i (sources i) = (wave i, sources (i + 1))) (start count i : Nat) (buffer : Buffer) :
    (addFrom sample start count i (sources i) buffer).1 = sources (i + count) ∧
      ∀ k, (addFrom sample start count i (sources i) buffer).2[k]? =
        buffer[k]?.map fun x => if start + i ≤ k ∧ k < start + i + count then x + wave (k - start) else x := by
  induction count generalizing i buffer with
  | zero =>
    refine ⟨rfl, fun k => ?_⟩
    have hout : ¬(start + i ≤ k ∧ k < start + i + 0) := by omega
    simp only [addFrom, if_neg hout, Option.map_id_fun', id_eq]
  | succ count ih =>
    obtain ⟨hsource, hbuffer⟩ := ih (i + 1) (buffer.modify (start + i) (· + wave i))
    have hstep : addFrom sample start (count + 1) i (sources i) buffer =
        addFrom sample start count (i + 1) (sources (i + 1)) (buffer.modify (start + i) (· + wave i)) := by
      simp only [addFrom, h i]
    rw [hstep]
    refine ⟨hsource.trans (congrArg sources (by omega)), fun k => ?_⟩
    rw [hbuffer k, Array.getElem?_modify]
    by_cases hk : start + i = k
    · -- the sample that is made first is not touched again
      have hnumber : k - start = i := by omega
      have hlater : ¬(start + (i + 1) ≤ k ∧ k < start + (i + 1) + count) := by omega
      have hhere : start + i ≤ k ∧ k < start + i + (count + 1) := by omega
      simp only [if_pos hk, if_pos hhere, if_neg hlater, hnumber, Option.map_map, Function.comp_def]
    · have hiff : (start + (i + 1) ≤ k ∧ k < start + (i + 1) + count) ↔
          (start + i ≤ k ∧ k < start + i + (count + 1)) := by omega
      simp only [if_neg hk, hiff]

/-- The samples of the span are increased by the wave, the others stay. -/
theorem getElem?_add (buffer : Buffer) (start length : Nat) (wave : Nat → Float32) (k : Nat) :
    (buffer.add start length wave)[k]? =
      buffer[k]?.map fun x => if start ≤ k ∧ k < start + length then x + wave (k - start) else x := by
  have hfollows : ∀ i : Nat, (fun i (source : Unit) => (wave i, source)) i () = (wave i, ()) := fun _ => rfl
  have h := (addFrom_of_follows hfollows start length 0 buffer).2 k
  rwa [Nat.add_zero] at h

@[simp] theorem size_add (buffer : Buffer) (start length : Nat) (wave : Nat → Float32) :
    (buffer.add start length wave).size = buffer.size := by
  have hinside : ∀ k, (buffer.add start length wave).size ≤ k ↔ buffer.size ≤ k := by
    intro k
    rw [← Array.getElem?_eq_none_iff, getElem?_add, Option.map_eq_none_iff, Array.getElem?_eq_none_iff]
  exact Nat.le_antisymm ((hinside _).2 (Nat.le_refl _)) ((hinside _).1 (Nat.le_refl _))

/-- Samples that are made one after the other, each from the source that is left to it, are those of a wave. -/
theorem addFrom_eq_add {sample : Nat → σ → Float32 × σ} {sources : Nat → σ} {wave : Nat → Float32}
    (h : ∀ i, sample i (sources i) = (wave i, sources (i + 1))) (start length : Nat) (buffer : Buffer) :
    addFrom sample start length 0 (sources 0) buffer = (sources length, buffer.add start length wave) := by
  obtain ⟨hsource, hbuffer⟩ := addFrom_of_follows h start length 0 buffer
  refine Prod.ext (hsource.trans (congrArg sources (Nat.zero_add _))) ?_
  apply Array.ext_getElem?
  intro k
  rw [hbuffer k, getElem?_add, Nat.add_zero]

/-! ### Layers -/

/-- The buffer with a wave added from `start` on, grown to hold it. -/
def layer (buffer : Buffer) (start length : Nat) (wave : Nat → Float32) : Buffer :=
  (buffer.grow (start + length)).add start length wave

@[simp] theorem size_layer (buffer : Buffer) (start length : Nat) (wave : Nat → Float32) :
    (buffer.layer start length wave).size = max buffer.size (start + length) := by
  simp [layer]

/-- A layer is heard in its span only, and what the buffer did not have before is silent around it. -/
theorem getElem?_layer (buffer : Buffer) (start length : Nat) (wave : Nat → Float32) (k : Nat) :
    (buffer.layer start length wave)[k]? =
      if k < max buffer.size (start + length) then
        some (if start ≤ k ∧ k < start + length then buffer[k]?.getD 0.0 + wave (k - start)
          else buffer[k]?.getD 0.0)
      else none := by
  rw [layer, getElem?_add, getElem?_grow]
  by_cases hk : k < max buffer.size (start + length)
  · rw [if_pos hk, if_pos hk, Option.map_some]
  · rw [if_neg hk, if_neg hk, Option.map_none]

end Buffer

/-! ### Tracks -/

namespace Tracks

/-- The tracks with another buffer for one of them. -/
def set (tracks : Tracks) (track : Track) (buffer : Buffer) : Tracks :=
  match track with
  | .bass => { tracks with bass := buffer }
  | .guitar => { tracks with guitar := buffer }
  | .drums => { tracks with drums := buffer }

theorem get_set (tracks : Tracks) (track other : Track) (buffer : Buffer) :
    (tracks.set track buffer).get other = if track = other then buffer else tracks.get other := by
  cases track <;> cases other <;> rfl

theorem set_get (tracks : Tracks) (track : Track) : tracks.set track (tracks.get track) = tracks := by
  cases track <;> rfl

theorem set_set (tracks : Tracks) (track : Track) (buffer other : Buffer) :
    (tracks.set track buffer).set track other = tracks.set track other := by
  cases track <;> rfl

theorem get_empty (track : Track) : get {} track = #[] := by
  cases track <;> rfl

/-- An operation on a track sees the buffer of this track and replaces no other. -/
theorem modify?_eq {α : Type} (f : Buffer → Except AudioError (α × Buffer)) (track : Track) (tracks : Tracks) :
    modify? f track tracks = (f (tracks.get track)).map fun result => (result.1, tracks.set track result.2) := by
  obtain ⟨bass, guitar, drums⟩ := tracks
  cases track with
  | bass => cases h : f bass <;> simp [modify?, get, h] <;> rfl
  | guitar => cases h : f guitar <;> simp [modify?, get, h] <;> rfl
  | drums => cases h : f drums <;> simp [modify?, get, h] <;> rfl

end Tracks

end Ostinato
