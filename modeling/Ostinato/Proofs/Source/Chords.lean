import Mathlib
import Ostinato.Proofs.Source.Compiled

/-!
# Chords with fewer pitches than they announce

A line that announces more pitches than it has words is not read to the end: no more pitches are kept than there are
words, and one more read stands for all that are missing.  Since a read that fails makes all later ones fail, this is
what reading every announced pitch gives, but for zeros in a chord without a duration, as long as the words do not hold
two integers more than there are of them (`decode_chord_eq_announced`).  A word can hold several integers, and a line of
such words is read differently (`decode_chord_crowded`).

* `Operands.announced`: the chord that is read if every announced pitch is.
* `Operands.Crowded`: operands for which the cap makes a difference.
-/

namespace Ostinato

namespace Operands

variable {args : Operands} {j k : Nat}

/-! ### Reading on -/

theorem int_of_failure (h : args.failure.isSome = true) : args.int = (0, args) :=
  if_pos h

/-- A read that fails, now or before, gives zero. -/
private theorem int_eq_zero_of_failure (h : args.int.2.failure.isSome = true) : args.int.1 = 0 := by
  unfold int at h ⊢
  split
  · rfl
  · rename_i hfailure
    rw [if_neg hfailure] at h
    split
    · rfl
    · split
      · rfl
      · rename_i hread
        simp_all

/-- What is left after one more read. -/
private theorem ints_succ (k : Nat) (args : Operands) : (args.ints (k + 1)).2 = (args.ints k).2.int.2 := by
  induction k generalizing args with
  | zero => rfl
  | succ k ih => exact ih args.int.2

/-- Once a read has failed, nothing changes any more. -/
private theorem ints_eq_of_failure (h : (args.ints j).2.failure.isSome = true) (hjk : j ≤ k) :
    (args.ints k).2 = (args.ints j).2 := by
  induction hjk with
  | refl => rfl
  | step _ ih => rw [ints_succ, ih, int_of_failure h]

/-- If one of the first `k + 1` numbers cannot be read, the one behind `k` of them is zero. -/
private theorem int_ints_eq_zero (h : (args.ints j).2.failure.isSome = true) (hjk : j ≤ k + 1) :
    (args.ints k).2.int.1 = 0 := by
  apply int_eq_zero_of_failure
  rw [← ints_succ, ints_eq_of_failure h hjk]
  exact h

private theorem length_ints (k : Nat) (args : Operands) : (args.ints k).1.length = k := by
  induction k generalizing args with
  | zero => rfl
  | succ k ih => exact congrArg Nat.succ (ih args.int.2)

/-! ### Chords -/

/-- The number of pitches that a line announces, and what is left behind it. -/
def pitchCount (args : Operands) : Nat × Operands :=
  (args.int.1.toInt.toNat, args.int.2)

/-- The chord that is read if every announced pitch is, and what is left behind it. -/
def announced (args : Operands) : Chord × Operands :=
  let (count, args) := args.pitchCount
  let (pitches, args) := args.ints count
  let (velocity, args) := args.int
  let (duration, args) := args.int
  (⟨pitches, velocity, duration⟩, args)

/-- More pitches are announced than there are words, and yet two integers more can be read than there are words. -/
def Crowded (args : Operands) : Prop :=
  args.pitchCount.2.remaining < args.pitchCount.1 ∧
    (args.pitchCount.2.ints (args.pitchCount.2.remaining + 2)).2.failure = none

instance (args : Operands) : Decidable args.Crowded :=
  inferInstanceAs (Decidable (_ ∧ _))

section Pitches

variable {count : Nat} {rest : Operands}

private theorem readPitches_of_le (h : args.pitchCount = (count, rest)) (hle : count ≤ rest.remaining) :
    readPitches args = rest.ints count := by
  obtain ⟨hcount, hrest⟩ := Prod.mk.inj h
  simp only [readPitches, hcount, hrest, Nat.min_eq_left hle, Nat.lt_irrefl, if_false]

/-- If more pitches are announced than there are words, one is read for each word, and one more is skipped. -/
private theorem readPitches_of_lt (h : args.pitchCount = (count, rest)) (hlt : rest.remaining < count) :
    readPitches args = ((rest.ints rest.remaining).1, (rest.ints (rest.remaining + 1)).2) := by
  obtain ⟨hcount, hrest⟩ := Prod.mk.inj h
  simp only [readPitches, hcount, hrest, Nat.min_eq_right hlt.le, hlt, if_true, ints_succ]

/-- The announced chord, by the number of reads in front of each value. -/
private theorem announced_eq (h : args.pitchCount = (count, rest)) :
    args.announced = (⟨(rest.ints count).1, (rest.ints count).2.int.1, (rest.ints (count + 1)).2.int.1⟩,
      (rest.ints (count + 2)).2) := by
  simp only [announced, h, ints_succ]

end Pitches

end Operands

/-! ### Lines -/

open Operands in
/-- The decoded chord, by the number of reads in front of its velocity. -/
private theorem decodeOperands_chord (labels : Labels) {operands : List (List Char)} {pitches : List Int64}
    {rest : Operands} {k : Nat} (h : readPitches { unread := operands } = (pitches, (rest.ints k).2)) :
    decodeOperands labels .chord operands =
      (.chord ⟨pitches, (rest.ints k).2.int.1, (rest.ints (k + 1)).2.int.1⟩,
        ((rest.ints (k + 2)).2.failure.map (Failure.warning .chord)).toList) := by
  simp only [decodeOperands, readInstruction, h, ints_succ, List.nil_append]

open Operands in
/-- A line that announces more pitches than it has words gives the chord that reading every announced pitch gives,
unless it is crowded: the velocity, the duration and the warning are the same, and so are the pitches, unless the chord
is silent and without a duration. -/
theorem decode_chord_eq_announced (labels : Labels) (line : String) (operands : List (List Char))
    (hline : Text.words line.toList = "CHORD".toList :: operands) (hcrowded : ¬ Crowded { unread := operands }) :
    let (chord, rest) := announced { unread := operands }
    ∃ pitches,
      decode labels line = (.chord ⟨pitches, chord.velocity, chord.duration⟩,
        (rest.failure.map (Failure.warning .chord)).toList) ∧
      (pitches = chord.pitches ∨ chord.velocity = 0 ∧ chord.duration = 0) ∧
      (pitches.length < (pitchCount { unread := operands }).1 → chord.duration = 0) := by
  have hdecode : decode labels line = decodeOperands labels .chord operands := by
    rw [decode, hline]
    exact decodeWords_cons rfl operands
  rw [hdecode]
  cases hcount : pitchCount { unread := operands } with
  | mk count rest =>
  rw [announced_eq hcount]
  rcases Nat.lt_or_ge rest.remaining count with hlt | hle
  · -- the reads behind the words fail, so that they give zero however many of them there are
    have hfailure : (rest.ints (rest.remaining + 2)).2.failure.isSome = true := by
      rw [Option.isSome_iff_ne_none]
      intro hnone
      exact hcrowded ⟨by rw [hcount]; exact hlt, by rw [hcount]; exact hnone⟩
    have hzero : ∀ k, rest.remaining + 1 ≤ k → (rest.ints k).2.int.1 = 0 :=
      fun k hk => int_ints_eq_zero hfailure (by omega)
    have hlast : (rest.ints (rest.remaining + 3)).2 = (rest.ints (count + 2)).2 :=
      (ints_eq_of_failure hfailure (by omega)).trans (ints_eq_of_failure hfailure (by omega)).symm
    refine ⟨(rest.ints rest.remaining).1, ?_, .inr ⟨hzero _ (by omega), hzero _ (by omega)⟩,
      fun _ => hzero _ (by omega)⟩
    rw [decodeOperands_chord labels (readPitches_of_lt hcount hlt), hlast, hzero (rest.remaining + 1) le_rfl,
      hzero (rest.remaining + 2) (by omega), hzero count hlt, hzero (count + 1) (by omega)]
  · refine ⟨(rest.ints count).1, decodeOperands_chord labels (readPitches_of_le hcount hle), .inl rfl, fun hshort => ?_⟩
    rw [length_ints] at hshort
    exact absurd hshort (Nat.lt_irrefl _)

/-- Four pitches are announced and three are found, two of them in one word. -/
theorem decode_chord_shared_word :
    Text.words "CHORD 4 60+64 67".toList = "CHORD".toList :: ["4".toList, "60+64".toList, "67".toList] ∧
    ¬ Operands.Crowded { unread := ["4".toList, "60+64".toList, "67".toList] } ∧
    ∃ pitches,
      decode (fun _ => none) "CHORD 4 60+64 67" = (.chord ⟨pitches, 0, 0⟩, [.argument .chord 4 ""]) ∧
      (pitches = [60, 64, 67, 0] ∨ (0 : Int64) = 0 ∧ (0 : Int64) = 0) ∧ (pitches.length < 4 → (0 : Int64) = 0) :=
  ⟨by decide, by decide, decode_chord_eq_announced (fun _ => none) "CHORD 4 60+64 67"
    ["4".toList, "60+64".toList, "67".toList] (by decide) (by decide)⟩

/-- One word can hold all the integers of a chord, and yet only one pitch is read of it, and one skipped. -/
theorem decode_chord_crowded :
    decode (fun _ => none) "CHORD 4 1+2+3+4+5+6" = (.chord ⟨[1], 3, 4⟩, []) ∧
    (Operands.announced { unread := ["4".toList, "1+2+3+4+5+6".toList] }).1 = ⟨[1, 2, 3, 4], 5, 6⟩ ∧
    (Operands.announced { unread := ["4".toList, "1+2+3+4+5+6".toList] }).2.failure = none := by
  decide

end Ostinato
