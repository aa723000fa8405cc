import Ostinato.Proofs.Machine.Ceiling

/-!
# Programs that never end

Where a run goes depends on its counter and its registers alone, so a run that comes back to a counter and registers
that it had before goes round the same way for ever, whatever its clock, its settings and its events have become in the
meantime (`endless_of_repetition`).  There are only finitely many of them, so this is the only way not to end
(`endless_iff_exists_repetition`).
-/

namespace Ostinato

namespace Stage

variable {program : Program} {i j : Nat}

/-- Two stages of a run that goes on have the same control if they have the same counter and registers. -/
private theorem control_eq_of_running (hi : (after program i {}).exit? program = none)
    (hj : (after program j {}).exit? program = none)
    (hpc : (after program i {}).state.pc = (after program j {}).state.pc)
    (hregisters : (after program i {}).state.registers = (after program j {}).state.registers) :
    (after program i {}).control = (after program j {}).control := by
  have hhalted := (exit?_eq_none_iff.1 hi).1.trans (exit?_eq_none_iff.1 hj).1.symm
  exact Prod.ext hhalted (Prod.ext hpc hregisters)

/-- A run never ends exactly if it is at two stages that are not final with the same counter and registers. -/
theorem endless_iff_exists_repetition :
    (∀ k, (after program k {}).exit? program = none) ↔
      ∃ i j, i < j ∧ (after program i {}).exit? program = none ∧ (after program j {}).exit? program = none ∧
        (after program i {}).state.pc = (after program j {}).state.pc ∧
        (after program i {}).state.registers = (after program j {}).state.registers := by
  constructor
  · intro h
    obtain ⟨i, j, hij, -, hcontrol⟩ := exists_repetition (h (controlStates program))
    obtain ⟨hpc, hregisters⟩ := Prod.mk.inj (Prod.mk.inj hcontrol).2
    exact ⟨i, j, hij, h i, h j, hpc, hregisters⟩
  · rintro ⟨i, j, hij, hi, hj, hpc, hregisters⟩
    exact running_of_repetition (control_eq_of_running hi hj hpc hregisters) hij hi

end Stage

/-- A run that is at two stages that are not final with the same counter and registers never ends by itself: every
ceiling stops it, and from the first of the two stages on its counter and registers go round. -/
theorem endless_of_repetition {program : Program} {i j : Nat} (hij : i < j)
    (hi : (Stage.after program i {}).exit? program = none) (hj : (Stage.after program j {}).exit? program = none)
    (hpc : (Stage.after program i {}).state.pc = (Stage.after program j {}).state.pc)
    (hregisters : (Stage.after program i {}).state.registers = (Stage.after program j {}).state.registers) :
    (∀ {σ : Type} (backend : Backend σ) (received : σ), run? backend program none received = none ∧
      ∀ k, (runWithin backend program k received).exit = .instructionLimit ∧
        (runWithin backend program k received).state.steps = k) ∧
      ∀ q d,
        (Stage.after program (i + q * (j - i) + d) {}).state.pc = (Stage.after program (i + d) {}).state.pc ∧
        (Stage.after program (i + q * (j - i) + d) {}).state.registers =
          (Stage.after program (i + d) {}).state.registers := by
  have hcontrol := Stage.control_eq_of_running hi hj hpc hregisters
  have hrunning := Stage.running_of_repetition hcontrol hij hi
  refine ⟨fun backend received => ⟨run?_none_of_running backend received hrunning, fun k => ⟨?_, ?_⟩⟩, fun q d => ?_⟩
  · exact (exit_runWithin_eq_limit_iff backend received).2 (hrunning k)
  · rw [steps_runWithin, Stage.length_history_of_running (hrunning k)]
  · have hround := Stage.control_after_repetition hcontrol (Nat.le_of_lt hij) q d
    exact Prod.mk.inj (Prod.mk.inj hround).2

/-- The label of the loop stands in front of the load: the register is two whenever it is tested. -/
def reloading : Program :=
  #[.load (Register.ofNat? 0) 3, .note ⟨60, 80, 240⟩, .wait 240, .decJnz (Register.ofNat? 0) (some 0)]

/-- Two stages that differ in the clock and in the events only. -/
theorem endless_of_repetition_reloading :
    (Stage.after reloading 1 {}).state.clock = 0 ∧ (Stage.after reloading 5 {}).state.clock = 240 ∧
      (runWithin .collect reloading 1000000 {}).exit = .instructionLimit ∧
      (runWithin .collect reloading 1000000 {}).state.steps = 1000000 ∧
      (Stage.after reloading (1 + 250000 * (5 - 1) + 2) {}).state.pc = 3 := by
  have hi : (Stage.after reloading 1 {}).exit? reloading = none := by decide
  have hj : (Stage.after reloading 5 {}).exit? reloading = none := by decide
  have hpc : (Stage.after reloading 1 {}).state.pc = (Stage.after reloading 5 {}).state.pc := by decide
  have hregisters : (Stage.after reloading 1 {}).state.registers = (Stage.after reloading 5 {}).state.registers := by
    decide
  obtain ⟨hlimit, hround⟩ := endless_of_repetition (by decide) hi hj hpc hregisters
  obtain ⟨-, hwithin⟩ := hlimit .collect {}
  exact ⟨by decide, by decide, (hwithin 1000000).1, (hwithin 1000000).2, (hround 250000 2).1.trans (by decide)⟩

end Ostinato
