import Ostinato.Proofs.Machine.Recurrence
import Ostinato.Proofs.Machine.Timetable

/-!
# Ceilings

A ceiling cuts a run short and does nothing else.  With `instructionCount` the number of instructions that the run
without a ceiling executes, a ceiling from that number on is never noticed, and a lower one stops the same run after
exactly as many instructions as it allows (`run?_ceiling`).
-/

namespace Ostinato

variable {σ : Type} {program : Program} {j k : Nat}

/-- The number of instructions that the run without a ceiling executes, which is infinite if it never ends. -/
noncomputable def instructionCount (program : Program) : ℕ∞ :=
  ⨆ k : ℕ, ((Stage.history program k {}).length : ℕ∞)

/-! ### The length of a run -/

private theorem length_history_le_of_ended (h : (Stage.after program k {}).exit? program ≠ none) (j : Nat) :
    (Stage.history program j {}).length ≤ (Stage.history program k {}).length := by
  rcases Nat.le_total j k with hjk | hkj
  · exact (Stage.history_prefix hjk).length_le
  · rw [Stage.history_of_ended_of_le h hkj]

private theorem instructionCount_of_ended (h : (Stage.after program k {}).exit? program ≠ none) :
    instructionCount program = (Stage.history program k {}).length := by
  apply le_antisymm
  · exact iSup_le fun j => Nat.cast_le.2 (length_history_le_of_ended h j)
  · exact le_iSup (fun j : ℕ => ((Stage.history program j {}).length : ℕ∞)) k

/-- The run goes on after `k` instructions exactly if it has more of them. -/
private theorem lt_instructionCount_iff :
    (k : ℕ∞) < instructionCount program ↔ (Stage.after program k {}).exit? program = none := by
  constructor
  · intro hlt
    by_contra hended
    rw [instructionCount_of_ended hended, Nat.cast_lt] at hlt
    exact absurd hlt (Nat.not_lt.2 Stage.length_history_le)
  · intro hrunning
    obtain ⟨i, hi, -⟩ := Stage.instruction?_eq_some hrunning
    have hlength : (Stage.history program (k + 1) {}).length = k + 1 := by
      rw [Stage.history_succ, hi, List.length_append, Stage.length_history_of_running hrunning]
      rfl
    calc (k : ℕ∞) < ((k + 1 : ℕ) : ℕ∞) := Nat.cast_lt.2 (Nat.lt_succ_self k)
      _ = ((Stage.history program (k + 1) {}).length : ℕ∞) := by rw [hlength]
      _ ≤ instructionCount program := le_iSup (fun j : ℕ => ((Stage.history program j {}).length : ℕ∞)) (k + 1)

private theorem instructionCount_le_iff :
    instructionCount program ≤ k ↔ (Stage.after program k {}).exit? program ≠ none := by
  rw [← not_lt, lt_instructionCount_iff]

private theorem instructionCount_eq_top (h : ∀ k, (Stage.after program k {}).exit? program = none) :
    instructionCount program = ⊤ := by
  refine ENat.eq_top_iff_forall_gt.2 ?_
  intro k
  exact lt_instructionCount_iff.2 (h k)

/-! ### Ceilings and the run without one -/

theorem steps_runWithin (backend : Backend σ) (received : σ) :
    (runWithin backend program k received).state.steps = (Stage.history program k {}).length := by
  rw [state_runWithin, Stage.steps_after]
  exact Nat.zero_add _

/-- From the end of a run on a higher ceiling changes nothing. -/
theorem runWithin_of_ended_of_le (backend : Backend σ) (received : σ)
    (h : (Stage.after program j {}).exit? program ≠ none) (hjk : j ≤ k) :
    runWithin backend program k received = runWithin backend program j received := by
  rw [runWithin_eq, runWithin_eq, Stage.after_of_ended_of_le h hjk, Stage.history_of_ended_of_le h hjk]

theorem exit_runWithin_eq_limit_iff (backend : Backend σ) (received : σ) :
    (runWithin backend program k received).exit = .instructionLimit ↔
      (Stage.after program k {}).exit? program = none := by
  rw [runWithin_eq]
  unfold Stage.exit?
  split <;> (try split) <;> simp

/-- The run without a ceiling is the run with any ceiling that it does not reach. -/
theorem run?_none_of_ended (backend : Backend σ) (received : σ)
    (h : (Stage.after program k {}).exit? program ≠ none) :
    run? backend program none received = some (runWithin backend program k received) := by
  have hlong : (Stage.after program (controlStates program) {}).exit? program ≠ none :=
    fun hrunning => h (Stage.running_of_controlStates hrunning k)
  have hsame : runWithin backend program (controlStates program) received =
      runWithin backend program k received := by
    rcases Nat.le_total k (controlStates program) with hle | hle
    · exact runWithin_of_ended_of_le backend received h hle
    · exact (runWithin_of_ended_of_le backend received hlong hle).symm
  have hexit : (runWithin backend program k received).exit ≠ .instructionLimit :=
    fun e => h ((exit_runWithin_eq_limit_iff backend received).1 e)
  simp only [run?, hsame, hexit, if_false]

theorem run?_none_of_running (backend : Backend σ) (received : σ)
    (h : ∀ k, (Stage.after program k {}).exit? program = none) : run? backend program none received = none := by
  have hexit := (exit_runWithin_eq_limit_iff backend received).2 (h (controlStates program))
  simp only [run?, hexit, if_true]

/-- The number of steps of the run without a ceiling. -/
private theorem steps_run?_none (backend : Backend σ) (program : Program) (received : σ) :
    ((run? backend program none received).elim ⊤ fun outcome => (outcome.state.steps : ℕ∞)) =
      instructionCount program := by
  by_cases h : ∀ k, (Stage.after program k {}).exit? program = none
  · rw [run?_none_of_running backend received h, instructionCount_eq_top h]
    rfl
  · obtain ⟨k, hk⟩ := not_forall.1 h
    rw [run?_none_of_ended backend received hk, instructionCount_of_ended hk, Option.elim_some, steps_runWithin]

/-! ### Exits -/

private theorem halted_of_exit_eq_halted {backend : Backend σ} {received : σ}
    (h : (runWithin backend program k received).exit = .halted) : (Stage.after program k {}).halted = true := by
  rw [runWithin_eq] at h
  unfold Stage.exit? at h
  split at h
  · assumption
  · split at h <;> cases h

/-! ### Events -/

private theorem events_runWithin_prefix (program : Program) (h : j ≤ k) :
    (runWithin .collect program j {}).received.events.toList <+:
      (runWithin .collect program k {}).received.events.toList := by
  rw [runWithin_eq, runWithin_eq, events_replay_collect, events_replay_collect]
  exact (List.prefix_append_right_inj _).2 ((Stage.history_prefix h).filterMap _)

/-! ### The ceiling only truncates -/

/-- A ceiling that the run does not exceed is not noticed; a lower one stops it after as many instructions, in the
state in which it is then.  So a higher ceiling only lets more events happen, the counter is outside the program
exactly if the run has left it, and a run has halted only on a `HALT` that was executed. -/
theorem run?_ceiling (backend : Backend σ) (program : Program) (received : σ) :
    ((run? backend program none received).elim ⊤ fun outcome => (outcome.state.steps : ℕ∞)) =
        instructionCount program ∧
      (∀ k : ℕ, instructionCount program ≤ k →
        run? backend program (some k) received = run? backend program none received) ∧
      (∀ k : ℕ, k < instructionCount program →
        ∃ outcome, run? backend program (some k) received = some outcome ∧ outcome.exit = .instructionLimit ∧
          outcome.state.steps = k ∧ outcome.state = (Stage.after program k {}).state) ∧
      (∀ j k : ℕ, j ≤ k →
        (runWithin .collect program j {}).received.events.toList <+:
          (runWithin .collect program k {}).received.events.toList) ∧
      ∀ ceiling outcome, run? backend program ceiling received = some outcome →
        (∀ k ∈ ceiling, outcome.state.steps ≤ k) ∧
          outcome.state = (Stage.after program outcome.state.steps {}).state ∧
          (outcome.exit = .endOfProgram ↔ program.size ≤ outcome.state.pc) ∧
          (outcome.exit = .halted → program[outcome.state.pc]? = some .halt ∧
            ∃ s, (Stage.history program outcome.state.steps {}).getLast? = some (s, .halt) ∧
              outcome.state = s.step .halt) := by
  refine ⟨steps_run?_none backend program received, ?_, ?_, ?_, ?_⟩
  · intro k hk
    exact (run?_none_of_ended backend received (instructionCount_le_iff.1 hk)).symm
  · intro k hk
    have hrunning := lt_instructionCount_iff.1 hk
    refine ⟨_, rfl, (exit_runWithin_eq_limit_iff backend received).2 hrunning, ?_, ?_⟩
    · rw [steps_runWithin, Stage.length_history_of_running hrunning]
    · exact state_runWithin backend program k received
  · intro j k hjk
    exact events_runWithin_prefix program hjk
  · intro ceiling outcome h
    refine ⟨?_, ?_, ?_, ?_⟩
    · rintro k rfl
      obtain rfl := Option.some.inj h
      rw [steps_runWithin]
      exact Stage.length_history_le
    · obtain ⟨k, rfl⟩ := exists_eq_runWithin h
      rw [steps_runWithin, Stage.after_history_length_history.1, state_runWithin]
    · obtain ⟨k, rfl⟩ := exists_eq_runWithin h
      exact exit_runWithin_eq_endOfProgram_iff backend program k received
    · obtain ⟨k, rfl⟩ := exists_eq_runWithin h
      intro hexit
      have hlast := Stage.getLast?_history_of_halted rfl (halted_of_exit_eq_halted hexit)
      rw [steps_runWithin, Stage.after_history_length_history.2, state_runWithin]
      exact hlast

end Ostinato
