import Mathlib
import Ostinato.Machine.Run

/-!
# Histories of runs

A run without a ceiling, instruction by instruction.  A stage of it is the state together with a mark that is set
once a `HALT` was executed; `Stage.after` repeats the single step `Stage.next`, and a run that has ended stays at its
last stage.  The history of a run is the list of its instructions in the order of execution, each with the state in
which it was executed, so that what becomes of its events is a fold over the history.

* `Stage.history_prefix`: histories only grow.
* `Stage.after_history_length_history`: nothing happens after the last instruction.
* `runFrom_eq`: a run with a ceiling is the unbounded run, looked at after so many instructions.
-/

namespace Ostinato

/-! ### Stages -/

/-- Where a run stands: its state, and whether a `HALT` was executed. -/
structure Stage where
  state : State := {}
  halted : Bool := false
deriving DecidableEq

namespace Stage

/-- The instruction that is executed next, if the run goes on. -/
def instruction? (program : Program) (stage : Stage) : Option Instruction :=
  if stage.halted then none else program[stage.state.pc]?

/-- Why the run has ended, if it has. -/
def exit? (program : Program) (stage : Stage) : Option Exit :=
  if stage.halted then some .halted
  else if stage.state.pc < program.size then none
  else some .endOfProgram

/-- The stage one instruction later. -/
def next (program : Program) (stage : Stage) : Stage :=
  match stage.instruction? program with
  | some i => ⟨stage.state.step i, i = .halt⟩
  | none => stage

/-- The stage `k` instructions later. -/
def after (program : Program) (k : Nat) (stage : Stage) : Stage :=
  (next program)^[k] stage

/-- The next `k` instructions that are executed, each with the state in which it is executed; fewer if the run ends
before. -/
def history (program : Program) (k : Nat) (stage : Stage) : List (State × Instruction) :=
  (List.range k).filterMap fun j =>
    ((stage.after program j).instruction? program).map fun i => ((stage.after program j).state, i)

variable {program : Program} {stage : Stage} {i : Instruction} {j k : Nat}

theorem exit?_eq_none_iff :
    stage.exit? program = none ↔ stage.halted = false ∧ stage.state.pc < program.size := by
  unfold exit?
  cases stage.halted <;> simp

private theorem instruction?_eq_none_iff : stage.instruction? program = none ↔ stage.exit? program ≠ none := by
  rw [ne_eq, exit?_eq_none_iff]
  unfold instruction?
  cases stage.halted <;> simp

theorem instruction?_eq_some (h : stage.exit? program = none) :
    ∃ i, stage.instruction? program = some i ∧ program[stage.state.pc]? = some i := by
  obtain ⟨hhalted, hpc⟩ := exit?_eq_none_iff.1 h
  refine ⟨program[stage.state.pc], ?_, Array.getElem?_eq_getElem hpc⟩
  simp [instruction?, hhalted, hpc]

theorem next_of_instruction? (h : stage.instruction? program = some i) :
    stage.next program = ⟨stage.state.step i, i = .halt⟩ := by
  simp [next, h]

theorem next_of_ended (h : stage.exit? program ≠ none) : stage.next program = stage := by
  simp [next, instruction?_eq_none_iff.2 h]

/-! ### Repeated steps -/

@[simp] theorem after_zero : stage.after program 0 = stage := rfl

theorem after_succ : stage.after program (k + 1) = (stage.after program k).next program :=
  Function.iterate_succ_apply' _ _ _

theorem after_succ' : stage.after program (k + 1) = (stage.next program).after program k :=
  Function.iterate_succ_apply _ _ _

theorem after_add : stage.after program (j + k) = (stage.after program j).after program k := by
  rw [Nat.add_comm]
  exact Function.iterate_add_apply _ _ _ _

/-- A run that has ended stays where it is. -/
private theorem after_of_ended (h : stage.exit? program ≠ none) (k : Nat) : stage.after program k = stage :=
  Function.iterate_fixed (next_of_ended h) k

theorem after_of_ended_of_le (h : (stage.after program j).exit? program ≠ none) (hjk : j ≤ k) :
    stage.after program k = stage.after program j := by
  obtain ⟨d, rfl⟩ := Nat.exists_eq_add_of_le hjk
  rw [after_add, after_of_ended h]

/-- A run that goes on has not ended before. -/
theorem running_of_le (h : (stage.after program k).exit? program = none) (hjk : j ≤ k) :
    (stage.after program j).exit? program = none := by
  by_contra hj
  rw [after_of_ended_of_le hj hjk] at h
  exact hj h

/-! ### Histories -/

@[simp] theorem history_zero : stage.history program 0 = [] := rfl

theorem history_succ :
    stage.history program (k + 1) = stage.history program k ++
      (((stage.after program k).instruction? program).map fun i => ((stage.after program k).state, i)).toList := by
  rw [history, List.range_succ, List.filterMap_append]
  rfl

theorem history_succ' :
    stage.history program (k + 1) =
      ((stage.instruction? program).map fun i => (stage.state, i)).toList ++
        (stage.next program).history program k := by
  rw [history, List.range_succ_eq_map, List.filterMap_cons, List.filterMap_map]
  -- a step further on is a step on from the next stage
  have htail : (List.range k).filterMap ((fun j => ((stage.after program j).instruction? program).map
      fun i => ((stage.after program j).state, i)) ∘ Nat.succ) = (stage.next program).history program k := rfl
  rw [htail]
  cases h : stage.instruction? program <;> simp [h]

private theorem history_of_ended (h : stage.exit? program ≠ none) (k : Nat) : stage.history program k = [] := by
  rw [history, List.filterMap_eq_nil_iff]
  intro j _
  rw [after_of_ended h, instruction?_eq_none_iff.2 h, Option.map_none]

/-- A longer history starts with the shorter ones. -/
theorem history_prefix (h : j ≤ k) : stage.history program j <+: stage.history program k := by
  induction h with
  | refl => exact List.prefix_refl _
  | step _ ih =>
    rw [history_succ]
    exact ih.trans (List.prefix_append _ _)

theorem history_of_ended_of_le (h : (stage.after program j).exit? program ≠ none) (hjk : j ≤ k) :
    stage.history program k = stage.history program j := by
  induction hjk with
  | refl => rfl
  | step hjk ih =>
    have hended := after_of_ended_of_le h hjk
    rw [history_succ, hended, instruction?_eq_none_iff.2 h, ih]
    exact List.append_nil _

/-- What is executed stands in the program. -/
theorem mem_of_mem_history {entry : State × Instruction} (h : entry ∈ stage.history program k) :
    entry.2 ∈ program := by
  obtain ⟨j, -, hj⟩ := List.mem_filterMap.1 h
  obtain ⟨i, hi, rfl⟩ := Option.map_eq_some_iff.1 hj
  unfold instruction? at hi
  split at hi
  · cases hi
  · exact Array.mem_of_getElem? hi

theorem length_history_le : (stage.history program k).length ≤ k := by
  have h := List.length_filterMap_le (fun j => ((stage.after program j).instruction? program).map
    fun i => ((stage.after program j).state, i)) (List.range k)
  rwa [List.length_range] at h

/-- Every step of a run that goes on executes one instruction. -/
theorem length_history_of_running (h : (stage.after program k).exit? program = none) :
    (stage.history program k).length = k := by
  induction k with
  | zero => rfl
  | succ k ih =>
    have hk := running_of_le h (Nat.le_succ k)
    obtain ⟨i, hi, -⟩ := instruction?_eq_some hk
    rw [history_succ, hi, List.length_append, ih hk]
    rfl

/-- The number of steps is the number of executed instructions. -/
theorem steps_after : (stage.after program k).state.steps = stage.state.steps + (stage.history program k).length := by
  induction k with
  | zero => simp
  | succ k ih =>
    rw [after_succ, history_succ, List.length_append]
    cases h : (stage.after program k).instruction? program with
    | none => simpa [next, h] using ih
    | some i => simp [next_of_instruction? h, State.step, ih, Nat.add_assoc]

/-- The stage after all instructions that are executed within `k` steps is the stage after `k` steps, and the
instructions are the same. -/
theorem after_history_length_history :
    stage.after program (stage.history program k).length = stage.after program k ∧
      stage.history program (stage.history program k).length = stage.history program k := by
  induction k with
  | zero => simp
  | succ k ih =>
    cases h : (stage.after program k).exit? program with
    | none =>
      obtain ⟨i, hi, -⟩ := instruction?_eq_some h
      have hlength : (stage.history program (k + 1)).length = k + 1 := by
        rw [history_succ, hi, List.length_append, length_history_of_running h]
        rfl
      rw [hlength]
      exact ⟨rfl, rfl⟩
    | some exit =>
      have hended : (stage.after program k).exit? program ≠ none := by simp [h]
      have hsame : stage.history program (k + 1) = stage.history program k := by
        rw [history_succ, instruction?_eq_none_iff.2 hended]
        exact List.append_nil _
      rw [hsame, after_succ, next_of_ended hended]
      exact ih

/-- A run that has halted stands on the `HALT` that was executed last. -/
theorem getLast?_history_of_halted (hstart : stage.halted = false) (h : (stage.after program k).halted = true) :
    program[(stage.after program k).state.pc]? = some .halt ∧
      ∃ s, (stage.history program k).getLast? = some (s, .halt) ∧ (stage.after program k).state = s.step .halt := by
  induction k with
  | zero => simp [hstart] at h
  | succ k ih =>
    rw [history_succ]
    rw [after_succ] at h ⊢
    cases hi : (stage.after program k).instruction? program with
    | none =>
      have hsame : (stage.after program k).next program = stage.after program k := by simp [next, hi]
      rw [hsame] at h ⊢
      simpa using ih h
    | some i =>
      rw [next_of_instruction? hi] at h ⊢
      obtain rfl : i = .halt := of_decide_eq_true h
      refine ⟨?_, (stage.after program k).state, by simp, rfl⟩
      unfold instruction? at hi
      split at hi
      · cases hi
      · exact hi

end Stage

/-! ### Runs with a ceiling -/

/-- What a backend makes of the events of a history. -/
def Backend.replay {σ : Type} (backend : Backend σ) (entries : List (State × Instruction)) (received : σ) : σ :=
  entries.foldl (fun received entry => backend.receive entry.2 entry.1 received) received

/-- A run with a ceiling stands where the unbounded run stands after so many instructions. -/
theorem runFrom_eq {σ : Type} (backend : Backend σ) (program : Program) (k : Nat) (s : State) (received : σ) :
    runFrom backend program k s received =
      ⟨((Stage.after program k ⟨s, false⟩).exit? program).getD .instructionLimit,
        (Stage.after program k ⟨s, false⟩).state,
        backend.replay (Stage.history program k ⟨s, false⟩) received⟩ := by
  induction k generalizing s received with
  | zero =>
    by_cases h : s.pc < program.size <;> simp [runFrom, Stage.exit?, Backend.replay, h]
  | succ k ih =>
    have hinstruction : Stage.instruction? program ⟨s, false⟩ = program[s.pc]? := by simp [Stage.instruction?]
    unfold runFrom
    split
    · -- the counter has left the program
      rename_i h
      have hexit : Stage.exit? program ⟨s, false⟩ = some .endOfProgram := by simpa [Stage.exit?] using h
      have hended : Stage.exit? program ⟨s, false⟩ ≠ none := by simp [hexit]
      rw [Stage.after_of_ended hended, Stage.history_of_ended hended, hexit]
      rfl
    · rename_i h
      have hended : Stage.exit? program ⟨s.step .halt, true⟩ ≠ none := by simp [Stage.exit?]
      have hnext : Stage.next program ⟨s, false⟩ = ⟨s.step .halt, true⟩ := by
        rw [Stage.next_of_instruction? (hinstruction.trans h)]
        simp
      rw [Stage.after_succ', Stage.history_succ', hnext, Stage.after_of_ended hended,
        Stage.history_of_ended hended, hinstruction, h]
      rfl
    · rename_i i hhalt h
      have hnext : Stage.next program ⟨s, false⟩ = ⟨s.step i, false⟩ := by
        rw [Stage.next_of_instruction? (hinstruction.trans h)]
        simpa using hhalt
      rw [ih, Stage.after_succ', Stage.history_succ', hnext, hinstruction, h]
      rfl

theorem runWithin_eq {σ : Type} (backend : Backend σ) (program : Program) (k : Nat) (received : σ) :
    runWithin backend program k received =
      ⟨((Stage.after program k {}).exit? program).getD .instructionLimit,
        (Stage.after program k {}).state,
        backend.replay (Stage.history program k {}) received⟩ :=
  runFrom_eq backend program k {} received

theorem state_runWithin {σ : Type} (backend : Backend σ) (program : Program) (k : Nat) (received : σ) :
    (runWithin backend program k received).state = (Stage.after program k {}).state := by
  rw [runWithin_eq]

/-- A run with a ceiling reports the end of the program exactly if the counter has left it. -/
theorem exit_runWithin_eq_endOfProgram_iff {σ : Type} (backend : Backend σ) (program : Program) (k : Nat)
    (received : σ) :
    (runWithin backend program k received).exit = .endOfProgram ↔
      program.size ≤ (runWithin backend program k received).state.pc := by
  rw [runWithin_eq]
  show ((Stage.after program k {}).exit? program).getD .instructionLimit = .endOfProgram ↔
    program.size ≤ (Stage.after program k {}).state.pc
  unfold Stage.exit?
  split
  · -- a `HALT` stands inside the program
    rename_i hhalted
    have hinside := (Stage.getLast?_history_of_halted rfl hhalted).1
    obtain ⟨hpc, -⟩ := Array.getElem?_eq_some_iff.1 hinside
    simpa using hpc
  · split
    · rename_i hpc
      simpa using hpc
    · rename_i hpc
      simpa using hpc

/-- Whatever has an outcome has the outcome of a run with a ceiling. -/
theorem exists_eq_runWithin {σ : Type} {backend : Backend σ} {program : Program} {ceiling : Option Nat}
    {received : σ} {outcome : Outcome σ} (h : run? backend program ceiling received = some outcome) :
    ∃ k, outcome = runWithin backend program k received := by
  cases ceiling with
  | some k => exact ⟨k, (Option.some.inj h).symm⟩
  | none =>
    simp only [run?] at h
    split at h
    · cases h
    · exact ⟨_, (Option.some.inj h).symm⟩

end Ostinato
