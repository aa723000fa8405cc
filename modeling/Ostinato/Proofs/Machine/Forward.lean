import Ostinato.Proofs.Machine.Ceiling
import Ostinato.Proofs.Source.Jumps

/-!
# Programs that only jump forward

If every jump leads further on, the counter grows with every instruction, so none is executed twice and a run is over
before there are more instructions executed than there are in the program (`run?_of_forwardOnly`).  The measure is the
distance of the counter from the end: a jump may pass the end, which ends the run, and a `HALT`, which leaves the
counter where it is, ends it as well.

* `ForwardOnly`: programs without jumps that lead back.
* `Stage.visited`: the indices of the instructions that are executed.
-/

namespace Ostinato

/-- Every target of a jump lies behind the jump, inside the program or not. -/
def ForwardOnly (program : Program) : Prop :=
  ∀ index < program.size, ∀ target ∈ program[index]?.bind Instruction.target?, index < target

instance (program : Program) : Decidable (ForwardOnly program) :=
  inferInstanceAs (Decidable (∀ index < program.size, _))

/-- Whatever is executed but a `HALT` leads further on. -/
private theorem ForwardOnly.lt_pc_step {program : Program} (h : ForwardOnly program) {s : State} {i : Instruction}
    (hi : program[s.pc]? = some i) (hhalt : i ≠ .halt) : s.pc < (s.step i).pc := by
  obtain ⟨hpc, -⟩ := Array.getElem?_eq_some_iff.1 hi
  rcases s.pc_step i with hnext | hjump | ⟨hstay, -⟩
  · omega
  · refine h s.pc hpc _ ?_
    rw [hi]
    exact hjump
  · exact absurd hstay hhalt

namespace Stage

variable {program : Program} {stage : Stage} {j k : Nat}

/-- The indices of the next `k` instructions that are executed, in the order of execution. -/
def visited (program : Program) (k : Nat) (stage : Stage) : List Nat :=
  (stage.history program k).map fun entry => entry.1.pc

private theorem length_visited : (stage.visited program k).length = (stage.history program k).length :=
  List.length_map _

private theorem visited_succ_of_running (h : (stage.after program k).exit? program = none) :
    stage.visited program (k + 1) = stage.visited program k ++ [(stage.after program k).state.pc] := by
  obtain ⟨i, hi, -⟩ := instruction?_eq_some h
  rw [visited, history_succ, hi, List.map_append]
  rfl

private theorem visited_succ_of_ended (h : (stage.after program k).exit? program ≠ none) :
    stage.visited program (k + 1) = stage.visited program k := by
  rw [visited, history_of_ended_of_le h (Nat.le_succ k), visited]

/-- If the run goes on after one more step, that step has moved the counter further on. -/
private theorem pc_after_lt_of_running (hforward : ForwardOnly program)
    (h : (stage.after program (k + 1)).exit? program = none) :
    (stage.after program k).state.pc < (stage.after program (k + 1)).state.pc := by
  obtain ⟨i, hi, hget⟩ := instruction?_eq_some (running_of_le h (Nat.le_succ k))
  rw [after_succ, next_of_instruction? hi] at h ⊢
  have hhalt : i ≠ .halt := of_decide_eq_false (exit?_eq_none_iff.1 h).1
  exact hforward.lt_pc_step hget hhalt

/-- As long as a run goes on, the counter has grown by one at least with every step. -/
private theorem le_pc_after_of_running (hforward : ForwardOnly program)
    (h : (stage.after program k).exit? program = none) : k ≤ (stage.after program k).state.pc := by
  induction k with
  | zero => exact Nat.zero_le _
  | succ k ih =>
    have hle := ih (running_of_le h (Nat.le_succ k))
    have hlt := pc_after_lt_of_running hforward h
    omega

/-- What has been executed lies in front of the counter, as long as the run goes on. -/
private theorem lt_pc_after_of_mem_visited (hforward : ForwardOnly program)
    (h : (stage.after program k).exit? program = none) {index : Nat} (hindex : index ∈ stage.visited program k) :
    index < (stage.after program k).state.pc := by
  induction k with
  | zero => cases hindex
  | succ k ih =>
    have hrunning := running_of_le h (Nat.le_succ k)
    have hlt := pc_after_lt_of_running hforward h
    rw [visited_succ_of_running hrunning, List.mem_append, List.mem_singleton] at hindex
    rcases hindex with hbefore | rfl
    · exact (ih hrunning hbefore).trans hlt
    · exact hlt

private theorem pairwise_visited (hforward : ForwardOnly program) (k : Nat) :
    (stage.visited program k).Pairwise (· < ·) := by
  induction k with
  | zero => exact List.Pairwise.nil
  | succ k ih =>
    by_cases hrunning : (stage.after program k).exit? program = none
    · rw [visited_succ_of_running hrunning, List.pairwise_append]
      refine ⟨ih, List.pairwise_singleton _ _, fun index hindex last hlast => ?_⟩
      obtain rfl := List.mem_singleton.1 hlast
      exact lt_pc_after_of_mem_visited hforward hrunning hindex
    · rw [visited_succ_of_ended hrunning]
      exact ih

/-- Only instructions of the program are executed. -/
private theorem lt_size_of_mem_visited {index : Nat} (hindex : index ∈ stage.visited program k) :
    index < program.size := by
  induction k with
  | zero => cases hindex
  | succ k ih =>
    by_cases hrunning : (stage.after program k).exit? program = none
    · rw [visited_succ_of_running hrunning, List.mem_append, List.mem_singleton] at hindex
      rcases hindex with hbefore | rfl
      · exact ih hbefore
      · exact (exit?_eq_none_iff.1 hrunning).2
    · rw [visited_succ_of_ended hrunning] at hindex
      exact ih hindex

/-- After as many steps as there are instructions the run is over. -/
private theorem ended_of_forwardOnly (hforward : ForwardOnly program) :
    (stage.after program program.size).exit? program ≠ none := by
  intro h
  have hle := le_pc_after_of_running hforward h
  have hlt := (exit?_eq_none_iff.1 h).2
  omega

end Stage

/-- A program that only jumps forward ends by itself.  The indices of the executed instructions increase, so each
instruction is executed once at most, and no ceiling from the size of the program on is noticed. -/
theorem run?_of_forwardOnly {program : Program} (hforward : ForwardOnly program) :
    (∀ k, (Stage.visited program k {}).Pairwise (· < ·) ∧ (Stage.visited program k {}).Nodup ∧
      ∀ index ∈ Stage.visited program k {}, index < program.size) ∧
      ∀ {σ : Type} (backend : Backend σ) (received : σ),
        ∃ outcome, run? backend program none received = some outcome ∧ outcome.exit ≠ .instructionLimit ∧
          (Stage.visited program outcome.state.steps {}).length = outcome.state.steps ∧
          outcome.state.steps ≤ program.size ∧
          ∀ k, program.size ≤ k → run? backend program (some k) received = some outcome := by
  constructor
  · intro k
    have hincreasing := @Stage.pairwise_visited program {} hforward k
    exact ⟨hincreasing, hincreasing.imp Nat.ne_of_lt, fun _ hindex => Stage.lt_size_of_mem_visited hindex⟩
  · intro σ backend received
    have hended := @Stage.ended_of_forwardOnly program {} hforward
    refine ⟨runWithin backend program program.size received, run?_none_of_ended backend received hended, ?_, ?_, ?_, ?_⟩
    · exact fun hlimit => hended ((exit_runWithin_eq_limit_iff backend received).1 hlimit)
    · rw [steps_runWithin, Stage.length_visited, Stage.after_history_length_history.2]
    · rw [steps_runWithin]
      exact Stage.length_history_le
    · intro k hk
      exact congrArg some (runWithin_of_ended_of_le backend received hended hk)

/-- A counted jump that is taken and one that is not, and a jump past the end. -/
def skipping : Program :=
  #[.load (Register.ofNat? 0) 2, .decJnz (Register.ofNat? 0) (some 3), .halt, .decJnz (Register.ofNat? 0) (some 5),
    .jmp (some 99), .halt]

theorem run?_of_forwardOnly_skipping :
    ForwardOnly skipping ∧ (∃ outcome, run? .collect skipping none {} = some outcome ∧ outcome.state.steps ≤ 6 ∧
      ∀ k, 6 ≤ k → run? .collect skipping (some k) {} = some outcome) ∧
      Stage.visited skipping 6 {} = [0, 1, 3, 4] ∧ (Stage.visited skipping 6 {}).Pairwise (· < ·) := by
  have hforward : ForwardOnly skipping := by decide
  obtain ⟨hvisited, hrun⟩ := run?_of_forwardOnly hforward
  obtain ⟨outcome, hends, -, -, hsteps, hceiling⟩ := hrun .collect {}
  exact ⟨hforward, ⟨outcome, hends, hsteps, hceiling⟩, by decide, (hvisited 6).1⟩

end Ostinato
