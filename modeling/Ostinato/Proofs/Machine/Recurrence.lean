import Ostinato.Proofs.Machine.Lockstep

/-!
# Recurrence of control states

The counter and the registers of a run alone decide where it goes; the clock and the settings only record.  So a run
that returns to a counter and registers that it had before goes round for ever (`Stage.running_of_repetition`), and a
run that is longer than there are such combinations has returned to one (`Stage.exists_repetition`).  Together: what
has not ended after `controlStates` instructions never ends.
-/

namespace Ostinato

/-! ### Control -/

/-- What decides where a run goes. -/
def State.control (s : State) : Nat × Vector Int64 registerCount :=
  (s.pc, s.registers)

private theorem State.control_step {s t : State} (h : s.control = t.control) (i : Instruction) :
    (s.step i).control = (t.step i).control := by
  obtain ⟨hpc, hregisters⟩ := Prod.mk.injEq .. ▸ h
  cases i with
  | load register value => cases register <;> simp [control, step, effect, hpc, hregisters]
  | decJnz register target => cases register <;> simp [control, step, effect, hpc, hregisters]
  | jmp target => cases target <;> simp [control, step, effect, hpc, hregisters]
  | _ => simp [control, step, effect, hpc, hregisters]

/-- The same instruction does the same to states with the same control. -/
private theorem lockstep_control : Lockstep State.control Eq where
  pc_eq h := congrArg Prod.fst h
  halt_iff h := by rw [h]
  view_step h hcontrol := by
    subst h
    exact State.control_step hcontrol _

namespace Stage

variable {program : Program} {stage other : Stage} {i j k : Nat}

/-- What decides where a run goes and whether it goes on. -/
def control (stage : Stage) : Bool × Nat × Vector Int64 registerCount :=
  (stage.halted, stage.state.control)

private theorem exit?_congr (h : stage.control = other.control) : stage.exit? program = other.exit? program :=
  lockstep_control.exit?_eq (List.forall₂_refl _) h

private theorem control_after (h : stage.control = other.control) (k : Nat) :
    (stage.after program k).control = (other.after program k).control :=
  lockstep_control.seen_after (List.forall₂_refl _) h k

/-! ### Going round -/

/-- Once the control has returned it goes round. -/
theorem control_after_repetition (h : (stage.after program i).control = (stage.after program j).control)
    (hij : i ≤ j) (q d : Nat) :
    (stage.after program (i + q * (j - i) + d)).control = (stage.after program (i + d)).control := by
  induction q with
  | zero => rw [Nat.zero_mul, Nat.add_zero]
  | succ q ih =>
    have hround : i + (q + 1) * (j - i) + d = j + (q * (j - i) + d) := by
      rw [Nat.add_mul]
      omega
    rw [hround, after_add, ← control_after h, ← after_add, ← Nat.add_assoc]
    exact ih

/-- A run that has returned to the control it had before never ends. -/
theorem running_of_repetition (h : (stage.after program i).control = (stage.after program j).control)
    (hij : i < j) (hrunning : (stage.after program i).exit? program = none) (k : Nat) :
    (stage.after program k).exit? program = none := by
  have hround := control_after_repetition h (Nat.le_of_lt hij) k 0
  have hlate : (stage.after program (i + k * (j - i) + 0)).exit? program = none := by
    rw [exit?_congr hround]
    exact hrunning
  -- `k` rounds take at least `k` steps, so the run goes on at step `k` too
  have hle : k ≤ i + k * (j - i) + 0 := by
    have := Nat.le_mul_of_pos_right k (Nat.sub_pos_of_lt hij)
    omega
  exact running_of_le hlate hle

/-- The control of a run that goes on, as one of finitely many. -/
private def controlIndex (stage : Stage) (hpc : stage.state.pc < program.size) :
    Fin program.size × (Fin registerCount → Fin UInt64.size) :=
  (⟨stage.state.pc, hpc⟩, fun r => stage.state.registers[r].toUInt64.toFin)

private theorem control_eq_of_controlIndex_eq {hpc : stage.state.pc < program.size}
    {hpc' : other.state.pc < program.size}
    (h : stage.controlIndex hpc = other.controlIndex hpc') : stage.state.control = other.state.control := by
  simp only [controlIndex, Prod.mk.injEq, Fin.mk.injEq] at h
  refine Prod.ext h.1 ?_
  apply Vector.ext
  intro r hr
  have hword := UInt64.toFin_inj.1 (congrFun h.2 ⟨r, hr⟩)
  exact congrArg UInt64.toInt64 hword

/-- A run that is longer than there are combinations of counter and registers has been in one of them twice. -/
theorem exists_repetition (h : (stage.after program (controlStates program)).exit? program = none) :
    ∃ i j, i < j ∧ (stage.after program i).exit? program = none ∧
      (stage.after program i).control = (stage.after program j).control := by
  have hrunning : ∀ k : Fin (controlStates program + 1), (stage.after program k).exit? program = none :=
    fun k => running_of_le h (Nat.le_of_lt_succ k.isLt)
  have hcard : Fintype.card (Fin program.size × (Fin registerCount → Fin UInt64.size)) <
      Fintype.card (Fin (controlStates program + 1)) := by
    rw [Fintype.card_prod, Fintype.card_fun, Fintype.card_fin, Fintype.card_fin, Fintype.card_fin,
      Fintype.card_fin]
    exact Nat.lt_succ_self _
  -- one stage more than there are combinations
  obtain ⟨a, b, hne, hab⟩ := Fintype.exists_ne_map_eq_of_card_lt
    (fun k : Fin (controlStates program + 1) =>
      (stage.after program k).controlIndex (exit?_eq_none_iff.1 (hrunning k)).2) hcard
  have hcontrol : (stage.after program a).control = (stage.after program b).control := by
    refine Prod.ext ?_ (control_eq_of_controlIndex_eq hab)
    exact (exit?_eq_none_iff.1 (hrunning a)).1.trans (exit?_eq_none_iff.1 (hrunning b)).1.symm
  rcases Nat.lt_or_gt_of_ne (fun e => hne (Fin.ext e)) with hlt | hlt
  · exact ⟨a, b, hlt, hrunning a, hcontrol⟩
  · exact ⟨b, a, hlt, hrunning b, hcontrol.symm⟩

/-- What has not ended after as many instructions as there are combinations of counter and registers never ends. -/
theorem running_of_controlStates (h : (stage.after program (controlStates program)).exit? program = none)
    (k : Nat) : (stage.after program k).exit? program = none := by
  obtain ⟨i, j, hij, hi, hcontrol⟩ := exists_repetition h
  exact running_of_repetition hcontrol hij hi k

end Stage

end Ostinato
