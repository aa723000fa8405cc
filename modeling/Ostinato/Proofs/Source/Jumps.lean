import Ostinato.Proofs.Machine.History
import Ostinato.Proofs.Source.Compiled

/-!
# Jumps, from the text to the counter

Where a run of a compiled text goes, said about the lines of the text: a jump that is taken leads to the number of
instruction lines in front of the last declaration of its label, everything else but a `HALT` to the next instruction.
The counter never leaves the program by more than the index behind its last instruction, because every resolved
target is such an index (`Stage.pc_after_le`).
-/

namespace Ostinato

open Text

/-! ### Where an instruction leads -/

/-- The index that an instruction may jump to. -/
def Instruction.target? : Instruction → Option Nat
  | .decJnz _ target => target
  | .jmp target => target
  | _ => none

private theorem State.pc_step_decJnz (s : State) (r : Register) (t : Nat) :
    (s.step (.decJnz (some r) (some t))).pc =
      if 0 < saturatingPred (s.registers.get r) then t else s.pc + 1 := by
  show Flow.follow s.pc (if 0 < saturatingPred (s.registers.get r) then .jump t else .next) = _
  split <;> rfl

private theorem State.registers_step_decJnz (s : State) (r : Register) (target : Option Nat) :
    (s.step (.decJnz (some r) target)).registers =
      s.registers.set r (saturatingPred (s.registers.get r)) r.isLt := rfl

/-- The counter moves on, jumps to the target of the instruction, or stays at a `HALT`. -/
theorem State.pc_step (s : State) (i : Instruction) :
    (s.step i).pc = s.pc + 1 ∨ i.target? = some (s.step i).pc ∨ i = .halt ∧ (s.step i).pc = s.pc := by
  cases i with
  | load register value => cases register <;> exact .inl rfl
  | decJnz register target =>
    rcases register with _ | r
    · exact .inl rfl
    · rcases target with _ | t
      · exact .inl rfl
      · rw [pc_step_decJnz]
        split
        · exact .inr (.inl rfl)
        · exact .inl rfl
  | jmp target =>
    rcases target with _ | t
    · exact .inl rfl
    · exact .inr (.inl rfl)
  | halt => exact .inr (.inr ⟨rfl, rfl⟩)
  | _ => exact .inl rfl

/-- Without a target only a `HALT` does not lead to the next instruction. -/
private theorem State.pc_step_of_target?_eq_none {i : Instruction} (s : State) (h : i.target? = none)
    (hhalt : i ≠ .halt) : (s.step i).pc = s.pc + 1 := by
  cases i with
  | load register value => cases register <;> rfl
  | decJnz register target =>
    obtain rfl : target = none := h
    cases register <;> rfl
  | jmp target =>
    obtain rfl : target = none := h
    rfl
  | halt => exact absurd rfl hhalt
  | _ => rfl

/-- If all targets are inside the program or right behind it, so is the counter. -/
theorem Stage.pc_after_le {program : Program}
    (h : ∀ i ∈ program, ∀ target, i.target? = some target → target ≤ program.size) (k : Nat) :
    (Stage.after program k {}).state.pc ≤ program.size := by
  induction k with
  | zero => exact Nat.zero_le _
  | succ k ih =>
    rw [Stage.after_succ]
    cases hexit : (Stage.after program k {}).exit? program with
    | some exit =>
      rw [Stage.next_of_ended (by simp [hexit])]
      exact ih
    | none =>
      obtain ⟨i, hi, hget⟩ := Stage.instruction?_eq_some hexit
      obtain ⟨hpc, hmem⟩ := Array.getElem?_eq_some_iff.1 hget
      rw [Stage.next_of_instruction? hi]
      show ((Stage.after program k {}).state.step i).pc ≤ program.size
      rcases State.pc_step (Stage.after program k {}).state i with hnext | hjump | ⟨-, hstay⟩
      · omega
      · exact h i (hmem ▸ Array.getElem_mem hpc) _ hjump
      · omega

/-- A register counts down to the least number and no further. -/
theorem toInt_saturatingPred (value : Int64) :
    (saturatingPred value).toInt = max (-2 ^ 63) (value.toInt - 1) := by
  have hle := value.le_toInt
  have hlt := value.toInt_lt
  unfold saturatingPred
  split
  · rename_i h
    rw [h, Int64.toInt_minValue]
    omega
  · rename_i h
    have hne : value.toInt ≠ -2 ^ 63 := fun e => h (Int64.toInt_inj.1 (e.trans Int64.toInt_minValue.symm))
    rw [Int64.toInt_sub, Int64.toInt_one, Int.bmod_eq_of_le (by omega) (by omega)]
    omega

/-! ### Where a line leads -/

/-- The label that an instruction line leads to instead of the next line, if the registers hold the given values
after it: a jump leads to its label, which is the empty name if none is written, a counted one only with a register
that exists and is still positive. -/
def jumpLabel? (registers : Vector Int64 registerCount) : List (List Char) → Option (List Char)
  | [] => none
  | mnemonic :: operands =>
    if String.ofList mnemonic = "JMP" then some (operands.headD [])
    else if String.ofList mnemonic = "DECJNZ" then
      (operands.head?.bind Register.ofWord?).bind fun r =>
        if 0 < registers.get r then some (operands.tail.headD []) else none
    else none

section Decoding

variable {labels : Labels}

private theorem decodeOperands_jmp (operands : List (List Char)) :
    (decodeOperands labels .jmp operands).1 = .jmp (labels (String.ofList (operands.headD []))) := by
  rcases operands with _ | ⟨name, rest⟩
  · cases h : labels (String.ofList []) <;>
      simp_all [decodeOperands, readInstruction, readTarget, Operands.word]
  · cases h : labels (String.ofList name) <;>
      simp [decodeOperands, readInstruction, readTarget, Operands.word, h]

private theorem decodeOperands_decJnz (operands : List (List Char)) :
    (decodeOperands labels .decJnz operands).1 =
      .decJnz (operands.head?.bind Register.ofWord?) (labels (String.ofList (operands.tail.headD []))) := by
  rcases operands with _ | ⟨word, _ | ⟨name, rest⟩⟩
  · cases h : labels (String.ofList []) <;>
      simp_all [decodeOperands, readInstruction, readRegister, readTarget, Operands.word]
  · cases h : labels (String.ofList []) <;> cases hr : Register.ofWord? word <;>
      simp_all [decodeOperands, readInstruction, readRegister, readTarget, Operands.word]
  · cases h : labels (String.ofList name) <;> cases hr : Register.ofWord? word <;>
      simp [decodeOperands, readInstruction, readRegister, readTarget, Operands.word, h, hr]

/-- Only a jump is decoded to an instruction with a target, and its target is that of a label. -/
private theorem exists_label_of_target? {words : List (List Char)} {target : Nat}
    (h : (decodeWords labels words).1.target? = some target) : ∃ name, labels (String.ofList name) = some target := by
  rcases words with _ | ⟨mnemonic, operands⟩
  · cases h
  · cases hopcode : Opcode.ofMnemonic? (String.ofList mnemonic) with
    | none =>
      simp [decodeWords, hopcode, Instruction.target?] at h
    | some opcode =>
      rw [decodeWords_cons (Opcode.ofMnemonic?_eq_some_iff.1 hopcode)] at h
      cases opcode with
      | decJnz =>
        rw [decodeOperands_decJnz] at h
        exact ⟨_, h⟩
      | jmp =>
        rw [decodeOperands_jmp] at h
        exact ⟨_, h⟩
      | _ => cases h

section JumpLabel

variable {registers : Vector Int64 registerCount} {mnemonic : List Char}

private theorem jumpLabel?_jmp (h : Opcode.jmp.mnemonic = String.ofList mnemonic) (operands : List (List Char)) :
    jumpLabel? registers (mnemonic :: operands) = some (operands.headD []) := by
  rw [jumpLabel?, ← h]
  rfl

private theorem jumpLabel?_decJnz (h : Opcode.decJnz.mnemonic = String.ofList mnemonic) (operands : List (List Char)) :
    jumpLabel? registers (mnemonic :: operands) =
      (operands.head?.bind Register.ofWord?).bind fun r =>
        if 0 < registers.get r then some (operands.tail.headD []) else none := by
  rw [jumpLabel?, ← h]
  rfl

private theorem jumpLabel?_plain {opcode : Opcode} (h : opcode.mnemonic = String.ofList mnemonic) (hjmp : opcode ≠ .jmp)
    (hdecJnz : opcode ≠ .decJnz) (operands : List (List Char)) :
    jumpLabel? registers (mnemonic :: operands) = none := by
  rw [jumpLabel?, ← h]
  have hne : opcode.mnemonic ≠ "JMP" := fun e => hjmp (Opcode.mnemonic_injective e)
  have hne' : opcode.mnemonic ≠ "DECJNZ" := fun e => hdecJnz (Opcode.mnemonic_injective e)
  rw [if_neg hne, if_neg hne']

private theorem head?_ne_halt_of_jumpLabel? {words : List (List Char)} {name : List Char}
    (h : jumpLabel? registers words = some name) : words.head? ≠ some "HALT".toList := by
  intro e
  obtain ⟨operands, rfl⟩ := List.head?_eq_some_iff.1 e
  have hname : Opcode.halt.mnemonic = String.ofList "HALT".toList := String.ofList_toList.symm
  rw [jumpLabel?_plain hname (by decide) (by decide)] at h
  cases h

end JumpLabel

/-- The counter after an instruction line: at the label that it leads to, if that is declared, else further on. -/
private theorem pc_step_decodeWords (words : List (List Char)) (s : State) (hhalt : words.head? ≠ some "HALT".toList) :
    (s.step (decodeWords labels words).1).pc =
      ((jumpLabel? (s.step (decodeWords labels words).1).registers words).bind
        fun name => labels (String.ofList name)).getD (s.pc + 1) := by
  rcases words with _ | ⟨mnemonic, operands⟩
  · rfl
  cases hopcode : Opcode.ofMnemonic? (String.ofList mnemonic) with
  | none =>
    have hne : ∀ opcode : Opcode, String.ofList mnemonic ≠ opcode.mnemonic := by
      intro opcode e
      rw [e, Opcode.ofMnemonic?_mnemonic] at hopcode
      cases hopcode
    have hjmp : String.ofList mnemonic ≠ "JMP" := hne .jmp
    have hdecJnz : String.ofList mnemonic ≠ "DECJNZ" := hne .decJnz
    rw [jumpLabel?, if_neg hjmp, if_neg hdecJnz]
    simp [decodeWords, hopcode, State.step, effect, Flow.follow]
  | some opcode =>
    have hname := Opcode.ofMnemonic?_eq_some_iff.1 hopcode
    -- whatever is no jump and no `HALT` has neither a label nor a target
    have hplain : opcode ≠ .jmp → opcode ≠ .decJnz → (decodeOperands labels opcode operands).1.target? = none →
        (decodeOperands labels opcode operands).1 ≠ .halt →
        (s.step (decodeOperands labels opcode operands).1).pc =
          ((jumpLabel? (s.step (decodeOperands labels opcode operands).1).registers (mnemonic :: operands)).bind
            fun name => labels (String.ofList name)).getD (s.pc + 1) := by
      intro hjmp hdecJnz htarget hne
      rw [jumpLabel?_plain hname hjmp hdecJnz, State.pc_step_of_target?_eq_none s htarget hne]
      rfl
    rw [decodeWords_cons hname]
    cases opcode with
    | jmp =>
      rw [decodeOperands_jmp, jumpLabel?_jmp hname, Option.bind_some]
      cases labels (String.ofList (operands.headD [])) <;> rfl
    | decJnz =>
      rw [decodeOperands_decJnz, jumpLabel?_decJnz hname]
      cases operands.head?.bind Register.ofWord? with
      | none => rfl
      | some r =>
        have hvalue : (s.registers.set r (saturatingPred (s.registers.get r)) r.isLt).get r =
            saturatingPred (s.registers.get r) := Vector.getElem_set_self r.isLt
        rw [Option.bind_some, State.registers_step_decJnz, hvalue]
        -- the label is looked up whether the jump is taken or not
        by_cases hpositive : 0 < saturatingPred (s.registers.get r)
        · rw [if_pos hpositive, Option.bind_some]
          cases labels (String.ofList (operands.tail.headD [])) with
          | none => rfl
          | some t => rw [State.pc_step_decJnz, if_pos hpositive, Option.getD_some]
        · rw [if_neg hpositive]
          cases labels (String.ofList (operands.tail.headD [])) with
          | none => rfl
          | some t => rw [State.pc_step_decJnz, if_neg hpositive, Option.bind_none, Option.getD_none]
    | halt =>
      have hmnemonic := congrArg String.toList hname
      rw [String.toList_ofList] at hmnemonic
      exact absurd (congrArg some hmnemonic.symm) hhalt
    | _ => exact hplain (by decide) (by decide) rfl (by intro e; cases e)

/-- A counted jump takes one off its register, if it names one. -/
private theorem registers_step_decodeWords {words rest : List (List Char)} {word : List Char} {r : Register} (s : State)
    (hwords : words = "DECJNZ".toList :: word :: rest) (hr : Register.ofWord? word = some r) :
    (s.step (decodeWords labels words).1).registers =
      s.registers.set r (saturatingPred (s.registers.get r)) r.isLt := by
  subst hwords
  have hname : Opcode.decJnz.mnemonic = String.ofList "DECJNZ".toList := String.ofList_toList.symm
  rw [decodeWords_cons hname, decodeOperands_decJnz, List.head?_cons, Option.bind_some, hr]
  rfl

end Decoding

/-! ### Compiled texts -/

private theorem getElem?_program_compile (source : String) (j : Nat) :
    (compile source).program[j]? =
      (((contents source).filter isInstruction)[j]?).map fun line =>
        (decodeWords (Listing.parse source).label? (words line)).1 := by
  rw [program_compile, List.getElem?_toArray, List.getElem?_map]

/-- Every resolved target of a compiled text is an index of the program or the one behind the last. -/
private theorem target_le_of_mem_compile {source : String} {i : Instruction} {target : Nat}
    (hmem : i ∈ (compile source).program) (htarget : i.target? = some target) :
    target ≤ (compile source).program.size := by
  obtain ⟨j, hj⟩ := Array.mem_iff_getElem?.1 hmem
  rw [getElem?_program_compile] at hj
  obtain ⟨line, -, rfl⟩ := Option.map_eq_some_iff.1 hj
  obtain ⟨name, hname⟩ := exists_label_of_target? htarget
  rw [Listing.label?_parse] at hname
  rw [size_program_compile]
  have hle := le_of_boundIndex? hname
  omega

/-- The instruction that a run of a compiled text executes is that of the line at the counter. -/
private theorem exists_line_of_running {source : String} {k : Nat}
    (h : (Stage.after (compile source).program k {}).exit? (compile source).program = none) :
    ∃ line, ((contents source).filter isInstruction)[(Stage.after (compile source).program k {}).state.pc]? =
        some line ∧
      (Stage.after (compile source).program (k + 1) {}).state =
        (Stage.after (compile source).program k {}).state.step
          (decodeWords (Listing.parse source).label? (words line)).1 := by
  obtain ⟨i, hi, hget⟩ := Stage.instruction?_eq_some h
  rw [getElem?_program_compile] at hget
  obtain ⟨line, hline, rfl⟩ := Option.map_eq_some_iff.1 hget
  refine ⟨line, hline, ?_⟩
  rw [Stage.after_succ, Stage.next_of_instruction? hi]

/-- A run of a compiled text follows its lines: the counter stays inside the program or right behind it, a jump that
is taken leads to the number of instruction lines in front of the last declaration of its label, and whatever else is
no `HALT` leads to the next line, while a counted jump takes one off its register in any case. -/
theorem compile_follows_lines (source : String) :
    let program := (compile source).program
    let lines := contents source
    program.size = lines.countP isInstruction ∧
      (∀ i ∈ program, ∀ target, i.target? = some target → target ≤ program.size) ∧
      (∀ k, (Stage.after program k {}).state.pc ≤ program.size) ∧
      (∀ (σ : Type) (backend : Backend σ) (k : Nat) (received : σ),
        (runWithin backend program k received).state = (Stage.after program k {}).state) ∧
      (∀ (σ : Type) (backend : Backend σ) (ceiling : Option Nat) (received : σ) (outcome : Outcome σ),
        run? backend program ceiling received = some outcome →
          outcome.state.pc ≤ program.size ∧ (outcome.exit = .endOfProgram → outcome.state.pc = program.size)) ∧
      ∀ k, (Stage.after program k {}).exit? program = none →
        let s := (Stage.after program k {}).state
        let t := (Stage.after program (k + 1) {}).state
        ∃ line, (lines.filter isInstruction)[s.pc]? = some line ∧
          (∀ name, jumpLabel? t.registers (words line) = some name →
            ∀ before after, lines = before ++ (':' :: name) :: after → (':' :: name) ∉ after →
              t.pc = before.countP isInstruction) ∧
          ((words line).head? ≠ some "HALT".toList →
            (∀ name, jumpLabel? t.registers (words line) = some name → (':' :: name) ∉ lines) →
              t.pc = s.pc + 1) ∧
          ∀ word rest r, words line = "DECJNZ".toList :: word :: rest → Register.ofWord? word = some r →
            ∃ value : Int64, value.toInt = max (-2 ^ 63) ((s.registers.get r).toInt - 1) ∧
              t.registers = s.registers.set r value r.isLt := by
  intro program lines
  have htargets : ∀ i ∈ program, ∀ target, i.target? = some target → target ≤ program.size :=
    fun i hi target htarget => target_le_of_mem_compile hi htarget
  have hbound := Stage.pc_after_le htargets
  refine ⟨size_program_compile source, htargets, hbound, ?_, ?_, ?_⟩
  · intro σ backend k received
    exact state_runWithin backend program k received
  · intro σ backend ceiling received outcome h
    obtain ⟨k, rfl⟩ := exists_eq_runWithin h
    have hpc : (runWithin backend program k received).state.pc ≤ program.size := by
      rw [state_runWithin]
      exact hbound k
    refine ⟨hpc, fun hexit => Nat.le_antisymm hpc ?_⟩
    exact (exit_runWithin_eq_endOfProgram_iff backend program k received).1 hexit
  · intro k hrunning s t
    obtain ⟨line, hline, hstep⟩ := exists_line_of_running hrunning
    have ht : t = s.step (decodeWords (Listing.parse source).label? (words line)).1 := hstep
    refine ⟨line, hline, ?_, ?_, ?_⟩
    · intro name hname before after hlines hafter
      have hindex : boundIndex? name 0 (contents source) = some (0 + before.countP isInstruction) := by
        rw [show contents source = _ from hlines]
        exact boundIndex?_of_last hafter
      rw [ht, pc_step_decodeWords _ _ (head?_ne_halt_of_jumpLabel? hname), ← ht, hname, Option.bind_some,
        Listing.label?_parse, hindex, Option.getD_some, Nat.zero_add]
    · intro hhalt hundeclared
      rw [ht, pc_step_decodeWords _ _ hhalt, ← ht]
      cases hname : jumpLabel? t.registers (words line) with
      | none => rfl
      | some name =>
        rw [Option.bind_some, Listing.label?_parse, boundIndex?_eq_none_iff.2 (hundeclared name hname)]
        rfl
    · intro word rest r hwords hr
      refine ⟨saturatingPred (s.registers.get r), toInt_saturatingPred _, ?_⟩
      rw [ht]
      exact registers_step_decodeWords s hwords hr

end Ostinato
