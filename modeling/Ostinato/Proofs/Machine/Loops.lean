import Ostinato.Proofs.Machine.Timetable
import Ostinato.Proofs.Source.Jumps

/-!
# Counted loops

A loop that loads a register, plays its body and counts the register down is the body written out as many times as it
goes round.  The body has no way out and leaves the register alone, so a turn is the body and one more instruction that
counts (`Leads.turn`); the loop goes round as long as the register stays positive (`Leads.turns`), at least once.  The
comparison is with the run of a program that is nothing but copies of the body (`leads_copies`).

* `Leads`: a part of a run, with the events that are scheduled on the way.
* `countedLoop_eq_unrolled`: the loop leads to where the copies lead, and schedules what they schedule.
-/

namespace Ostinato

/-! ### Parts of runs -/

namespace Stage

variable {program : Program} {stage : Stage} {j k : Nat}

/-- The events that are scheduled within `k` steps. -/
def scheduled (program : Program) (k : Nat) (stage : Stage) : List Event :=
  (stage.history program k).filterMap fun entry => entry.1.event? entry.2

private theorem history_add :
    stage.history program (j + k) = stage.history program j ++ (stage.after program j).history program k := by
  induction k with
  | zero => simp
  | succ k ih => rw [← Nat.add_assoc, history_succ, history_succ, ih, after_add, List.append_assoc]

private theorem scheduled_add :
    stage.scheduled program (j + k) = stage.scheduled program j ++ (stage.after program j).scheduled program k := by
  rw [scheduled, history_add, List.filterMap_append]
  rfl

end Stage

/-- From the state `s`, the next `k` instructions lead to the state `t` without a halt, and schedule the given
events. -/
structure Leads (program : Program) (k : Nat) (s : State) (events : List Event) (t : State) : Prop where
  after_eq : Stage.after program k ⟨s, false⟩ = ⟨t, false⟩
  scheduled_eq : Stage.scheduled program k ⟨s, false⟩ = events

namespace Leads

variable {program : Program} {s t u : State} {i : Instruction} {j k : Nat} {events later : List Event}

theorem refl (program : Program) (s : State) : Leads program 0 s [] s :=
  ⟨rfl, rfl⟩

theorem trans (h : Leads program j s events t) (hlater : Leads program k t later u) :
    Leads program (j + k) s (events ++ later) u where
  after_eq := by rw [Stage.after_add, h.after_eq, hlater.after_eq]
  scheduled_eq := by rw [Stage.scheduled_add, h.scheduled_eq, h.after_eq, hlater.scheduled_eq]

private theorem of_getElem? (h : program[s.pc]? = some i) (hhalt : i ≠ .halt) :
    Leads program 1 s (s.event? i).toList (s.step i) := by
  have hinstruction : Stage.instruction? program ⟨s, false⟩ = some i := h
  constructor
  · rw [Stage.after_succ', Stage.after_zero, Stage.next_of_instruction? hinstruction, decide_eq_false hhalt]
  · rw [Stage.scheduled, Stage.history_succ', hinstruction, Stage.history_zero]
    cases hevent : s.event? i <;> simp [hevent]

/-- A run with a ceiling that leaves room for a part of it goes on behind that part. -/
private theorem runFrom_collect (h : Leads program j s events t) (budget : Nat) (schedule : Schedule) :
    runFrom .collect program (j + budget) s schedule =
      runFrom .collect program budget t ⟨schedule.events ++ events.toArray⟩ := by
  have hreceived : Backend.collect.replay (Stage.history program j ⟨s, false⟩) schedule =
      ⟨schedule.events ++ events.toArray⟩ := by
    have hevents := events_replay_collect (Stage.history program j ⟨s, false⟩) schedule
    rw [← h.scheduled_eq, Stage.scheduled]
    refine congrArg Schedule.mk (Array.toList_inj.1 ?_)
    rw [Array.toList_append]
    exact hevents
  rw [runFrom_eq, runFrom_eq, Stage.after_add, Stage.history_add, h.after_eq, ← hreceived, Backend.replay,
    List.foldl_append]
  rfl

end Leads

/-! ### Blocks -/

/-- Copies of a block, one behind the other. -/
def copies (count : Nat) (block : List Instruction) : List Instruction :=
  (List.replicate count block).flatten

/-- What holds of the instructions of a block holds of those of its copies. -/
private theorem forall_mem_copies {p : Instruction → Prop} {count : Nat} {block : List Instruction}
    (h : ∀ i ∈ block, p i) : ∀ i ∈ copies count block, p i := by
  intro i hi
  obtain ⟨copy, hcopy, hi⟩ := List.mem_flatten.1 hi
  rw [List.eq_of_mem_replicate hcopy] at hi
  exact h i hi

namespace Instruction

/-- Whether an instruction leads to the next one, whatever the registers hold. -/
def GoesOn : Instruction → Prop
  | .halt => False
  | .jmp target => target = none
  | .decJnz register target => register = none ∨ target = none
  | _ => True

instance : DecidablePred GoesOn := by
  intro i
  cases i <;> unfold GoesOn <;> infer_instance

/-- The register that an instruction changes. -/
def register? : Instruction → Option Register
  | .load register _ => register
  | .decJnz register _ => register
  | _ => none

end Instruction

namespace State

/-- The state after the instructions of a block, one after the other, wherever they stand. -/
def stepAll (s : State) (block : List Instruction) : State :=
  block.foldl State.step s

/-- The events of the instructions of a block. -/
def events : State → List Instruction → List Event
  | _, [] => []
  | s, i :: block => (s.event? i).toList ++ (s.step i).events block

/-- The state with another counter, another number of steps and another value in a register. -/
def moved (s : State) (pc steps : Nat) (r : Register) (value : Int64) : State :=
  { s with pc, steps, registers := s.registers.set r value r.isLt }

variable {s : State} {i : Instruction} {r : Register} {block : List Instruction}

private theorem stepAll_append (s : State) (block rest : List Instruction) :
    s.stepAll (block ++ rest) = (s.stepAll block).stepAll rest :=
  List.foldl_append

private theorem events_append (s : State) (block rest : List Instruction) :
    s.events (block ++ rest) = s.events block ++ (s.stepAll block).events rest := by
  induction block generalizing s with
  | nil => rfl
  | cons i block ih => rw [List.cons_append, events, events, ih, List.append_assoc]; rfl

@[simp] theorem moved_moved (s : State) (pc steps pc' steps' : Nat) (r : Register) (value value' : Int64) :
    (s.moved pc steps r value).moved pc' steps' r value' = s.moved pc' steps' r value' := by
  simp [moved]

private theorem moved_self (s : State) (r : Register) : s.moved s.pc s.steps r (s.registers.get r) = s := by
  have hset : s.registers.set r (s.registers.get r) r.isLt = s.registers := Vector.set_getElem_self r.isLt
  rw [moved, hset]

private theorem get_moved (s : State) (pc steps : Nat) (r : Register) (value : Int64) :
    (s.moved pc steps r value).registers.get r = value :=
  Vector.getElem_set_self r.isLt

private theorem pc_step_of_goesOn (s : State) (h : i.GoesOn) : (s.step i).pc = s.pc + 1 := by
  cases i with
  | load register value => cases register <;> rfl
  | decJnz register target =>
    rcases h with rfl | rfl
    · rfl
    · cases register <;> rfl
  | jmp target =>
    obtain rfl : target = none := h
    rfl
  | halt => exact h.elim
  | _ => rfl

/-- An instruction that leaves a register alone does not look at it, nor at the counter and the number of steps. -/
private theorem step_moved (s : State) (h : i.GoesOn) (hr : i.register? ≠ some r) (pc steps : Nat) (value : Int64) :
    (s.moved pc steps r value).step i = (s.step i).moved (pc + 1) (steps + 1) r value := by
  cases i with
  | load register x =>
    rcases register with _ | r'
    · rfl
    · have hne : (r' : Nat) ≠ r := fun e => hr (congrArg some (Fin.ext e))
      simp only [step, effect, moved, Flow.follow]
      rw [Vector.set_comm _ _ hne]
  | decJnz register target =>
    rcases register with _ | r'
    · rfl
    · obtain rfl : target = none := h.resolve_left (Option.some_ne_none r')
      have hne : (r' : Nat) ≠ r := fun e => hr (congrArg some (Fin.ext e))
      simp only [step, effect, moved, Flow.follow]
      rw [Vector.set_comm _ _ hne]
      simp [Vector.getElem_set_ne, hne.symm]
  | jmp target =>
    obtain rfl : target = none := h
    rfl
  | halt => exact h.elim
  | _ => rfl

/-- Counting a register down, whatever else the state is. -/
private theorem step_moved_decJnz (s : State) (pc steps target : Nat) (r : Register) (value : Int64) :
    (s.moved pc steps r value).step (.decJnz (some r) (some target)) =
      s.moved (if 0 < saturatingPred value then target else pc + 1) (steps + 1) r (saturatingPred value) := by
  have hvalue : (s.moved pc steps r value).registers[r] = value := get_moved s pc steps r value
  simp only [step, effect, hvalue]
  by_cases h : 0 < saturatingPred value <;> simp [moved, Flow.follow, h]

private theorem stepAll_moved (s : State) (h : ∀ i ∈ block, i.GoesOn) (hr : ∀ i ∈ block, i.register? ≠ some r)
    (pc steps : Nat) (value : Int64) :
    (s.moved pc steps r value).stepAll block =
      (s.stepAll block).moved (pc + block.length) (steps + block.length) r value := by
  induction block generalizing s pc steps with
  | nil => rfl
  | cons i block ih =>
    obtain ⟨hi, h⟩ := List.forall_mem_cons.1 h
    obtain ⟨hri, hr⟩ := List.forall_mem_cons.1 hr
    show ((s.moved pc steps r value).step i).stepAll block = ((s.step i).stepAll block).moved _ _ r value
    rw [step_moved s hi hri, ih _ h hr, List.length_cons, Nat.add_right_comm pc, Nat.add_right_comm steps]
    rfl

private theorem events_moved (s : State) (h : ∀ i ∈ block, i.GoesOn) (hr : ∀ i ∈ block, i.register? ≠ some r)
    (pc steps : Nat) (value : Int64) : (s.moved pc steps r value).events block = s.events block := by
  induction block generalizing s pc steps with
  | nil => rfl
  | cons i block ih =>
    obtain ⟨hi, h⟩ := List.forall_mem_cons.1 h
    obtain ⟨hri, hr⟩ := List.forall_mem_cons.1 hr
    rw [events, events, step_moved s hi hri, ih _ h hr]
    rfl

/-- A block that leaves a register alone moves the counter behind itself and keeps the register. -/
private theorem stepAll_eq_moved (s : State) (h : ∀ i ∈ block, i.GoesOn) (hr : ∀ i ∈ block, i.register? ≠ some r) :
    s.stepAll block = (s.stepAll block).moved (s.pc + block.length) (s.steps + block.length) r (s.registers.get r) := by
  have hmoved := stepAll_moved s h hr s.pc s.steps (s.registers.get r)
  rwa [moved_self] at hmoved

end State

/-- How often a loop goes round whose register holds `n` in front of it. -/
def turnCount (n : Int64) : Nat :=
  max 1 n.toInt.toNat

/-- What the register of such a loop holds behind it. -/
private def valueBehind (n : Int64) : Int64 :=
  if 1 ≤ n.toInt then 0 else saturatingPred n

private theorem toInt_saturatingPred_of_succ {value : Int64} {k : Nat} (h : value.toInt = (k : Int) + 1) :
    (saturatingPred value).toInt = k := by
  rw [toInt_saturatingPred, h]
  omega

namespace Leads

variable {program : Program} {s : State} {r : Register} {front body block back : List Instruction}

/-- A block without a way out is executed from its front to its end. -/
private theorem of_block (h : ∀ i ∈ block, i.GoesOn) (hprogram : program.toList = front ++ block ++ back)
    (hpc : s.pc = front.length) : Leads program block.length s (s.events block) (s.stepAll block) := by
  induction block generalizing front s with
  | nil => exact refl program s
  | cons i block ih =>
    obtain ⟨hi, h⟩ := List.forall_mem_cons.1 h
    have hget : program[s.pc]? = some i := by
      rw [← Array.getElem?_toList, hprogram, hpc]
      simp
    have hhalt : i ≠ .halt := by
      rintro rfl
      exact hi
    have hfirst := of_getElem? hget hhalt
    have hrest := @ih (s.step i) (front ++ [i]) h (by simpa using hprogram)
      (by rw [State.pc_step_of_goesOn s hi, hpc, List.length_append, List.length_singleton])
    have hall := hfirst.trans hrest
    rwa [Nat.add_comm] at hall

/-- A turn executes the body and counts the register down; the counter is back at the front of the body if the register
is still positive. -/
theorem turn (h : ∀ i ∈ body, i.GoesOn) (hr : ∀ i ∈ body, i.register? ≠ some r)
    (hprogram : program.toList = front ++ body ++ .decJnz (some r) (some front.length) :: back)
    (hpc : s.pc = front.length) :
    Leads program (body.length + 1) s (s.events body)
      ((s.stepAll body).moved
        (if 0 < saturatingPred (s.registers.get r) then front.length else front.length + body.length + 1)
        (s.steps + (body.length + 1)) r (saturatingPred (s.registers.get r))) := by
  have hbody := of_block h hprogram hpc
  have hend := State.stepAll_eq_moved s h hr
  have hget : program[(s.stepAll body).pc]? = some (.decJnz (some r) (some front.length)) := by
    rw [hend, ← Array.getElem?_toList, hprogram, hpc]
    simp [State.moved]
  have hcount := of_getElem? hget (by simp)
  have hstep : (s.stepAll body).step (.decJnz (some r) (some front.length)) =
      (s.stepAll body).moved
        (if 0 < saturatingPred (s.registers.get r) then front.length else front.length + body.length + 1)
        (s.steps + (body.length + 1)) r (saturatingPred (s.registers.get r)) := by
    conv_lhs => rw [hend, State.step_moved_decJnz, hpc]
    rfl
  have hnone : ((s.stepAll body).event? (.decJnz (some r) (some front.length))).toList = [] := rfl
  rw [hstep, hnone] at hcount
  have hall := hbody.trans hcount
  rwa [List.append_nil] at hall

/-- As long as the register is positive the loop goes round; the body is executed as many times as the register
says. -/
theorem turns (h : ∀ i ∈ body, i.GoesOn) (hr : ∀ i ∈ body, i.register? ≠ some r)
    (hprogram : program.toList = front ++ body ++ .decJnz (some r) (some front.length) :: back)
    (k : Nat) (hpc : s.pc = front.length) (hvalue : (s.registers.get r).toInt = k + 1) :
    Leads program ((k + 1) * (body.length + 1)) s (s.events (copies (k + 1) body))
      ((s.stepAll (copies (k + 1) body)).moved (front.length + body.length + 1)
        (s.steps + (k + 1) * (body.length + 1)) r 0) := by
  induction k generalizing s with
  | zero =>
    have hzero : saturatingPred (s.registers.get r) = 0 := Int64.toInt_inj.1 (toInt_saturatingPred_of_succ hvalue)
    have hlast := turn h hr hprogram hpc
    rw [hzero, if_neg (by decide)] at hlast
    simpa [copies] using hlast
  | succ k ih =>
    have hpred := toInt_saturatingPred_of_succ hvalue
    have hpositive : 0 < saturatingPred (s.registers.get r) := by
      rw [Int64.lt_iff_toInt_lt, hpred, Int64.toInt_zero]
      omega
    have hfirst := turn h hr hprogram hpc
    rw [if_pos hpositive] at hfirst
    -- after the turn the loop goes on from what the body leaves, but for the counter, the steps and the register
    set next := (s.stepAll body).moved front.length (s.steps + (body.length + 1)) r
      (saturatingPred (s.registers.get r)) with hnext
    have hregister : next.registers.get r = saturatingPred (s.registers.get r) := State.get_moved ..
    have hall := hfirst.trans (ih (s := next) rfl (by rw [hregister, hpred]; exact Int.natCast_succ k))
    have hcount : body.length + 1 + (k + 1) * (body.length + 1) = (k + 1 + 1) * (body.length + 1) := by
      rw [Nat.succ_mul (k + 1), Nat.add_comm]
    have hsteps : next.steps + (k + 1) * (body.length + 1) = s.steps + (k + 1 + 1) * (body.length + 1) := by
      rw [← hcount, ← Nat.add_assoc]
      rfl
    have hgoes : ∀ i ∈ copies (k + 1) body, i.GoesOn := forall_mem_copies h
    have hkeeps : ∀ i ∈ copies (k + 1) body, i.register? ≠ some r := forall_mem_copies hr
    rwa [hcount, hsteps, hnext, State.events_moved _ hgoes hkeeps, State.stepAll_moved _ hgoes hkeeps,
      State.moved_moved, ← State.events_append, ← State.stepAll_append] at hall

/-- Whatever the register holds, the body is executed at least once, since the loop counts behind it. -/
private theorem rounds (h : ∀ i ∈ body, i.GoesOn) (hr : ∀ i ∈ body, i.register? ≠ some r)
    (hprogram : program.toList = front ++ body ++ .decJnz (some r) (some front.length) :: back)
    (hpc : s.pc = front.length) :
    Leads program (turnCount (s.registers.get r) * (body.length + 1)) s
      (s.events (copies (turnCount (s.registers.get r)) body))
      ((s.stepAll (copies (turnCount (s.registers.get r)) body)).moved (front.length + body.length + 1)
        (s.steps + turnCount (s.registers.get r) * (body.length + 1)) r (valueBehind (s.registers.get r))) := by
  by_cases hpositive : 1 ≤ (s.registers.get r).toInt
  · obtain ⟨k, hk⟩ := Int.eq_ofNat_of_zero_le (Int.sub_nonneg_of_le hpositive)
    have hvalue : (s.registers.get r).toInt = k + 1 := by omega
    have hturns : turnCount (s.registers.get r) = k + 1 := by
      rw [turnCount, hvalue]
      omega
    rw [hturns, valueBehind, if_pos hpositive]
    exact turns h hr hprogram k hpc hvalue
  · have hturns : turnCount (s.registers.get r) = 1 := by
      rw [turnCount]
      omega
    have hdown : ¬0 < saturatingPred (s.registers.get r) := by
      rw [Int64.lt_iff_toInt_lt, toInt_saturatingPred, Int64.toInt_zero]
      omega
    have hlast := turn h hr hprogram hpc
    rw [if_neg hdown] at hlast
    rw [hturns, valueBehind, if_neg hpositive]
    simpa [copies] using hlast

end Leads

/-! ### Loops -/

/-- A loop between other instructions: it loads a register, executes its body, counts the register down and goes back
to the body while the register is positive. -/
def countedLoop (front : List Instruction) (r : Register) (n : Int64) (body back : List Instruction) : Program :=
  (front ++ .load (some r) n :: (body ++ .decJnz (some r) (some (front.length + 1)) :: back)).toArray

section

variable {front body back : List Instruction} {r : Register} {s : State}

private theorem leads_load (n : Int64) (hpc : s.pc = front.length) :
    Leads (countedLoop front r n body back) 1 s [] (s.moved (front.length + 1) (s.steps + 1) r n) := by
  have hget : (countedLoop front r n body back)[s.pc]? = some (.load (some r) n) := by
    rw [← Array.getElem?_toList, hpc]
    simp [countedLoop]
  have hload := Leads.of_getElem? hget (by simp)
  have hstep : s.step (.load (some r) n) = s.moved (front.length + 1) (s.steps + 1) r n := by
    rw [← hpc]
    rfl
  rwa [hstep] at hload

/-- The loop executes copies of its body, and counts behind each of them. -/
private theorem leads_countedLoop (h : ∀ i ∈ body, i.GoesOn) (hr : ∀ i ∈ body, i.register? ≠ some r) (n : Int64)
    (hpc : s.pc = front.length) :
    Leads (countedLoop front r n body back) (1 + turnCount n * (body.length + 1)) s
      (s.events (copies (turnCount n) body))
      ((s.stepAll (copies (turnCount n) body)).moved (front.length + body.length + 2)
        (s.steps + (1 + turnCount n * (body.length + 1))) r (valueBehind n)) := by
  set loaded := s.moved (front.length + 1) (s.steps + 1) r n with hloaded
  have hload : Leads (countedLoop front r n body back) 1 s [] loaded := leads_load n hpc
  have hprogram : (countedLoop front r n body back).toList =
      (front ++ [.load (some r) n]) ++ body ++
        .decJnz (some r) (some (front ++ [Instruction.load (some r) n]).length) :: back := by
    simp [countedLoop]
  have hfront : loaded.pc = (front ++ [Instruction.load (some r) n]).length := by simp [hloaded, State.moved]
  have hregister : loaded.registers.get r = n := State.get_moved ..
  have hrounds := Leads.rounds h hr hprogram hfront
  have hgoes : ∀ i ∈ copies (turnCount n) body, i.GoesOn := forall_mem_copies h
  have hkeeps : ∀ i ∈ copies (turnCount n) body, i.register? ≠ some r := forall_mem_copies hr
  have hsteps : loaded.steps + turnCount n * (body.length + 1) =
      s.steps + (1 + turnCount n * (body.length + 1)) := Nat.add_assoc _ _ _
  have hbehind : (front ++ [Instruction.load (some r) n]).length + body.length + 1 =
      front.length + body.length + 2 := by
    rw [List.length_append, List.length_singleton]
    omega
  rw [hregister, hsteps, hbehind, hloaded, State.events_moved _ hgoes hkeeps, State.stepAll_moved _ hgoes hkeeps,
    State.moved_moved] at hrounds
  exact hload.trans hrounds

/-- Copies of a body that are run as a program of their own are executed from the first to the last. -/
theorem leads_copies (h : ∀ i ∈ body, i.GoesOn) (hr : ∀ i ∈ body, i.register? ≠ some r) (count : Nat) (s : State) :
    Leads (copies count body).toArray (copies count body).length { s with pc := 0 } (s.events (copies count body))
      ((s.stepAll (copies count body)).moved (copies count body).length (s.steps + (copies count body).length) r
        (s.registers.get r)) := by
  have hgoes : ∀ i ∈ copies count body, i.GoesOn := forall_mem_copies h
  have hkeeps : ∀ i ∈ copies count body, i.register? ≠ some r := forall_mem_copies hr
  have hstart : ({ s with pc := 0 } : State) = s.moved 0 s.steps r (s.registers.get r) :=
    (State.moved_self { s with pc := 0 } r).symm
  have hprogram : (copies count body).toArray.toList = [] ++ copies count body ++ [] := by simp
  have hrun := Leads.of_block (s := { s with pc := 0 }) hgoes hprogram rfl
  rw [hstart, State.events_moved _ hgoes hkeeps, State.stepAll_moved _ hgoes hkeeps, Nat.zero_add] at hrun
  rwa [hstart]

/-- A loop whose body has no way out and leaves the register alone is its body written out.  With `t` the state that
as many copies of the body lead to as the loop goes round, run as a program of their own from the same state, the loop
leads to the same state behind itself, but for the counter, the number of steps and the register, which is zero if the
loop was to go round at least once and one less than it was otherwise; it schedules the same events, and executes the
`LOAD` and, for each turn, the body and the `DECJNZ`.  A run with a ceiling goes on from there if there is room for
that. -/
theorem countedLoop_eq_unrolled (h : ∀ i ∈ body, i.GoesOn) (hr : ∀ i ∈ body, i.register? ≠ some r) (n : Int64)
    (hpc : s.pc = front.length) :
    ∃ t u : State, ∃ value : Int64, ∃ events : List Event,
      Leads (copies (turnCount n) body).toArray (turnCount n * body.length) { s with pc := 0 } events t ∧
        t.steps = s.steps + turnCount n * body.length ∧
        Leads (countedLoop front r n body back) (1 + turnCount n * (body.length + 1)) s events u ∧
        u.steps = s.steps + (1 + turnCount n * (body.length + 1)) ∧
        u = t.moved (front.length + body.length + 2) u.steps r value ∧
        value.toInt = (if 1 ≤ n.toInt then 0 else max (-2 ^ 63) (n.toInt - 1)) ∧
        ∀ budget schedule,
          runFrom .collect (countedLoop front r n body back) (1 + turnCount n * (body.length + 1) + budget) s schedule =
            runFrom .collect (countedLoop front r n body back) budget u ⟨schedule.events ++ events.toArray⟩ := by
  have hloop : Leads (countedLoop front r n body back) _ s _ _ := leads_countedLoop h hr n hpc
  have hcopies := leads_copies h hr (turnCount n) s
  have hlength : (copies (turnCount n) body).length = turnCount n * body.length := by simp [copies]
  rw [hlength] at hcopies
  refine ⟨_, _, valueBehind n, _, hcopies, rfl, hloop, rfl, ?_, ?_, hloop.runFrom_collect⟩
  · rw [State.moved_moved]
    rfl
  · unfold valueBehind
    split
    · exact Int64.toInt_zero
    · exact toInt_saturatingPred n

/-- A body with a register and jumps of its own, whose labels are not declared. -/
def refrain : List Instruction :=
  [.note ⟨60, 80, 240⟩, .load (Register.ofNat? 2) 7, .decJnz (Register.ofNat? 3) none, .wait Int64.maxValue,
    .jmp none, .track 1]

theorem countedLoop_refrain :
    (∀ i ∈ refrain, i.GoesOn) ∧ (∀ i ∈ refrain, i.register? ≠ some (1 : Register)) ∧
      ∃ u : State, ∃ events : List Event,
        Leads (countedLoop [.halt] 1 3 refrain [.halt]) 22 { pc := 1, clock := 5 } events u ∧
          events.map Event.timestamp = [5, 2 ^ 63 + 4, 2 ^ 64 - 1] ∧ u.pc = 9 ∧ u.clock = 2 ^ 64 - 1 ∧
          u.registers.toList = [0, 0, 7, -3] := by
  have hgoes : ∀ i ∈ refrain, i.GoesOn := by decide
  have hkeeps : ∀ i ∈ refrain, i.register? ≠ some (1 : Register) := by decide
  obtain ⟨t, u, value, events, hcopies, -, hloop, -, hu, hvalue, -⟩ :=
    @countedLoop_eq_unrolled [.halt] refrain [.halt] 1 { pc := 1, clock := 5 } hgoes hkeeps 3 rfl
  obtain rfl : value = 0 := Int64.toInt_inj.1 (hvalue.trans (by decide))
  have hclock : t.clock = 2 ^ 64 - 1 ∧ (t.registers.set (1 : Register) 0).toList = [0, 0, 7, -3] := by
    rw [show t = (Stage.after (copies 3 refrain).toArray 18 ⟨{ clock := 5 }, false⟩).state from
      (congrArg Stage.state hcopies.after_eq).symm]
    decide +kernel
  refine ⟨hgoes, hkeeps, u, events, hloop, ?_, ?_⟩
  · rw [← hcopies.scheduled_eq]
    decide +kernel
  · rw [hu]
    exact ⟨rfl, hclock⟩

end

end Ostinato
