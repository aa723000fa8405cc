import Ostinato.Proofs.Machine.History

/-!
# Timetables

The schedule of a run is determined by the list of the instructions that were executed: each musical one sounds once,
on the track of its opcode, at the sum of the waits in front of it.  The clock adds the waits one by one and stops at
the last tick, which gives the same as stopping the sum at the last tick (`Stage.clock_after`), so the stamps of a
schedule never decrease and playing it in the order of its stamps changes nothing.
-/

namespace Ostinato

/-! ### Waits -/

/-- The last time that the clock can show. -/
def lastTick : Nat := 2 ^ 64 - 1

private theorem lastTick_succ : lastTick + 1 = UInt64.size := rfl

private theorem Ticks.toNat_le_lastTick (ticks : Ticks) : ticks.toNat ≤ lastTick :=
  Nat.le_of_lt_succ ticks.toNat_lt

/-- The ticks that an instruction waits; a negative wait takes none. -/
def Instruction.waits : Instruction → Nat
  | .wait ticks => ticks.toInt.toNat
  | _ => 0

/-- The ticks that instructions wait together. -/
def waited (executed : List Instruction) : Nat :=
  (executed.map Instruction.waits).sum

private theorem Ticks.toNat_saturatingAdd (a b : Ticks) :
    (a.saturatingAdd b).toNat = min lastTick (a.toNat + b.toNat) := by
  have hsize := lastTick_succ
  unfold saturatingAdd
  split
  · rename_i h
    have hadd : (a + b).toNat = a.toNat + b.toNat := by
      rw [UInt64.toNat_add]
      exact Nat.mod_eq_of_lt h
    omega
  · rename_i h
    have hlast : (UInt64.ofNat (UInt64.size - 1)).toNat = UInt64.size - 1 := UInt64.toNat_ofNat_of_lt (by decide)
    omega

private theorem toNat_waitTicks (ticks : Int64) : (waitTicks ticks).toNat = ticks.toInt.toNat := by
  unfold waitTicks
  split
  · rename_i h
    have hneg := Int64.lt_iff_toInt_lt.1 h
    have hzero : (0 : Int64).toInt = 0 := rfl
    have hsize : (0 : UInt64).toNat = 0 := rfl
    omega
  · rename_i h
    rw [Int64.toNat_toInt]
    exact Int64.toNat_toUInt64_of_le (Int64.not_lt.1 h)

private theorem State.clock_step (s : State) (i : Instruction) :
    (s.step i).clock.toNat = min lastTick (s.clock.toNat + i.waits) := by
  have hbound := Ticks.toNat_le_lastTick s.clock
  have hstill : ∀ t : State, t.clock = s.clock → t.clock.toNat = min lastTick (s.clock.toNat + 0) := by
    intro t ht
    rw [ht]
    omega
  cases i with
  | wait ticks =>
    rw [Instruction.waits, ← toNat_waitTicks]
    exact Ticks.toNat_saturatingAdd _ _
  | load register value => cases register <;> exact hstill _ rfl
  | decJnz register target => cases register <;> exact hstill _ rfl
  | jmp target => cases target <;> exact hstill _ rfl
  | _ => exact hstill _ rfl

@[simp] theorem waited_append (executed later : List Instruction) :
    waited (executed ++ later) = waited executed + waited later := by
  simp [waited]

@[simp] theorem waited_singleton (i : Instruction) : waited [i] = i.waits := by
  simp [waited]

/-! ### The clock of a run -/

namespace Stage

variable {program : Program} {stage : Stage} {k : Nat}

/-- The instructions that are executed within `k` steps. -/
def executed (program : Program) (k : Nat) (stage : Stage) : List Instruction :=
  (stage.history program k).map Prod.snd

private theorem executed_succ :
    stage.executed program (k + 1) =
      stage.executed program k ++ ((stage.after program k).instruction? program).toList := by
  rw [executed, history_succ, List.map_append]
  cases (stage.after program k).instruction? program <;> rfl

private theorem length_executed : (stage.executed program k).length = (stage.history program k).length :=
  List.length_map _

/-- Adding the waits one by one up to the last tick gives their sum up to the last tick. -/
theorem clock_after :
    (stage.after program k).state.clock.toNat =
      min lastTick (stage.state.clock.toNat + waited (stage.executed program k)) := by
  induction k with
  | zero =>
    exact (Nat.min_eq_right (Ticks.toNat_le_lastTick stage.state.clock)).symm
  | succ k ih =>
    rw [after_succ, executed_succ]
    cases h : (stage.after program k).instruction? program with
    | none => simpa [next, h] using ih
    | some i =>
      rw [next_of_instruction? h, State.clock_step, ih, Option.toList_some, waited_append, waited_singleton]
      -- once the last tick is reached, more waits keep it
      omega

end Stage

/-! ### Timetables -/

/-- The track and the sound that a musical instruction stands for. -/
def Instruction.part? : Instruction → Option (Track × Sound)
  | .note n => some (.bass, .note n)
  | .chord c => some (.guitar, .chord c)
  | .drum d => some (.drums, .drum d)
  | _ => none

/-- What is heard of executed instructions, and when: every musical one among them, at the sum of the waits that were
executed before it. -/
def timetable (executed : List Instruction) : List (Nat × Track × Sound) :=
  (List.range executed.length).filterMap fun j =>
    (executed[j]?.bind Instruction.part?).map fun part => (min lastTick (waited (executed.take j)), part)

/-- The entry of a timetable that an event stands for. -/
def Event.entry (event : Event) : Nat × Track × Sound :=
  (event.timestamp.toNat, event.track, event.sound)

/-- The event of an instruction that is executed in the given state, if it is a musical one. -/
def State.event? (s : State) (i : Instruction) : Option Event :=
  i.sound?.map fun sound => ⟨s.clock, sound⟩

private theorem timetable_concat (executed : List Instruction) (i : Instruction) :
    timetable (executed ++ [i]) =
      timetable executed ++ (i.part?.map fun part => (min lastTick (waited executed), part)).toList := by
  unfold timetable
  rw [List.length_append, List.length_singleton, List.range_succ, List.filterMap_append]
  congr 1
  · -- the instructions in front see the same instructions in front of them
    apply List.filterMap_congr
    intro j hj
    have hlt := List.mem_range.1 hj
    rw [List.getElem?_append_left hlt, List.take_append_of_le_length (Nat.le_of_lt hlt)]
  · simp only [List.filterMap_cons, List.filterMap_nil, List.getElem?_concat_length, Option.bind_some,
      List.take_left]
    cases i.part? <;> rfl

private theorem map_entry_event? (s : State) (i : Instruction) :
    (s.event? i).map Event.entry = i.part?.map fun part => (s.clock.toNat, part) := by
  cases i <;> rfl

/-- A schedule receives the events of the history in its order. -/
theorem events_replay_collect (entries : List (State × Instruction)) (schedule : Schedule) :
    (Backend.collect.replay entries schedule).events.toList =
      schedule.events.toList ++ entries.filterMap fun entry => entry.1.event? entry.2 := by
  induction entries generalizing schedule with
  | nil => simp [Backend.replay]
  | cons entry entries ih =>
    have hstep : Backend.collect.replay (entry :: entries) schedule =
        Backend.collect.replay entries (Backend.collect.receive entry.2 entry.1 schedule) := rfl
    rw [hstep, ih]
    cases h : entry.2.sound? with
    | none => simp [Backend.receive, State.event?, h]
    | some sound => simp [Backend.receive, Backend.collect, Schedule.push, State.event?, h]

/-- Every event of a run is that of an instruction of the program. -/
theorem exists_sound?_of_mem_events {program : Program} {ceiling : Option Nat} {outcome : Outcome Schedule}
    (h : run? .collect program ceiling {} = some outcome) {event : Event}
    (hevent : event ∈ outcome.received.events.toList) : ∃ i ∈ program, i.sound? = some event.sound := by
  obtain ⟨k, rfl⟩ := exists_eq_runWithin h
  rw [runWithin_eq, events_replay_collect] at hevent
  have hhistory : event ∈ (Stage.history program k {}).filterMap fun entry => entry.1.event? entry.2 := by
    simpa using hevent
  obtain ⟨entry, hentry, he⟩ := List.mem_filterMap.1 hhistory
  obtain ⟨sound, hsound, rfl⟩ := Option.map_eq_some_iff.1 he
  exact ⟨entry.2, Stage.mem_of_mem_history hentry, hsound⟩

/-- What is heard of a run is the timetable of its instructions. -/
private theorem entries_history (program : Program) (k : Nat) :
    ((Stage.history program k {}).filterMap fun entry => entry.1.event? entry.2).map Event.entry =
      timetable (Stage.executed program k {}) := by
  induction k with
  | zero => rfl
  | succ k ih =>
    rw [Stage.history_succ, Stage.executed_succ, List.filterMap_append, List.map_append, ih]
    cases h : (Stage.after program k {}).instruction? program with
    | none => simp
    | some i =>
      have hclock : (Stage.after program k {}).state.clock.toNat =
          min lastTick (waited (Stage.executed program k {})) := by
        rw [Stage.clock_after]
        exact congrArg _ (Nat.zero_add _)
      rw [Option.toList_some, timetable_concat, ← hclock, ← map_entry_event?]
      cases hevent : (Stage.after program k {}).state.event? i <;> simp [hevent]

/-! ### Schedules -/

private theorem waited_take_le (executed : List Instruction) {j k : Nat} (h : j ≤ k) :
    waited (executed.take j) ≤ waited (executed.take k) := by
  obtain ⟨d, rfl⟩ := Nat.exists_eq_add_of_le h
  rw [List.take_add, waited_append]
  exact Nat.le_add_right _ _

private theorem pairwise_timetable (executed : List Instruction) :
    (timetable executed).Pairwise fun a b => a.1 ≤ b.1 := by
  rw [timetable, List.pairwise_filterMap]
  refine List.pairwise_lt_range.imp ?_
  intro j k hjk a ha b hb
  obtain ⟨_, _, rfl⟩ := Option.map_eq_some_iff.1 ha
  obtain ⟨_, _, rfl⟩ := Option.map_eq_some_iff.1 hb
  have hle := waited_take_le executed (Nat.le_of_lt hjk)
  show min lastTick _ ≤ min lastTick _
  omega

/-- A schedule whose stamps never decrease is played as it was scheduled. -/
private theorem Schedule.sorted_of_pairwise {schedule : Schedule}
    (h : schedule.events.toList.Pairwise fun a b => a.timestamp ≤ b.timestamp) :
    schedule.sorted = schedule.events.toList := by
  apply List.mergeSort_of_pairwise
  simpa using h

/-- The schedule of a run that ends, with or without a ceiling, is the timetable of its executed instructions, and
the clock shows the sum of their waits. -/
theorem schedule_eq_timetable {program : Program} {ceiling : Option Nat} {outcome : Outcome Schedule}
    (h : run? .collect program ceiling {} = some outcome) :
    (Stage.executed program outcome.state.steps {}).length = outcome.state.steps ∧
      outcome.received.events.toList.map Event.entry = timetable (Stage.executed program outcome.state.steps {}) ∧
      outcome.state.clock.toNat = min lastTick (waited (Stage.executed program outcome.state.steps {})) ∧
      outcome.received.events.toList.Pairwise (fun a b => a.timestamp ≤ b.timestamp) ∧
      outcome.received.sorted = outcome.received.events.toList := by
  obtain ⟨k, rfl⟩ := exists_eq_runWithin h
  rw [runWithin_eq]
  have hsteps : (Stage.after program k {}).state.steps = (Stage.history program k {}).length := by
    rw [Stage.steps_after]
    exact Nat.zero_add _
  have hexecuted : Stage.executed program (Stage.history program k {}).length {} = Stage.executed program k {} :=
    congrArg (List.map Prod.snd) Stage.after_history_length_history.2
  have hevents : (Backend.collect.replay (Stage.history program k {}) {}).events.toList.map Event.entry =
      timetable (Stage.executed program k {}) := by
    rw [events_replay_collect, ← entries_history]
    rfl
  have hpairwise : (Backend.collect.replay (Stage.history program k {}) {}).events.toList.Pairwise
      fun a b => a.timestamp ≤ b.timestamp := by
    have hentries := pairwise_timetable (Stage.executed program k {})
    rw [← hevents, List.pairwise_map] at hentries
    exact hentries.imp fun hab => UInt64.le_iff_toNat_le.2 hab
  have hclock : (Stage.after program k {}).state.clock.toNat =
      min lastTick (waited (Stage.executed program k {})) := by
    rw [Stage.clock_after]
    exact congrArg _ (Nat.zero_add _)
  rw [hsteps, hexecuted]
  exact ⟨Stage.length_executed, hevents, hclock, hpairwise, Schedule.sorted_of_pairwise hpairwise⟩

/-- Three waits of the greatest length, a negative one, and a track setting that routes nothing. -/
def longWaits : Program :=
  #[.load (some 0) 3, .wait Int64.maxValue, .note ⟨60, 80, 240⟩, .decJnz (some 0) (some 1), .wait (-5), .track 0,
    .drum ⟨.snare, 127, 240⟩, .halt]

theorem schedule_longWaits :
    run? .collect longWaits (some 20) {} = some (runWithin .collect longWaits 20 {}) ∧
      (runWithin .collect longWaits 20 {}).received.events.toList.map Event.entry =
        [(2 ^ 63 - 1, .bass, .note ⟨60, 80, 240⟩), (2 ^ 64 - 2, .bass, .note ⟨60, 80, 240⟩),
          (2 ^ 64 - 1, .bass, .note ⟨60, 80, 240⟩), (2 ^ 64 - 1, .drums, .drum ⟨.snare, 127, 240⟩)] := by
  refine ⟨rfl, ?_⟩
  have h := @schedule_eq_timetable longWaits (some 20) _ rfl
  have hsteps : (runWithin .collect longWaits 20 {}).state.steps = 14 := by decide
  rw [h.2.1, hsteps]
  decide

end Ostinato
