import Ostinato.Proofs.Machine.Lockstep

/-!
# Dry runs

Nothing comes back from a backend, and what a musical instruction plays is not recorded in the state.  So a run takes
the same course whatever becomes of its events, and also if the sounds in the program are exchanged for others: it ends
for the same reason in the same state, and whenever one run hands over an event the other one does, at the same time
and in the same state (`run?_of_keepsTime`).  What a backend is handed is seen by watching it, which does not disturb it
(`map_unwatched_run?`).
-/

namespace Ostinato

/-! ### Watched backends -/

/-- What a backend is handed at once: an event and the state in which it was scheduled. -/
structure Call where
  event : Event
  state : State
deriving DecidableEq

/-- Calls that come at the same time and in the same state, whatever is played. -/
def Call.Simultaneous (a b : Call) : Prop :=
  a.event.timestamp = b.event.timestamp ∧ a.state = b.state

instance (a b : Call) : Decidable (a.Simultaneous b) :=
  inferInstanceAs (Decidable (_ ∧ _))

variable {σ τ : Type} {p q : Program}

/-- A backend beside which its calls are written down in their order. -/
def Backend.watched (backend : Backend σ) : Backend (σ × List Call) :=
  ⟨fun event s received => (backend.schedule event s received.1, received.2 ++ [⟨event, s⟩])⟩

/-- What is left of an outcome without the calls that were written down. -/
def Outcome.unwatched (outcome : Outcome (σ × List Call)) : Outcome σ :=
  ⟨outcome.exit, outcome.state, outcome.received.1⟩

/-- How and where a run ended. -/
def Outcome.ending (outcome : Outcome σ) : Exit × State :=
  (outcome.exit, outcome.state)

/-! ### Exchangeable sounds -/

namespace Instruction

/-- Whether an instruction plays something. -/
def isMusical : Instruction → Bool
  | note _ | chord _ | drum _ => true
  | _ => false

/-- Instructions that are the same or both play something. -/
def KeepsTime (i j : Instruction) : Prop :=
  i = j ∨ i.isMusical = true ∧ j.isMusical = true

private theorem exists_sound?_of_isMusical {i : Instruction} (h : i.isMusical = true) :
    ∃ sound, i.sound? = some sound := by
  cases i with
  | note n => exact ⟨.note n, rfl⟩
  | chord c => exact ⟨.chord c, rfl⟩
  | drum d => exact ⟨.drum d, rfl⟩
  | _ => cases h

end Instruction

/-- A musical instruction has no effect on the state: it is executed, and that is all. -/
private theorem State.step_of_isMusical {i : Instruction} (h : i.isMusical = true) (s : State) :
    s.step i = { s with pc := s.pc + 1, steps := s.steps + 1 } := by
  cases i with
  | note | chord | drum => rfl
  | _ => cases h

/-! ### Runs in step -/

/-- Every instruction can stand for itself, as far as anything shows. -/
private theorem lockstep_refl : Lockstep (fun s : State => s) Eq where
  pc_eq h := congrArg State.pc h
  halt_iff h := by rw [h]
  view_step {i j s t} h hst := by
    have hst : s = t := hst
    rw [h, hst]

/-- Instructions that keep time with each other do the same to the whole state. -/
private theorem lockstep_keepsTime : Lockstep (fun s : State => s) Instruction.KeepsTime where
  pc_eq h := congrArg State.pc h
  halt_iff h := by
    rcases h with rfl | ⟨hi, hj⟩
    · rfl
    · constructor
      · rintro rfl
        cases hi
      · rintro rfl
        cases hj
  view_step {i j s t} h hst := by
    have hst : s = t := hst
    subst hst
    rcases h with rfl | ⟨hi, hj⟩
    · rfl
    · rw [State.step_of_isMusical hi, State.step_of_isMusical hj]

/-- A watched backend is handed what it would be handed alone. -/
private theorem fst_receive_watched (backend : Backend σ) (i : Instruction) (s : State) (received : σ × List Call) :
    (backend.watched.receive i s received).1 = backend.receive i s received.1 := by
  unfold Backend.receive
  cases i.sound? <;> rfl

/-- From the same state, instructions that keep time call two backends at the same time or not at all. -/
private theorem simultaneous_receive_watched {i j : Instruction} (h : i.KeepsTime j) (backend : Backend σ)
    (backend' : Backend τ) (s : State) {a : σ × List Call} {b : τ × List Call}
    (hcalls : List.Forall₂ Call.Simultaneous a.2 b.2) :
    List.Forall₂ Call.Simultaneous (backend.watched.receive i s a).2 (backend'.watched.receive j s b).2 := by
  -- if both are called, each is called with its own sound
  have hcalled : ∀ sound other : Sound,
      List.Forall₂ Call.Simultaneous (a.2 ++ [⟨⟨s.clock, sound⟩, s⟩]) (b.2 ++ [⟨⟨s.clock, other⟩, s⟩]) :=
    fun sound other => List.rel_append hcalls (.cons ⟨rfl, rfl⟩ .nil)
  unfold Backend.receive
  rcases h with rfl | ⟨hi, hj⟩
  · cases i.sound? with
    | none => exact hcalls
    | some sound => exact hcalled sound sound
  · obtain ⟨sound, hsound⟩ := Instruction.exists_sound?_of_isMusical hi
    obtain ⟨other, hother⟩ := Instruction.exists_sound?_of_isMusical hj
    rw [hsound, hother]
    exact hcalled sound other

/-- Watching a backend does not disturb the run. -/
theorem map_unwatched_run? (backend : Backend σ) (program : Program) (ceiling : Option Nat) (received : σ) :
    (run? backend.watched program ceiling (received, [])).map Outcome.unwatched =
      run? backend program ceiling received := by
  have hrel : Option.Rel (Lockstep.Alike (fun s : State => s) fun (a : σ × List Call) (b : σ) => a.1 = b)
      (run? backend.watched program ceiling (received, [])) (run? backend program ceiling received) := by
    refine lockstep_refl.alike_run? (List.forall₂_refl _) ?_ ?_ ceiling
    · rintro i _ s _ a _ rfl rfl rfl
      exact fst_receive_watched backend i s a
    · rfl
  have hsame : (run? backend.watched program ceiling (received, [])).map Outcome.unwatched =
      (run? backend program ceiling received).map id := by
    refine Lockstep.map_eq_of_rel hrel ?_
    intro a b halike
    unfold Outcome.unwatched
    rw [halike.exit_eq, halike.view_eq, halike.received]
    rfl
  rw [hsame, Option.map_id]
  rfl

section

variable (h : List.Forall₂ Instruction.KeepsTime p.toList q.toList) (backend : Backend σ) (backend' : Backend τ)
  (received : σ) (received' : τ) (ceiling : Option Nat)
include h

/-- Programs that keep time with each other are run to the same end, with simultaneous calls on the way. -/
private theorem alike_run?_watched_of_keepsTime :
    Option.Rel (Lockstep.Alike (fun s : State => s) fun (a : σ × List Call) (b : τ × List Call) =>
        List.Forall₂ Call.Simultaneous a.2 b.2)
      (run? backend.watched p ceiling (received, [])) (run? backend'.watched q ceiling (received', [])) := by
  refine lockstep_keepsTime.alike_run? h ?_ .nil ceiling
  rintro i j s _ a b hij rfl hcalls
  exact simultaneous_receive_watched hij backend backend' s hcalls

private theorem map_ending_run?_of_keepsTime :
    (run? backend p ceiling received).map Outcome.ending = (run? backend' q ceiling received').map Outcome.ending := by
  rw [← map_unwatched_run?, ← map_unwatched_run? backend', Option.map_map, Option.map_map]
  refine Lockstep.map_eq_of_rel (alike_run?_watched_of_keepsTime h backend backend' received received' ceiling) ?_
  intro a b halike
  exact Prod.ext halike.exit_eq halike.view_eq

end

/-- Programs that differ in what they play only, run with any two backends and any ceiling, end for the same reason in
the same state or do not end at all, and their backends are called equally often, call by call at the same time and in
the same state.  The calls are seen by watching the backends, which leaves the runs as they are. -/
theorem run?_of_keepsTime {σ τ : Type} {p q : Program} (h : List.Forall₂ Instruction.KeepsTime p.toList q.toList)
    (backend : Backend σ) (backend' : Backend τ) (received : σ) (received' : τ) (ceiling : Option Nat) :
    (run? backend p ceiling received).map Outcome.ending = (run? backend' q ceiling received').map Outcome.ending ∧
      Option.Rel (fun a b => List.Forall₂ Call.Simultaneous a.received.2 b.received.2)
        (run? backend.watched p ceiling (received, [])) (run? backend'.watched q ceiling (received', [])) ∧
      (run? backend.watched p ceiling (received, [])).map Outcome.unwatched = run? backend p ceiling received ∧
      (run? backend'.watched q ceiling (received', [])).map Outcome.unwatched = run? backend' q ceiling received' := by
  have hrel := alike_run?_watched_of_keepsTime h backend backend' received received' ceiling
  refine ⟨map_ending_run?_of_keepsTime h backend backend' received received' ceiling, ?_,
    map_unwatched_run? backend p ceiling received, map_unwatched_run? backend' q ceiling received'⟩
  generalize run? backend.watched p ceiling (received, []) = a,
    run? backend'.watched q ceiling (received', []) = b at hrel
  cases hrel with
  | none => exact .none
  | some halike => exact .some halike.received

/-- A loop that plays a chord and a hit in every round. -/
def rehearsed : Program :=
  #[.load (Register.ofNat? 1) 2, .chord ⟨[60, 64, 67], 90, 240⟩, .wait 7, .drum ⟨.snare, 100, 2⟩,
    .decJnz (Register.ofNat? 1) (some 1), .setTempo 90]

/-- The same loop with other sounds, one of them out of tune. -/
def improvised : Program :=
  #[.load (Register.ofNat? 1) 2, .note ⟨Int64.minValue, 0, -1⟩, .wait 7, .drum ⟨.other 9, 1, 960⟩,
    .decJnz (Register.ofNat? 1) (some 1), .setTempo 90]

theorem run?_of_keepsTime_improvised :
    List.Forall₂ Instruction.KeepsTime rehearsed.toList improvised.toList ∧
      (runWithin Backend.collect.watched rehearsed 20 ({}, [])).received.2.map (fun call => call.event.timestamp) =
        [0, 7, 7, 14] ∧
      (run? .discard rehearsed none ()).map Outcome.ending =
        (run? .collect improvised none {}).map Outcome.ending ∧
      Option.Rel (fun a b => List.Forall₂ Call.Simultaneous a.received.2 b.received.2)
        (run? Backend.discard.watched rehearsed none ((), []))
        (run? Backend.collect.watched improvised none ({}, [])) := by
  have h : List.Forall₂ Instruction.KeepsTime rehearsed.toList improvised.toList :=
    .cons (.inl rfl) (.cons (.inr ⟨rfl, rfl⟩) (.cons (.inl rfl) (.cons (.inr ⟨rfl, rfl⟩) (.cons (.inl rfl)
      (.cons (.inl rfl) .nil)))))
  obtain ⟨hending, hcalls, -, -⟩ := run?_of_keepsTime h .discard .collect () {} none
  exact ⟨h, by decide, hending, hcalls⟩

end Ostinato
