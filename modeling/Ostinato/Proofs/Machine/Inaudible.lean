import Ostinato.Audio.Render
import Ostinato.Proofs.Machine.Lockstep

/-!
# Instructions that are not heard

Settings are recorded and never used, and an instruction without its register or its target does nothing.  Such
instructions can be exchanged for each other: runs differ in the recorded settings only, also in a loop or when they
are cut short, and what is rendered is the same, with any noise (`renderWith_eq_of_soundsLike`).
-/

namespace Ostinato

/-! ### Exchangeable instructions -/

namespace Instruction

/-- Whether an instruction goes on to the next one with no effect on registers, clock and events. -/
def isInaudible : Instruction → Bool
  | setTempo _ | setTimeSignature _ _ | track _ | unknown _ | load none _ | decJnz none _ | jmp none => true
  | _ => false

/-- Instructions that are the same or both not heard. -/
def SoundsLike (i j : Instruction) : Prop :=
  i = j ∨ i.isInaudible = true ∧ j.isInaudible = true

private theorem sound?_of_isInaudible {i : Instruction} (h : i.isInaudible = true) : i.sound? = none := by
  cases i with
  | note | chord | drum => cases h
  | _ => rfl

end Instruction

/-! ### States without settings -/

namespace State

variable {s t : State} {i : Instruction}

/-- A state with its settings erased: what is left is the counter, the registers, the clock and the number of steps. -/
def bare (s : State) : State :=
  { s with tempo := none, timeSignature := none, track := none }

private theorem bare_eq_iff :
    s.bare = t.bare ↔ s.pc = t.pc ∧ s.registers = t.registers ∧ s.clock = t.clock ∧ s.steps = t.steps := by
  simp [bare]

/-- Settings have no effect but on settings. -/
private theorem bare_step (s : State) (i : Instruction) : (s.step i).bare = (s.bare.step i).bare := by
  cases i with
  | load register value => cases register <;> rfl
  | decJnz register target => cases register <;> rfl
  | jmp target => cases target <;> rfl
  | _ => rfl

private theorem bare_step_of_isInaudible (h : i.isInaudible = true) (s : State) :
    (s.step i).bare = { s.bare with pc := s.pc + 1, steps := s.steps + 1 } := by
  cases i with
  | setTempo | setTimeSignature | track | unknown => rfl
  | load register value =>
    cases register with
    | none => rfl
    | some r => cases h
  | decJnz register target =>
    cases register with
    | none => rfl
    | some r => cases h
  | jmp target =>
    cases target with
    | none => rfl
    | some t => cases h
  | note | chord | drum | wait | halt => cases h

end State

/-! ### Runs -/

private theorem lockstep_bare : Lockstep State.bare Instruction.SoundsLike where
  pc_eq h := (State.bare_eq_iff.1 h).1
  halt_iff h := by
    rcases h with rfl | ⟨hi, hj⟩
    · rfl
    · constructor
      · rintro rfl
        cases hi
      · rintro rfl
        cases hj
  view_step {i j s t} h hbare := by
    rcases h with rfl | ⟨hi, hj⟩
    · rw [State.bare_step, hbare, ← State.bare_step]
    · obtain ⟨hpc, -, -, hsteps⟩ := State.bare_eq_iff.1 hbare
      rw [State.bare_step_of_isInaudible hi, State.bare_step_of_isInaudible hj, hbare, hpc, hsteps]

private theorem receive_collect_of_soundsLike {i j : Instruction} {s t : State} (h : i.SoundsLike j)
    (hbare : s.bare = t.bare) (schedule : Schedule) :
    Backend.collect.receive i s schedule = Backend.collect.receive j t schedule := by
  obtain ⟨-, -, hclock, -⟩ := State.bare_eq_iff.1 hbare
  unfold Backend.receive
  rcases h with rfl | ⟨hi, hj⟩
  · rw [hclock]
    rfl
  · rw [Instruction.sound?_of_isInaudible hi, Instruction.sound?_of_isInaudible hj]

/-- An outcome with the settings of its state erased. -/
def Outcome.bare {σ : Type} (outcome : Outcome σ) : Outcome σ :=
  { outcome with state := outcome.state.bare }

section

variable {p q : Program} (h : List.Forall₂ Instruction.SoundsLike p.toList q.toList)
include h

private theorem rel_run?_of_soundsLike (ceiling : Option Nat) :
    Option.Rel (Lockstep.Alike State.bare Eq) (run? .collect p ceiling {}) (run? .collect q ceiling {}) :=
  lockstep_bare.alike_run? h (fun _ _ _ _ _ _ hrel hbare hsame => hsame ▸ receive_collect_of_soundsLike hrel hbare _)
    rfl ceiling

private theorem map_bare_run?_of_soundsLike (ceiling : Option Nat) :
    (run? .collect p ceiling {}).map Outcome.bare = (run? .collect q ceiling {}).map Outcome.bare := by
  refine Lockstep.map_eq_of_rel (rel_run?_of_soundsLike h ceiling) ?_
  intro a b halike
  simp only [Outcome.bare, halike.exit_eq, halike.view_eq, halike.received]

private theorem renderWith_congr_of_soundsLike (noise : Noise) (config : RenderConfig) :
    renderWith noise p config = renderWith noise q config := by
  have hrel := rel_run?_of_soundsLike h config.maxInstructions
  unfold renderWith
  generalize run? .collect p config.maxInstructions {} = a, run? .collect q config.maxInstructions {} = b at hrel
  cases hrel with
  | none => rfl
  | some halike => simp only [halike.exit_eq, halike.received]

end

/-- Exchanging instructions that are not heard for each other changes no run but for its settings, and no render,
whatever the noise; so none with the noise of a seed. -/
theorem renderWith_eq_of_soundsLike {p q : Program} (h : List.Forall₂ Instruction.SoundsLike p.toList q.toList) :
    (∀ ceiling, (run? .collect p ceiling {}).map Outcome.bare = (run? .collect q ceiling {}).map Outcome.bare) ∧
      (∀ noise config, renderWith noise p config = renderWith noise q config) ∧
      ∀ config, render p config = render q config :=
  ⟨map_bare_run?_of_soundsLike h, renderWith_congr_of_soundsLike h, fun _ => renderWith_congr_of_soundsLike h _ _⟩

/-- Two hits in a loop that sets a tempo. -/
def decorated : Program :=
  #[.load (Register.ofNat? 0) 2, .setTempo 90, .drum ⟨.snare, 100, 2⟩, .wait 5,
    .decJnz (Register.ofNat? 0) (some 1), .jmp none]

/-- The same hits with other instructions that are not heard. -/
def redecorated : Program :=
  #[.load (Register.ofNat? 0) 2, .unknown "REST", .drum ⟨.snare, 100, 2⟩, .wait 5,
    .decJnz (Register.ofNat? 0) (some 1), .track 3]

theorem renderWith_eq_of_soundsLike_decorated :
    List.Forall₂ Instruction.SoundsLike decorated.toList redecorated.toList ∧
      (runWithin .collect decorated 7 {}).state ≠ (runWithin .collect redecorated 7 {}).state ∧
      (runWithin .collect decorated 7 {}).received.events.toList =
        [⟨0, .drum ⟨.snare, 100, 2⟩⟩, ⟨5, .drum ⟨.snare, 100, 2⟩⟩] ∧
      (run? .collect decorated (some 7) {}).map Outcome.bare =
        (run? .collect redecorated (some 7) {}).map Outcome.bare ∧
      ∀ noise config, renderWith noise decorated config = renderWith noise redecorated config := by
  have h : List.Forall₂ Instruction.SoundsLike decorated.toList redecorated.toList :=
    .cons (.inl rfl) (.cons (.inr ⟨rfl, rfl⟩) (.cons (.inl rfl) (.cons (.inl rfl) (.cons (.inl rfl)
      (.cons (.inr ⟨rfl, rfl⟩) .nil)))))
  obtain ⟨hruns, hrenders, -⟩ := renderWith_eq_of_soundsLike h
  exact ⟨h, by decide, by decide, hruns (some 7), hrenders⟩

end Ostinato
