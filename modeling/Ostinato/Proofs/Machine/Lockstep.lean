import Mathlib
import Ostinato.Proofs.Machine.History

/-!
# Runs in lockstep

Some instructions can stand for each other as long as only a part of the state is looked at, by a view.  If the view
shows the counter, and the two instructions change what it shows in the same way, then programs that are made of such
instructions at the same places go the same way (`Lockstep.seen_after`): they execute instructions at the same places in
states that look the same (`Lockstep.rel_history`), and their runs end for the same reason (`Lockstep.alike_run?`).
-/

namespace Ostinato

/-- A view of states that shows the counter, and instructions that stand for each other as far as it shows. -/
structure Lockstep {α : Type} (view : State → α) (rel : Instruction → Instruction → Prop) : Prop where
  pc_eq : ∀ {s t : State}, view s = view t → s.pc = t.pc
  halt_iff : ∀ {i j : Instruction}, rel i j → (i = .halt ↔ j = .halt)
  view_step : ∀ {i j : Instruction} {s t : State}, rel i j → view s = view t → view (s.step i) = view (t.step j)

/-- What a view of states shows of a stage: besides, whether a `HALT` was executed. -/
def Stage.seen {α : Type} (view : State → α) (stage : Stage) : Bool × α :=
  (stage.halted, view stage.state)

namespace Lockstep

variable {α : Type} {view : State → α} {rel : Instruction → Instruction → Prop} {p q : Program} {stage other : Stage}

/-! ### Stages -/

private theorem rel_getElem? {l l' : List Instruction} (h : List.Forall₂ rel l l') (k : Nat) :
    Option.Rel rel l[k]? l'[k]? := by
  induction h generalizing k with
  | nil => exact .none
  | cons h _ ih =>
    cases k with
    | zero => exact .some h
    | succ k => exact ih k

private theorem size_eq (hpq : List.Forall₂ rel p.toList q.toList) : p.size = q.size :=
  hpq.length_eq

/-- Stages that look the same execute instructions that stand for each other. -/
private theorem rel_instruction? (h : Lockstep view rel) (hpq : List.Forall₂ rel p.toList q.toList)
    (hseen : stage.seen view = other.seen view) : Option.Rel rel (stage.instruction? p) (other.instruction? q) := by
  obtain ⟨hhalted, hview⟩ := Prod.mk.inj hseen
  unfold Stage.instruction?
  rw [hhalted, h.pc_eq hview]
  split
  · exact .none
  · rw [← Array.getElem?_toList, ← Array.getElem?_toList]
    exact rel_getElem? hpq _

theorem exit?_eq (h : Lockstep view rel) (hpq : List.Forall₂ rel p.toList q.toList)
    (hseen : stage.seen view = other.seen view) : stage.exit? p = other.exit? q := by
  obtain ⟨hhalted, hview⟩ := Prod.mk.inj hseen
  unfold Stage.exit?
  rw [hhalted, h.pc_eq hview, size_eq hpq]

private theorem seen_next (h : Lockstep view rel) (hpq : List.Forall₂ rel p.toList q.toList)
    (hseen : stage.seen view = other.seen view) : (stage.next p).seen view = (other.next q).seen view := by
  have hview := (Prod.mk.inj hseen).2
  have hinstruction := h.rel_instruction? hpq hseen
  unfold Stage.next
  generalize stage.instruction? p = i, other.instruction? q = j at hinstruction
  cases hinstruction with
  | none => exact hseen
  | some hrel => exact Prod.ext (decide_eq_decide.2 (h.halt_iff hrel)) (h.view_step hrel hview)

/-- Stages that look the same look the same after every number of steps. -/
theorem seen_after (h : Lockstep view rel) (hpq : List.Forall₂ rel p.toList q.toList)
    (hseen : stage.seen view = other.seen view) (k : Nat) :
    (stage.after p k).seen view = (other.after q k).seen view := by
  induction k with
  | zero => exact hseen
  | succ k ih =>
    rw [Stage.after_succ, Stage.after_succ]
    exact h.seen_next hpq ih

/-- From stages that look the same on, instructions that stand for each other are executed in states that look the
same. -/
theorem rel_history (h : Lockstep view rel) (hpq : List.Forall₂ rel p.toList q.toList)
    (hseen : stage.seen view = other.seen view) (k : Nat) :
    List.Forall₂ (fun entry other => view entry.1 = view other.1 ∧ rel entry.2 other.2)
      (stage.history p k) (other.history q k) := by
  induction k with
  | zero => exact .nil
  | succ k ih =>
    have hafter := h.seen_after hpq hseen k
    rw [Stage.history_succ, Stage.history_succ]
    refine List.rel_append ih ?_
    have hinstruction := h.rel_instruction? hpq hafter
    generalize (stage.after p k).instruction? p = i, (other.after q k).instruction? q = j at hinstruction
    cases hinstruction with
    | none => exact .nil
    | some hrel => exact .cons ⟨(Prod.mk.inj hafter).2, hrel⟩ .nil

/-! ### Runs -/

/-- What is read off related values, if there are any, is the same if it is the same for any two related values. -/
theorem map_eq_of_rel {β γ δ : Type} {r : β → γ → Prop} {a : Option β} {b : Option γ} {f : β → δ} {g : γ → δ}
    (h : Option.Rel r a b) (hfg : ∀ x y, r x y → f x = g y) : a.map f = b.map g := by
  cases h with
  | none => rfl
  | some hxy => exact congrArg some (hfg _ _ hxy)

/-- Outcomes that look the same, where backends may have made different things of the same events. -/
structure Alike {σ τ : Type} (view : State → α) (same : σ → τ → Prop) (a : Outcome σ) (b : Outcome τ) : Prop where
  exit_eq : a.exit = b.exit
  view_eq : view a.state = view b.state
  received : same a.received b.received

variable {σ τ : Type} {backend : Backend σ} {backend' : Backend τ} {same : σ → τ → Prop}
  {received : σ} {received' : τ}

/-- Backends that make the same of instructions that stand for each other have received the same in the end. -/
private theorem alike_runWithin (h : Lockstep view rel) (hpq : List.Forall₂ rel p.toList q.toList)
    (hreceive : ∀ i j s t a b, rel i j → view s = view t → same a b →
      same (backend.receive i s a) (backend'.receive j t b))
    (hreceived : same received received') (k : Nat) :
    Alike view same (runWithin backend p k received) (runWithin backend' q k received') := by
  have hafter := h.seen_after hpq (rfl : Stage.seen view {} = _) k
  rw [runWithin_eq, runWithin_eq]
  refine ⟨congrArg (fun exit => exit.getD .instructionLimit) (h.exit?_eq hpq hafter), (Prod.mk.inj hafter).2, ?_⟩
  refine List.rel_foldl (fun a b hsame entry other hentry => ?_) hreceived (h.rel_history hpq rfl k)
  exact hreceive _ _ _ _ _ _ hentry.2 hentry.1 hsame

theorem alike_run? (h : Lockstep view rel) (hpq : List.Forall₂ rel p.toList q.toList)
    (hreceive : ∀ i j s t a b, rel i j → view s = view t → same a b →
      same (backend.receive i s a) (backend'.receive j t b))
    (hreceived : same received received') (ceiling : Option Nat) :
    Option.Rel (Alike view same) (run? backend p ceiling received) (run? backend' q ceiling received') := by
  cases ceiling with
  | some k => exact .some (h.alike_runWithin hpq hreceive hreceived k)
  | none =>
    have hcontrol : controlStates p = controlStates q := congrArg (· * _) (size_eq hpq)
    have halike := h.alike_runWithin hpq hreceive hreceived (controlStates p)
    simp only [run?, ← hcontrol, ← halike.exit_eq]
    split
    · exact .none
    · exact .some halike

end Lockstep

end Ostinato
