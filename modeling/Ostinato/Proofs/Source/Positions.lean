import Ostinato.Proofs.Source.Content
import Ostinato.Proofs.Source.Labels
import Ostinato.Proofs.Text.Bytes
import Ostinato.Proofs.Text.Lines

/-!
# Listings as one pass over the lines

What a listing says about a line depends on that line and the ones in front of it: its number is their number, its
span starts behind their bytes, and a label is bound to the number of instructions among them.  `sweep` collects what
is said about each line in this way, and both parts of a listing are sweeps over its text (`Listing.lines_parse`,
`Listing.declarations_parse`).
-/

namespace Ostinato

open Text

/-! ### Sweeps -/

section Sweep

variable {α β : Type} {f g : List (List Char) → List Char → List α} {before lines : List (List Char)}

/-- Collects what `f` says about each line, where `f` is told the lines in front of it. -/
def sweep (f : List (List Char) → List Char → List α) (before : List (List Char)) : List (List Char) → List α
  | [] => []
  | line :: after => f before line ++ sweep f (before ++ [line]) after

private theorem sweep_nil (f : List (List Char) → List Char → List α) (before : List (List Char)) :
    sweep f before [] = [] :=
  rfl

theorem sweep_cons (f : List (List Char) → List Char → List α) (before : List (List Char)) (line : List Char)
    (after : List (List Char)) : sweep f before (line :: after) = f before line ++ sweep f (before ++ [line]) after :=
  rfl

theorem sweep_append (before lines later : List (List Char)) :
    sweep f before (lines ++ later) = sweep f before lines ++ sweep f (before ++ lines) later := by
  induction lines generalizing before with
  | nil => simp [sweep_nil]
  | cons line lines ih => simp [sweep_cons, ih]

theorem mem_sweep_iff {a : α} :
    a ∈ sweep f before lines ↔ ∃ front line back, lines = front ++ line :: back ∧ a ∈ f (before ++ front) line := by
  induction lines generalizing before with
  | nil => simp [sweep_nil]
  | cons line lines ih =>
    rw [sweep_cons, List.mem_append, ih]
    constructor
    · rintro (ha | ⟨front, other, back, rfl, ha⟩)
      · exact ⟨[], line, lines, rfl, by rwa [List.append_nil]⟩
      · exact ⟨line :: front, other, back, rfl, by rwa [List.append_assoc] at ha⟩
    · rintro ⟨front, other, back, hlines, ha⟩
      rcases front with _ | ⟨first, front⟩
      · obtain ⟨rfl, rfl⟩ := List.cons.inj hlines
        rw [List.append_nil] at ha
        exact .inl ha
      · obtain ⟨rfl, rfl⟩ := List.cons.inj hlines
        exact .inr ⟨front, other, back, rfl, by rwa [List.append_assoc]⟩

theorem sweep_congr (h : ∀ before line, f before line = g before line) :
    sweep f before lines = sweep g before lines := by
  have hfg : f = g := funext fun before => funext fun line => h before line
  rw [hfg]

theorem map_sweep (φ : α → β) :
    (sweep f before lines).map φ = sweep (fun before line => (f before line).map φ) before lines := by
  induction lines generalizing before with
  | nil => rfl
  | cons line lines ih => rw [sweep_cons, List.map_append, ih, sweep_cons]

theorem sublist_sweep (h : ∀ before line, (f before line).Sublist (g before line)) :
    (sweep f before lines).Sublist (sweep g before lines) := by
  induction lines generalizing before with
  | nil => exact .slnil
  | cons line lines ih => exact (h before line).append ih

/-- Two sweeps find together what one sweep finds that looks for both. -/
theorem perm_sweep (f g : List (List Char) → List Char → List α) (before lines : List (List Char)) :
    (sweep f before lines ++ sweep g before lines).Perm
      (sweep (fun before line => f before line ++ g before line) before lines) := by
  induction lines generalizing before with
  | nil => exact .nil
  | cons line lines ih =>
    rw [sweep_cons, sweep_cons, sweep_cons, List.append_assoc, List.append_assoc]
    refine .append_left (f before line) ?_
    rw [← List.append_assoc]
    refine (List.perm_append_comm.append_right _).trans ?_
    rw [List.append_assoc]
    exact .append_left (g before line) (ih (before ++ [line]))

/-- What is said about the lines behind further ones. -/
theorem sweep_append_left (earlier before lines : List (List Char)) :
    sweep f (earlier ++ before) lines = sweep (fun before line => f (earlier ++ before) line) before lines := by
  induction lines generalizing before with
  | nil => rfl
  | cons line lines ih => rw [sweep_cons, sweep_cons, List.append_assoc, ih]

/-- What is said about lines that are changed one by one. -/
theorem sweep_map (φ : List Char → List Char) :
    sweep f (before.map φ) (lines.map φ) = sweep (fun before line => f (before.map φ) (φ line)) before lines := by
  induction lines generalizing before with
  | nil => rfl
  | cons line lines ih =>
    have htail := @ih (before ++ [line])
    rw [List.map_append] at htail
    rw [List.map_cons, sweep_cons, sweep_cons]
    exact congrArg _ htail

/-- What is related within each line and from each line to the later ones is related throughout. -/
theorem pairwise_sweep {r : α → α → Prop} (hline : ∀ before line, (f before line).Pairwise r)
    (hlater : ∀ before line between other, ∀ a ∈ f before line, ∀ b ∈ f (before ++ line :: between) other, r a b) :
    (sweep f before lines).Pairwise r := by
  induction lines generalizing before with
  | nil => exact .nil
  | cons line lines ih =>
    rw [sweep_cons, List.pairwise_append]
    refine ⟨hline before line, ih, fun a ha b hb => ?_⟩
    obtain ⟨between, other, back, -, hb⟩ := mem_sweep_iff.1 hb
    rw [List.append_assoc] at hb
    exact hlater before line between other a ha b hb

end Sweep

/-! ### Lines and what is in front of them -/

section Positions

variable {before between : List (List Char)} {line other name : List Char}

/-- The byte at which the line behind the given ones starts. -/
def startBehind (before : List (List Char)) : Nat :=
  byteCount (unlines before)

private theorem startBehind_append_cons (before : List (List Char)) (line : List Char) (between : List (List Char)) :
    startBehind (before ++ line :: between) = startBehind before + byteCount line + 1 + startBehind between := by
  have hlineFeed : Char.utf8Size '\n' = 1 := by decide
  rw [startBehind, unlines_append, unlines_cons, byteCount_append, byteCount_append, byteCount, hlineFeed]
  simp only [startBehind]
  omega

private theorem startBehind_concat (before : List (List Char)) (line : List Char) :
    startBehind (before ++ [line]) = startBehind before + byteCount line + 1 :=
  startBehind_append_cons before line []

theorem startBehind_le_append (before between : List (List Char)) :
    startBehind before ≤ startBehind (before ++ between) := by
  rw [startBehind, startBehind, unlines_append, byteCount_append]
  exact Nat.le_add_right _ _

theorem startBehind_le_start (before : List (List Char)) (line : List Char) :
    startBehind before ≤ (Listing.lineSpan (startBehind before) line).start :=
  Nat.le_add_right _ _

theorem start_le_stop_lineSpan (start : Nat) (line : List Char) :
    (Listing.lineSpan start line).start ≤ (Listing.lineSpan start line).stop :=
  Nat.le_add_right _ _

/-- The span of a line ends before the next line starts. -/
theorem stop_lineSpan_lt (before : List (List Char)) (line : List Char) (between : List (List Char)) :
    (Listing.lineSpan (startBehind before) line).stop < startBehind (before ++ line :: between) := by
  obtain ⟨margin, comment, ending, hline, -⟩ := exists_parts line
  have hsize := congrArg byteCount hline
  rw [byteCount_append, byteCount_append] at hsize
  rw [startBehind_append_cons]
  show startBehind before + byteCount (indent line) + byteCount (content line) < _
  omega

/-- The instruction on a line, if it holds one. -/
def instructionsOn (before : List (List Char)) (line : List Char) : List Line :=
  if isInstruction (content line) then
    [⟨String.ofList (content line), before.length + 1, Listing.lineSpan (startBehind before) line⟩]
  else []

/-- The label declaration on a line, if it holds one. -/
def declarationsOn (before : List (List Char)) (line : List Char) : List Declaration :=
  match content line with
  | ':' :: name =>
    [⟨String.ofList name, (before.map content).countP isInstruction, before.length + 1,
      Listing.lineSpan (startBehind before) line⟩]
  | _ => []

theorem instructionsOn_of_blank (h : content line = []) : instructionsOn before line = [] := by
  rw [instructionsOn, h]
  rfl

theorem instructionsOn_of_label (h : content line = ':' :: name) : instructionsOn before line = [] := by
  rw [instructionsOn, h]
  rfl

theorem instructionsOn_of_instruction (h : isInstruction (content line) = true) :
    instructionsOn before line =
      [⟨String.ofList (content line), before.length + 1, Listing.lineSpan (startBehind before) line⟩] :=
  if_pos h

theorem declarationsOn_of_blank (h : content line = []) : declarationsOn before line = [] := by
  rw [declarationsOn, h]

theorem declarationsOn_of_label (h : content line = ':' :: name) :
    declarationsOn before line =
      [⟨String.ofList name, (before.map content).countP isInstruction, before.length + 1,
        Listing.lineSpan (startBehind before) line⟩] := by
  rw [declarationsOn, h]
  rfl

theorem declarationsOn_of_instruction (h : isInstruction (content line) = true) : declarationsOn before line = [] := by
  rw [declarationsOn]
  split
  · rename_i name hname
    exact absurd hname (ne_label_of_isInstruction h name)
  · rfl

end Positions

namespace Listing

private theorem collect_eq_sweep (before lines : List (List Char)) :
    collect ((before.map content).countP isInstruction)
        (statementsFrom (before.length + 1) (startBehind before) lines) =
      ⟨sweep instructionsOn before lines, sweep declarationsOn before lines⟩ := by
  induction lines generalizing before with
  | nil => rfl
  | cons line lines ih =>
    have htail := ih (before ++ [line])
    rw [List.length_append, List.length_singleton, startBehind_concat, List.map_append, List.countP_append,
      List.map_singleton, List.countP_singleton] at htail
    rw [sweep_cons, sweep_cons]
    rcases line_cases (content line) with h | ⟨name, h⟩ | h
    · rw [collect_of_blank h, instructionsOn_of_blank h, declarationsOn_of_blank h]
      rw [h] at htail
      exact htail
    · rw [h, isInstruction_label, if_neg Bool.false_ne_true, Nat.add_zero] at htail
      rw [collect_of_label h, htail, instructionsOn_of_label h, declarationsOn_of_label h]
      rfl
    · rw [if_pos h] at htail
      rw [collect_of_instruction h, htail, instructionsOn_of_instruction h, declarationsOn_of_instruction h]
      rfl

/-! A listing holds what one pass over the lines of its text finds on each of them. -/

theorem lines_parse (source : String) : (parse source).lines = sweep instructionsOn [] (linesOf source.toList) :=
  congrArg Listing.lines (collect_eq_sweep [] (linesOf source.toList))

theorem declarations_parse (source : String) :
    (parse source).declarations = sweep declarationsOn [] (linesOf source.toList) :=
  congrArg Listing.declarations (collect_eq_sweep [] (linesOf source.toList))

end Listing

end Ostinato
