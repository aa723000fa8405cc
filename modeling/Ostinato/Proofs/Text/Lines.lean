import Ostinato.Proofs.Text.Cutting

/-!
# Texts as lines

Every text is some closed lines and a last one that is not closed (`exists_unlines`), and cutting finds these lines
again (`linesOf_unlines_append`).  So the lines in front of a line are what stands in front of it in the text
(`eq_unlines_append`), and a character that is no line feed stands in one of the lines (`exists_line_of_eq_append`).
-/

namespace Ostinato.Text

/-- Lines that are each closed by a line feed. -/
def unlines (lines : List (List Char)) : List Char :=
  lines.flatMap (· ++ ['\n'])

@[simp] theorem unlines_nil : unlines [] = [] := rfl

@[simp] theorem unlines_cons (line : List Char) (lines : List (List Char)) :
    unlines (line :: lines) = line ++ '\n' :: unlines lines := by
  simp [unlines]

@[simp] theorem unlines_append (lines later : List (List Char)) :
    unlines (lines ++ later) = unlines lines ++ unlines later :=
  List.flatMap_append

theorem linesOf_unlines_append {lines : List (List Char)} (h : ∀ line ∈ lines, '\n' ∉ line) (rest : List Char) :
    linesOf (unlines lines ++ rest) = lines ++ linesOf rest := by
  induction lines with
  | nil => rfl
  | cons line lines ih =>
    obtain ⟨hline, hlines⟩ := List.forall_mem_cons.1 h
    rw [unlines_cons, List.append_assoc, List.cons_append, linesOf, pieces_append hline]
    exact congrArg (line :: ·) (ih hlines)

/-- Closed lines are cut into themselves and an empty last one. -/
theorem linesOf_unlines {lines : List (List Char)} (h : ∀ line ∈ lines, '\n' ∉ line) :
    linesOf (unlines lines) = lines ++ [[]] := by
  rw [← List.append_nil (unlines lines), linesOf_unlines_append h]
  rfl

private theorem linesOf_of_not_mem {line : List Char} (h : '\n' ∉ line) : linesOf line = [line] :=
  pieces_of_not_mem h

theorem exists_unlines (text : List Char) :
    ∃ lines last, (∀ line ∈ lines, '\n' ∉ line) ∧ '\n' ∉ last ∧ text = unlines lines ++ last := by
  induction text with
  | nil => exact ⟨[], [], List.forall_mem_nil _, List.not_mem_nil, rfl⟩
  | cons c text ih =>
    obtain ⟨lines, last, hlines, hlast, rfl⟩ := ih
    by_cases hc : c = '\n'
    · subst hc
      exact ⟨[] :: lines, last, List.forall_mem_cons.2 ⟨List.not_mem_nil, hlines⟩, hlast, rfl⟩
    · -- the character belongs to the first line, which is the last one if no line is closed
      rcases lines with _ | ⟨line, lines⟩
      · exact ⟨[], c :: last, hlines, List.not_mem_cons_of_ne_of_not_mem (Ne.symm hc) hlast, rfl⟩
      · obtain ⟨hline, hlines⟩ := List.forall_mem_cons.1 hlines
        exact ⟨(c :: line) :: lines, last,
          List.forall_mem_cons.2 ⟨List.not_mem_cons_of_ne_of_not_mem (Ne.symm hc) hline, hlines⟩, hlast, by simp⟩

private theorem linesOf_eq {lines : List (List Char)} {last : List Char} (hlines : ∀ line ∈ lines, '\n' ∉ line)
    (hlast : '\n' ∉ last) : linesOf (unlines lines ++ last) = lines ++ [last] := by
  rw [linesOf_unlines_append hlines, linesOf_of_not_mem hlast]

theorem not_mem_of_mem_linesOf {text line : List Char} (h : line ∈ linesOf text) : '\n' ∉ line :=
  not_mem_of_mem_pieces h

theorem count_unlines {lines : List (List Char)} (h : ∀ line ∈ lines, '\n' ∉ line) :
    (unlines lines).count '\n' = lines.length := by
  induction lines with
  | nil => rfl
  | cons line lines ih =>
    obtain ⟨hline, hlines⟩ := List.forall_mem_cons.1 h
    rw [unlines_cons, List.count_append, List.count_cons_self, ih hlines, List.count_eq_zero_of_not_mem hline,
      List.length_cons, Nat.zero_add]

/-- What stands in front of a line, and what stands behind it: nothing if it is the last one, else a line feed. -/
theorem eq_unlines_append {text line : List Char} {before after : List (List Char)}
    (h : linesOf text = before ++ line :: after) :
    ∃ rest, text = unlines before ++ (line ++ rest) ∧ (rest = [] ∨ rest.head? = some '\n') := by
  obtain ⟨lines, last, hlines, hlast, rfl⟩ := exists_unlines text
  rw [linesOf_eq hlines hlast] at h
  rcases List.eq_nil_or_concat after with rfl | ⟨between, final, rfl⟩
  · obtain ⟨rfl, hline⟩ := List.append_inj' h rfl
    obtain rfl := List.singleton_inj.1 hline
    exact ⟨[], by rw [List.append_nil], .inl rfl⟩
  · rw [List.concat_eq_append, ← List.cons_append, ← List.append_assoc] at h
    obtain ⟨rfl, -⟩ := List.append_inj' h rfl
    exact ⟨'\n' :: (unlines between ++ last), by simp, .inr rfl⟩

/-- A character that is no line feed stands in one of the lines. -/
theorem exists_line_of_eq_append {text before after : List Char} {c : Char} (h : text = before ++ c :: after)
    (hc : c ≠ '\n') :
    ∃ lines front back later, linesOf text = lines ++ (front ++ c :: back) :: later ∧
      before = unlines lines ++ front := by
  subst h
  obtain ⟨lines, front, hlines, hfront, rfl⟩ := exists_unlines before
  obtain ⟨closed, last, hclosed, hlast, rfl⟩ := exists_unlines after
  rw [List.append_assoc, linesOf_unlines_append hlines]
  rcases closed with _ | ⟨back, closed⟩
  · have hline : '\n' ∉ front ++ c :: last := by simp [hfront, hlast, Ne.symm hc]
    refine ⟨lines, front, last, [], ?_, rfl⟩
    rw [unlines_nil, List.nil_append, linesOf_of_not_mem hline]
  · obtain ⟨hback, hclosed⟩ := List.forall_mem_cons.1 hclosed
    have hline : '\n' ∉ front ++ c :: back := by simp [hfront, hback, Ne.symm hc]
    refine ⟨lines, front, back, closed ++ [last], ?_, rfl⟩
    have hlines : ∀ line ∈ (front ++ c :: back) :: closed, '\n' ∉ line := List.forall_mem_cons.2 ⟨hline, hclosed⟩
    have htext : front ++ c :: (unlines (back :: closed) ++ last) =
        unlines ((front ++ c :: back) :: closed) ++ last := by
      simp
    rw [htext, linesOf_eq hlines hlast, List.cons_append]

end Ostinato.Text
