import Mathlib
import Ostinato.Text.Blank

/-!
# Cutting undoes joining

A piece that is closed by a separator is found again by `pieces`, and words that are joined by single spaces by `words`,
as long as the piece does not hold the separator and no word is empty or holds white space.  Pieces that are joined by
separators are all found again (`pieces_intercalate`), and are what the text is joined of (`intercalate_pieces`).
-/

namespace Ostinato.Text

/-! ### Pieces -/

theorem pieces_append {separator : Char} {piece : List Char} (h : separator ∉ piece) (rest : List Char) :
    pieces separator (piece ++ separator :: rest) = piece :: pieces separator rest := by
  induction piece with
  | nil => simp [pieces]
  | cons c piece ih =>
    rw [List.mem_cons, not_or] at h
    rw [List.cons_append, pieces, if_neg (Ne.symm h.1), ih h.2]

theorem pieces_ne_nil (separator : Char) (text : List Char) : pieces separator text ≠ [] := by
  cases text with
  | nil => exact List.cons_ne_nil _ _
  | cons c text =>
    unfold pieces
    split
    · exact List.cons_ne_nil _ _
    · split <;> exact List.cons_ne_nil _ _

/-- A character that does not separate belongs to the first piece. -/
theorem pieces_cons_of_ne {separator c : Char} (h : c ≠ separator) {text piece : List Char} {later : List (List Char)}
    (hpieces : pieces separator text = piece :: later) : pieces separator (c :: text) = (c :: piece) :: later := by
  rw [pieces, if_neg h, hpieces]

theorem not_mem_of_mem_pieces {separator : Char} {text piece : List Char} (h : piece ∈ pieces separator text) :
    separator ∉ piece := by
  induction text generalizing piece with
  | nil =>
    rw [pieces, List.mem_singleton] at h
    rw [h]
    exact List.not_mem_nil
  | cons c text ih =>
    by_cases hc : c = separator
    · rw [pieces, if_pos hc, List.mem_cons] at h
      rcases h with rfl | h
      · exact List.not_mem_nil
      · exact ih h
    · obtain ⟨first, later, hpieces⟩ := List.exists_cons_of_ne_nil (pieces_ne_nil separator text)
      rw [pieces_cons_of_ne hc hpieces, List.mem_cons] at h
      rw [hpieces] at ih
      rcases h with rfl | h
      · exact List.not_mem_cons_of_ne_of_not_mem (Ne.symm hc) (ih (List.mem_cons_self ..))
      · exact ih (List.mem_cons_of_mem _ h)

theorem pieces_of_not_mem {separator : Char} {piece : List Char} (h : separator ∉ piece) :
    pieces separator piece = [piece] := by
  induction piece with
  | nil => rfl
  | cons c piece ih =>
    rw [List.mem_cons, not_or] at h
    exact pieces_cons_of_ne (Ne.symm h.1) (ih h.2)

/-- Pieces that are joined are found again. -/
theorem pieces_intercalate {separator : Char} {ps : List (List Char)} (hne : ps ≠ [])
    (h : ∀ piece ∈ ps, separator ∉ piece) : pieces separator ([separator].intercalate ps) = ps := by
  induction ps with
  | nil => exact absurd rfl hne
  | cons piece ps ih =>
    obtain ⟨hpiece, hps⟩ := List.forall_mem_cons.1 h
    rcases ps with _ | ⟨next, ps⟩
    · rw [List.intercalate_singleton]
      exact pieces_of_not_mem hpiece
    · rw [List.intercalate_cons_cons, List.append_assoc]
      exact (pieces_append hpiece _).trans (congrArg (piece :: ·) (ih (List.cons_ne_nil _ _) hps))

/-- Joining the pieces of a text gives the text. -/
theorem intercalate_pieces (separator : Char) (text : List Char) :
    [separator].intercalate (pieces separator text) = text := by
  induction text with
  | nil => rfl
  | cons c text ih =>
    obtain ⟨first, later, hpieces⟩ := List.exists_cons_of_ne_nil (pieces_ne_nil separator text)
    by_cases hc : c = separator
    · rw [pieces, if_pos hc]
      rw [hpieces] at ih ⊢
      rw [List.intercalate_cons_cons, ih, hc]
      rfl
    · rw [hpieces] at ih
      rw [pieces_cons_of_ne hc hpieces]
      rcases later with _ | ⟨next, later⟩
      · rw [List.intercalate_singleton] at ih ⊢
        rw [ih]
      · rw [List.intercalate_cons_cons] at ih ⊢
        rw [← ih]
        rfl

/-! ### Words -/

/-- A word that can stand in a line: it is not empty, and no character of it separates words or starts a comment. -/
def IsPlain (word : List Char) : Prop :=
  word ≠ [] ∧ ∀ c ∈ word, isWhiteSpace c = false ∧ c ≠ ';'

instance (word : List Char) : Decidable (IsPlain word) :=
  decidable_of_iff (word ≠ [] ∧ word.all (fun c => !isWhiteSpace c && c != ';') = true) (by simp [IsPlain])

theorem IsPlain.cons {c : Char} {word : List Char} (hword : IsPlain word) (hc : isWhiteSpace c = false ∧ c ≠ ';') :
    IsPlain (c :: word) :=
  ⟨List.cons_ne_nil _ _, List.forall_mem_cons.2 ⟨hc, hword.2⟩⟩

theorem IsPlain.isBlank_eq_false {word : List Char} {c : Char} (h : IsPlain word) (hc : c ∈ word) :
    isBlank c = false := by
  have hwhite := (h.2 c hc).1
  cases hblank : isBlank c with
  | false => rfl
  | true =>
    rw [isBlank, Bool.or_eq_true, beq_iff_eq, beq_iff_eq] at hblank
    rcases hblank with rfl | rfl
    · exact absurd hwhite (by decide)
    · exact absurd hwhite (by decide)

private theorem wordsFrom_append {word : List Char} (h : ∀ c ∈ word, isWhiteSpace c = false) (run rest : List Char) :
    wordsFrom run (word ++ rest) = wordsFrom (word.reverse ++ run) rest := by
  induction word generalizing run with
  | nil => rfl
  | cons c word ih =>
    have hc := h c (List.mem_cons_self ..)
    rw [List.cons_append, wordsFrom, hc, if_neg Bool.false_ne_true,
      ih fun other hother => h other (List.mem_cons_of_mem _ hother)]
    simp

private theorem words_append {word : List Char} (h : IsPlain word) (rest : List Char) :
    words (word ++ ' ' :: rest) = word :: words rest := by
  have hspace : isWhiteSpace ' ' = true := by decide
  rw [words, wordsFrom_append (fun c hc => (h.2 c hc).1), List.append_nil, wordsFrom, hspace, if_pos rfl,
    if_neg (by simpa using h.1), List.reverse_reverse]
  rfl

private theorem words_of_isPlain {word : List Char} (h : IsPlain word) : words word = [word] := by
  have hword := wordsFrom_append (fun c hc => (h.2 c hc).1) [] []
  rw [List.append_nil, List.append_nil, wordsFrom, if_neg (by simpa using h.1), List.reverse_reverse] at hword
  exact hword

/-- The words of a line that joins plain words by single spaces are those words. -/
theorem words_intercalate {ws : List (List Char)} (h : ∀ word ∈ ws, IsPlain word) :
    words ([' '].intercalate ws) = ws := by
  induction ws with
  | nil => rfl
  | cons word ws ih =>
    have hword := h word (List.mem_cons_self ..)
    have htail := ih fun other hother => h other (List.mem_cons_of_mem _ hother)
    rcases ws with _ | ⟨next, ws⟩
    · rw [List.intercalate_singleton]
      exact words_of_isPlain hword
    · rw [List.intercalate_cons_cons, List.append_assoc]
      exact (words_append hword _).trans (congrArg (word :: ·) htail)

/-! ### Joined words -/

private theorem mem_intercalate {ws : List (List Char)} {c : Char} (h : c ∈ [' '].intercalate ws) :
    c = ' ' ∨ ∃ word ∈ ws, c ∈ word := by
  induction ws with
  | nil => cases h
  | cons word ws ih =>
    rcases ws with _ | ⟨next, ws⟩
    · rw [List.intercalate_singleton] at h
      exact .inr ⟨word, List.mem_cons_self .., h⟩
    · rw [List.intercalate_cons_cons, List.mem_append, List.mem_append, List.mem_singleton] at h
      rcases h with (h | h) | h
      · exact .inr ⟨word, List.mem_cons_self .., h⟩
      · exact .inl h
      · rcases ih h with hspace | ⟨other, hother, hc⟩
        · exact .inl hspace
        · exact .inr ⟨other, List.mem_cons_of_mem _ hother, hc⟩

theorem not_mem_intercalate {ws : List (List Char)} {c : Char} (h : ∀ word ∈ ws, IsPlain word) (hspace : c ≠ ' ')
    (hc : isWhiteSpace c = true ∨ c = ';') : c ∉ [' '].intercalate ws := by
  intro hmem
  rcases mem_intercalate hmem with rfl | ⟨word, hword, hcword⟩
  · exact hspace rfl
  · obtain ⟨hwhite, hne⟩ := (h word hword).2 c hcword
    rcases hc with hc | rfl
    · rw [hwhite] at hc
      cases hc
    · exact hne rfl

/-- A line of plain words starts and ends inside a word. -/
theorem ends_intercalate {ws : List (List Char)} (hne : ws ≠ []) (h : ∀ word ∈ ws, IsPlain word) :
    (∃ word ∈ ws, ∃ c ∈ word, ([' '].intercalate ws).head? = some c) ∧
      ∃ word ∈ ws, ∃ c ∈ word, ([' '].intercalate ws).getLast? = some c := by
  induction ws with
  | nil => exact absurd rfl hne
  | cons word ws ih =>
    have hword := (h word (List.mem_cons_self ..)).1
    have hhead : word.head? = some (word.head hword) := List.head?_eq_some_head hword
    rcases ws with _ | ⟨next, ws⟩
    · rw [List.intercalate_singleton]
      exact ⟨⟨word, List.mem_cons_self .., _, List.head_mem hword, hhead⟩,
        ⟨word, List.mem_cons_self .., _, List.getLast_mem hword, List.getLast?_eq_some_getLast hword⟩⟩
    · obtain ⟨-, last, hlast, c, hc, hget⟩ :=
        ih (List.cons_ne_nil _ _) fun other hother => h other (List.mem_cons_of_mem _ hother)
      rw [List.intercalate_cons_cons]
      refine ⟨⟨word, List.mem_cons_self .., _, List.head_mem hword, ?_⟩,
        ⟨last, List.mem_cons_of_mem _ hlast, c, hc, ?_⟩⟩
      · rw [List.append_assoc, List.head?_append, hhead]
        rfl
      · rw [List.getLast?_append, hget]
        rfl

end Ostinato.Text
