import Mathlib
import Ostinato.Source.Listing

/-!
# The parts of a line

A line is the blanks in front of its content, the content, the blanks behind it, a comment and a carriage return
(`exists_parts`), so each of its characters belongs to one of these (`char_cases`).  The content holds no semicolon
and neither starts nor ends with a blank.
-/

namespace Ostinato

open Text

private theorem append_cons_cases {α : Type} {x y front back : List α} {c : α} (h : front ++ c :: back = x ++ y) :
    (∃ right, x = front ++ c :: right) ∨ ∃ left, front = x ++ left ∧ y = left ++ c :: back := by
  rcases List.append_eq_append_iff.1 h with ⟨_ | ⟨d, right⟩, rfl, hright⟩ | ⟨left, rfl, hleft⟩
  · exact .inr ⟨[], by simp, hright.symm⟩
  · obtain ⟨rfl, -⟩ := List.cons.inj hright
    exact .inl ⟨right, rfl⟩
  · exact .inr ⟨left, rfl, hleft⟩

private theorem exists_margin (p : Char → Bool) (text : List Char) :
    ∃ margin, text = trimEnd p text ++ margin ∧ ∀ c ∈ margin, p c = true := by
  refine ⟨(text.reverse.takeWhile p).reverse, ?_, fun c hc => ?_⟩
  · rw [trimEnd, ← List.reverse_append, List.takeWhile_append_dropWhile, List.reverse_reverse]
  · exact List.mem_takeWhile_imp (List.mem_reverse.1 hc)

private theorem exists_ending (line : List Char) :
    ∃ ending, line = withoutReturn line ++ ending ∧ (ending = [] ∨ ending = ['\r']) := by
  rw [withoutReturn]
  split
  · rename_i h
    obtain ⟨front, rfl⟩ := List.getLast?_eq_some_iff.1 h
    exact ⟨['\r'], by rw [List.dropLast_concat], .inr rfl⟩
  · exact ⟨[], (List.append_nil line).symm, .inl rfl⟩

private theorem exists_comment (line : List Char) :
    ∃ comment, withoutReturn line = code line ++ comment ∧ (comment = [] ∨ comment.head? = some ';') := by
  refine ⟨(withoutReturn line).dropWhile (· ≠ ';'), List.takeWhile_append_dropWhile.symm, ?_⟩
  rcases hcomment : (withoutReturn line).dropWhile (· ≠ ';') with _ | ⟨c, comment⟩
  · exact .inl rfl
  · have hc := List.head?_dropWhile_not (· ≠ ';') (withoutReturn line)
    rw [hcomment] at hc
    exact .inr (by simpa using hc)

/-! ### Parts -/

/-- A line is its blanks, its content, further blanks, a comment and a carriage return, as far as they are there. -/
theorem exists_parts (line : List Char) :
    ∃ margin comment ending, line = indent line ++ (content line ++ (margin ++ (comment ++ ending))) ∧
      (∀ c ∈ margin, isBlank c = true) ∧ (comment = [] ∨ comment.head? = some ';') ∧
      (ending = [] ∨ ending = ['\r']) := by
  obtain ⟨ending, hline, hending⟩ := exists_ending line
  obtain ⟨comment, hcode, hcomment⟩ := exists_comment line
  obtain ⟨margin, hcontent, hmargin⟩ := exists_margin isBlank ((code line).dropWhile isBlank)
  have hindent : code line = indent line ++ (content line ++ margin) := by
    rw [content, ← hcontent]
    exact List.takeWhile_append_dropWhile.symm
  refine ⟨margin, comment, ending, ?_, hmargin, hcomment, hending⟩
  calc line = withoutReturn line ++ ending := hline
    _ = indent line ++ (content line ++ margin) ++ comment ++ ending := by rw [hcode, hindent]
    _ = indent line ++ (content line ++ (margin ++ (comment ++ ending))) := by simp only [List.append_assoc]

private theorem mem_code_of_mem_content {line : List Char} {c : Char} (h : c ∈ content line) : c ∈ code line :=
  (List.dropWhile_sublist _).subset (List.mem_reverse.1 ((List.dropWhile_sublist _).subset (List.mem_reverse.1 h)))

theorem semicolon_not_mem_content (line : List Char) : ';' ∉ content line := by
  intro h
  have hcode := List.mem_takeWhile_imp (mem_code_of_mem_content h)
  simp at hcode

theorem isBlank_head_content {line : List Char} {c : Char} (h : (content line).head? = some c) : isBlank c = false := by
  obtain ⟨margin, hcontent, -⟩ := exists_margin isBlank ((code line).dropWhile isBlank)
  have hhead := List.head?_dropWhile_not isBlank (code line)
  rw [hcontent, List.head?_append, show (trimEnd isBlank _).head? = some c from h] at hhead
  simpa using hhead

theorem isBlank_getLast_content {line : List Char} {c : Char} (h : (content line).getLast? = some c) :
    isBlank c = false := by
  have hlast := List.head?_dropWhile_not isBlank ((code line).dropWhile isBlank).reverse
  rw [content, trimEnd, List.getLast?_reverse] at h
  rw [h] at hlast
  simpa using hlast

/-! ### Characters -/

/-- A character of a line is a blank, belongs to the content, is or follows a semicolon, or is the carriage return at
the end. -/
theorem char_cases {line front back : List Char} {c : Char} (h : line = front ++ c :: back) :
    isBlank c = true ∨ (∃ left right, front = indent line ++ left ∧ content line = left ++ c :: right) ∨
      ';' ∈ front ++ [c] ∨ (c = '\r' ∧ back = []) := by
  obtain ⟨margin, comment, ending, hline, hmargin, hcomment, hending⟩ := exists_parts line
  -- the parts are peeled off one by one in front of the character
  rcases append_cons_cases (h.symm.trans hline) with ⟨right, hindent⟩ | ⟨inner, hfront, hinner⟩
  · have hc : c ∈ indent line := by simp [hindent]
    exact .inl (List.mem_takeWhile_imp hc)
  rcases append_cons_cases hinner.symm with ⟨right, hright⟩ | ⟨behind, hbehind, houter⟩
  · exact .inr (.inl ⟨inner, right, hfront, hright⟩)
  rcases append_cons_cases houter.symm with ⟨right, hright⟩ | ⟨inside, hinside, hlast⟩
  · exact .inl (hmargin c (by simp [hright]))
  rcases append_cons_cases hlast.symm with ⟨right, hright⟩ | ⟨left, hleft, hend⟩
  · -- the comment starts with a semicolon, which is this character or stands in front of it
    rw [hright] at hcomment
    rcases inside with _ | ⟨d, inside⟩
    · obtain rfl : c = ';' := by simpa using hcomment
      simp
    · obtain rfl : d = ';' := by simpa using hcomment
      simp [hfront, hbehind, hinside]
  · rw [hend] at hending
    rcases left with _ | ⟨d, left⟩
    · exact .inr (.inr (.inr (by simpa using hending)))
    · simp at hending

end Ostinato
