import Mathlib
import Ostinato.Source.Assembly

/-!
# Labels and the lines that declare them

A listing as a function of what the lines of its text say, without their positions.  The instruction lines are the
lines that say something and declare no label (`Listing.texts_parse`), and the index that a name is bound to is the
number of instruction lines in front of its last declaration (`Listing.label?_parse`, `boundIndex?_of_last`).
-/

namespace Ostinato

open Text

/-! ### Lines -/

/-- What each line of a text says; an empty line or one with a comment only says nothing. -/
def contents (source : String) : List (List Char) :=
  (linesOf source.toList).map content

/-- Whether a line holds an instruction: it says something and declares no label. -/
def isInstruction : List Char → Bool
  | [] => false
  | c :: _ => c != ':'

private theorem isInstruction_cons {c : Char} {cs : List Char} : isInstruction (c :: cs) = (c != ':') := rfl

@[simp] theorem isInstruction_label {name : List Char} : isInstruction (':' :: name) = false := rfl

/-- A line says nothing, declares a label or holds an instruction. -/
theorem line_cases (line : List Char) : line = [] ∨ (∃ name, line = ':' :: name) ∨ isInstruction line = true := by
  rcases line with _ | ⟨c, cs⟩
  · exact .inl rfl
  · by_cases hc : c = ':'
    · exact .inr (.inl ⟨cs, by rw [hc]⟩)
    · exact .inr (.inr (by simpa [isInstruction_cons] using hc))

theorem ne_label_of_isInstruction {line : List Char} (h : isInstruction line = true) (name : List Char) :
    line ≠ ':' :: name := by
  rintro rfl
  cases h

/-- The number of instruction lines in front of the last declaration of a name, counted from `index`. -/
def boundIndex? (name : List Char) (index : Nat) : List (List Char) → Option Nat
  | [] => none
  | line :: lines =>
    (boundIndex? name (if isInstruction line then index + 1 else index) lines).or
      (if line = ':' :: name then some index else none)

section Bindings

variable {name : List Char} {index : Nat}

theorem boundIndex?_append (lines later : List (List Char)) :
    boundIndex? name index (lines ++ later) =
      (boundIndex? name (index + lines.countP isInstruction) later).or (boundIndex? name index lines) := by
  induction lines generalizing index with
  | nil => simp [boundIndex?]
  | cons line lines ih =>
    rw [List.cons_append, boundIndex?, ih, boundIndex?, List.countP_cons, Option.or_assoc]
    congr 2
    split <;> omega

theorem boundIndex?_eq_none_iff {lines : List (List Char)} :
    boundIndex? name index lines = none ↔ (':' :: name) ∉ lines := by
  induction lines generalizing index with
  | nil => simp [boundIndex?]
  | cons line lines ih =>
    rw [boundIndex?, Option.or_eq_none_iff, ih, List.mem_cons, not_or, and_comm]
    by_cases h : line = ':' :: name <;> simp [h, eq_comm]

/-- The last declaration of a name is the one that counts. -/
theorem boundIndex?_of_last {before after : List (List Char)} (h : (':' :: name) ∉ after) :
    boundIndex? name index (before ++ (':' :: name) :: after) = some (index + before.countP isInstruction) := by
  rw [boundIndex?_append, boundIndex?, boundIndex?_eq_none_iff.2 h, if_pos rfl]
  rfl

theorem le_of_boundIndex? {lines : List (List Char)} {target : Nat} (h : boundIndex? name index lines = some target) :
    target ≤ index + lines.countP isInstruction := by
  induction lines generalizing index with
  | nil => cases h
  | cons line lines ih =>
    rw [boundIndex?, Option.or_eq_some_iff] at h
    rw [List.countP_cons]
    rcases h with h | ⟨-, h⟩
    · have hle := ih h
      by_cases hline : isInstruction line = true
      · rw [if_pos hline] at hle ⊢
        omega
      · rw [if_neg hline] at hle ⊢
        omega
    · split at h
      · obtain rfl := Option.some.inj h
        omega
      · cases h

end Bindings

/-! ### Listings -/

namespace Listing

/-- A declaration in front is looked up last. -/
private theorem label?_cons (listing : Listing) (d : Declaration) (name : String) :
    label? { listing with declarations := d :: listing.declarations } name =
      (listing.label? name).or (if d.name = name then some d.target else none) := by
  unfold label? declaration?
  rw [List.reverse_cons, List.find?_append]
  by_cases h : d.name = name <;> cases listing.declarations.reverse.find? (·.name == name) <;> simp [h]

/-! What one line adds to a listing. -/

section Line

variable {index number start : Nat} {line name : List Char} {lines : List (List Char)}

/-- The bytes of a line that are not blank. -/
def lineSpan (start : Nat) (line : List Char) : Span :=
  let first := start + byteCount (indent line)
  ⟨first, first + byteCount (content line)⟩

theorem collect_of_blank (h : content line = []) :
    collect index (statementsFrom number start (line :: lines)) =
      collect index (statementsFrom (number + 1) (start + byteCount line + 1) lines) := by
  rw [statementsFrom, Statement.ofLine?, h]
  rfl

theorem collect_of_label (h : content line = ':' :: name) :
    collect index (statementsFrom number start (line :: lines)) =
      let rest := collect index (statementsFrom (number + 1) (start + byteCount line + 1) lines)
      { rest with
        declarations := ⟨String.ofList name, index, number, lineSpan start line⟩ :: rest.declarations } := by
  rw [statementsFrom, Statement.ofLine?, lineSpan, h]
  rfl

theorem collect_of_instruction (h : isInstruction (content line) = true) :
    collect index (statementsFrom number start (line :: lines)) =
      let rest := collect (index + 1) (statementsFrom (number + 1) (start + byteCount line + 1) lines)
      { rest with
        lines := ⟨String.ofList (content line), number, lineSpan start line⟩ :: rest.lines } := by
  rw [statementsFrom, Statement.ofLine?, lineSpan]
  rcases hline : content line with _ | ⟨c, cs⟩
  · rw [hline] at h
    cases h
  · have hc : c ≠ ':' := by simpa [hline, isInstruction_cons] using h
    simp [collect, Statement.label?, hc]

end Line

private theorem texts_collect (index number start : Nat) (lines : List (List Char)) :
    (collect index (statementsFrom number start lines)).lines.map (·.text) =
      ((lines.map content).filter isInstruction).map String.ofList := by
  induction lines generalizing index number start with
  | nil => rfl
  | cons line lines ih =>
    rw [List.map_cons]
    rcases line_cases (content line) with h | ⟨name, h⟩ | h
    · rw [collect_of_blank h, ih, h]
      rfl
    · rw [collect_of_label h, ih, h]
      rfl
    · rw [collect_of_instruction h, List.map_cons, ih, List.filter_cons_of_pos h, List.map_cons]

private theorem names_collect (index number start : Nat) (lines : List (List Char)) :
    (collect index (statementsFrom number start lines)).declarations.map (·.name) =
      ((lines.map content).filter (·.head? = some ':')).map fun line => String.ofList line.tail := by
  induction lines generalizing index number start with
  | nil => rfl
  | cons line lines ih =>
    rw [List.map_cons]
    rcases line_cases (content line) with h | ⟨name, h⟩ | h
    · rw [collect_of_blank h, ih, h]
      rfl
    · rw [collect_of_label h, List.map_cons, ih, h]
      rfl
    · have hhead : (content line).head? ≠ some ':' := by
        intro e
        obtain ⟨name, hname⟩ := List.head?_eq_some_iff.1 e
        exact ne_label_of_isInstruction h name hname
      rw [collect_of_instruction h, ih, List.filter_cons_of_neg (by simpa using hhead)]

private theorem label?_collect (index number start : Nat) (lines : List (List Char)) (name : List Char) :
    (collect index (statementsFrom number start lines)).label? (String.ofList name) =
      boundIndex? name index (lines.map content) := by
  induction lines generalizing index number start with
  | nil => rfl
  | cons line lines ih =>
    rw [List.map_cons, boundIndex?]
    rcases line_cases (content line) with h | ⟨other, h⟩ | h
    · rw [collect_of_blank h, ih, h]
      simp [isInstruction]
    · rw [collect_of_label h, label?_cons, ih, h]
      simp [String.ofList_inj]
    · rw [collect_of_instruction h, if_pos h, if_neg (ne_label_of_isInstruction h name), Option.or_none]
      exact ih ..

/-- The instruction lines of a listing are those of its text. -/
theorem texts_parse (source : String) :
    (parse source).lines.map (·.text) = ((contents source).filter isInstruction).map String.ofList :=
  texts_collect ..

/-- The declarations of a listing are those of its text. -/
theorem names_parse (source : String) :
    (parse source).declarations.map (·.name) =
      ((contents source).filter (·.head? = some ':')).map fun line => String.ofList line.tail :=
  names_collect ..

/-- A name is bound to the number of instructions in front of its last declaration. -/
theorem label?_parse (source : String) (name : List Char) :
    (parse source).label? (String.ofList name) = boundIndex? name 0 (contents source) :=
  label?_collect ..

end Listing

end Ostinato
