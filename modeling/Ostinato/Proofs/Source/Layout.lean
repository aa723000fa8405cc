import Ostinato.Proofs.Source.Compiled
import Ostinato.Proofs.Source.Diagnostics

/-!
# Layout

Compiling a text depends on its clauses only: the names of the label lines and the words of the instruction lines, in
order (`program_compile_clauses`, `warnings_compile_clauses`).  Two texts that differ in comments, in empty lines, in
the blanks around the code, in the ends of lines or in the white space between words have the same clauses, so they
have the same program and the same warnings (`compile_eq_of_sameCode`).
-/

namespace Ostinato

open Text

/-! ### Clauses -/

/-- What a line with code says, without its layout. -/
inductive Clause where
  | label (name : List Char)
  | instruction (words : List (List Char))
deriving DecidableEq

/-- The clause of a line with code. -/
def clause : List Char → Clause
  | ':' :: name => .label name
  | text => .instruction (words text)

/-- The clauses of the lines with code among the given ones. -/
def clausesOf (lines : List (List Char)) : List Clause :=
  (lines.filter (· ≠ [])).map clause

section Lines

variable {line name : List Char} {lines : List (List Char)}

private theorem clause_of_head (h : line.head? ≠ some ':') : clause line = .instruction (words line) := by
  unfold clause
  split
  · exact absurd rfl h
  · rfl

private theorem clausesOf_label : clausesOf ((':' :: name) :: lines) = .label name :: clausesOf lines := rfl

private theorem clausesOf_instruction (h : isInstruction line = true) :
    clausesOf (line :: lines) = .instruction (words line) :: clausesOf lines := by
  have hne : line ≠ [] := by
    rintro rfl
    cases h
  have hhead : line.head? ≠ some ':' := by
    intro hcolon
    obtain ⟨name, rfl⟩ := List.head?_eq_some_iff.1 hcolon
    cases h
  rw [clausesOf, List.filter_cons_of_pos (by simpa using hne), List.map_cons, clause_of_head hhead]
  rfl

end Lines

namespace Clause

/-- The number of instructions in front of the last declaration of a name, counted from `index`. -/
def boundIndex? (name : List Char) (index : Nat) : List Clause → Option Nat
  | [] => none
  | .label other :: rest => (boundIndex? name index rest).or (if other = name then some index else none)
  | .instruction _ :: rest => boundIndex? name (index + 1) rest

/-- What the names are bound to. -/
def labels (clauses : List Clause) : Labels :=
  fun name => boundIndex? name.toList 0 clauses

/-- The instructions among the clauses. -/
def program (labels : Labels) : List Clause → List Instruction
  | [] => []
  | .label _ :: rest => program labels rest
  | .instruction words :: rest => (decodeWords labels words).1 :: program labels rest

/-- The warnings about clauses that declarations of the given names stand in front of. -/
def warnings (labels : Labels) (seen : List (List Char)) : List Clause → List Warning
  | [] => []
  | .label name :: rest =>
    (if seen.contains name then [.duplicateLabel (String.ofList name)] else []) ++ warnings labels (name :: seen) rest
  | .instruction words :: rest => (decodeWords labels words).2 ++ warnings labels seen rest

end Clause

/-! ### Compiling clauses -/

private theorem boundIndex?_clausesOf (name : List Char) (index : Nat) (lines : List (List Char)) :
    boundIndex? name index lines = Clause.boundIndex? name index (clausesOf lines) := by
  induction lines generalizing index with
  | nil => rfl
  | cons line lines ih =>
    rcases line_cases line with rfl | ⟨other, rfl⟩ | h
    · rw [boundIndex?, if_neg (List.cons_ne_nil _ _).symm, Option.or_none]
      exact ih index
    · rw [clausesOf_label, boundIndex?, Clause.boundIndex?, ← ih index]
      simp
    · rw [clausesOf_instruction h, boundIndex?, if_pos h, if_neg (ne_label_of_isInstruction h name), Option.or_none]
      exact ih (index + 1)

private theorem program_clausesOf (labels : Labels) (lines : List (List Char)) :
    (lines.filter isInstruction).map (fun line => (decodeWords labels (words line)).1) =
      Clause.program labels (clausesOf lines) := by
  induction lines with
  | nil => rfl
  | cons line lines ih =>
    rcases line_cases line with rfl | ⟨name, rfl⟩ | h
    · exact ih
    · exact ih
    · rw [List.filter_cons_of_pos h, List.map_cons, clausesOf_instruction h, Clause.program, ih]

/-- One pass over the lines warns about the clauses, if it has passed the declarations of the names seen. -/
private theorem warnings_clausesOf (labels : Labels) {seen : List (List Char)} {before : List (List Char)}
    (hseen : ∀ name, name ∈ seen ↔ (':' :: name) ∈ before) (lines : List (List Char)) :
    sweep (warningsOn labels) before lines = Clause.warnings labels seen (clausesOf lines) := by
  induction lines generalizing seen before with
  | nil => rfl
  | cons line lines ih =>
    rw [sweep_cons]
    rcases line_cases line with rfl | ⟨name, rfl⟩ | h
    · exact ih fun other => by simp [hseen]
    · have hnext : ∀ other, other ∈ name :: seen ↔ (':' :: other) ∈ before ++ [':' :: name] := by
        intro other
        simp [hseen, or_comm]
      rw [ih hnext, clausesOf_label, Clause.warnings]
      simp only [warningsOn, List.contains_iff_mem, hseen]
    · have hnext : ∀ other, other ∈ seen ↔ (':' :: other) ∈ before ++ [line] := by
        intro other
        have hne := ne_label_of_isInstruction h other
        simp [hseen, hne.symm]
      rw [ih hnext, warningsOn_of_instruction h, clausesOf_instruction h, Clause.warnings, decode, String.toList_ofList]

section Compile

variable (source : String)

private theorem label?_parse_clauses :
    (Listing.parse source).label? = Clause.labels (clausesOf (contents source)) := by
  funext name
  rw [← String.ofList_toList (s := name), Listing.label?_parse, boundIndex?_clausesOf, Clause.labels,
    String.toList_ofList]

theorem program_compile_clauses :
    (compile source).program =
      (Clause.program (Clause.labels (clausesOf (contents source))) (clausesOf (contents source))).toArray := by
  rw [program_compile, program_clausesOf, label?_parse_clauses]

theorem warnings_compile_clauses :
    (compile source).diagnostics.map (·.warning) =
      Clause.warnings (Clause.labels (clausesOf (contents source))) [] (clausesOf (contents source)) := by
  have hdiagnostics : (compile source).diagnostics =
      sweep (faultsOn (Listing.parse source).label?) [] (linesOf source.toList) := Listing.diagnostics_parse source
  have hwarnings : ∀ before line, (faultsOn (Listing.parse source).label? before line).map (·.warning) =
      warningsOn (Listing.parse source).label? (before.map content) (content line) := by
    intro before line
    rw [faultsOn, List.map_map]
    exact List.map_id _
  rw [hdiagnostics, map_sweep, sweep_congr hwarnings, ← sweep_map]
  rw [← label?_parse_clauses]
  exact warnings_clausesOf _ (by simp) (contents source)

end Compile

/-! ### Texts with the same code -/

/-- The lines of a text without their ends, their comments and the blanks around the code, as far as that leaves
something. -/
def codeLines (source : String) : List (List Char) :=
  (contents source).filter (· ≠ [])

/-- Whether two lines say the same: label lines have to be equal, instruction lines have to have the same words. -/
def SameCode (line other : List Char) : Prop :=
  if line.head? = some ':' ∨ other.head? = some ':' then line = other else words line = words other

instance (line other : List Char) : Decidable (SameCode line other) :=
  inferInstanceAs (Decidable (if line.head? = some ':' ∨ other.head? = some ':' then line = other
    else words line = words other))

private theorem SameCode.clause_eq {line other : List Char} (h : SameCode line other) : clause line = clause other := by
  unfold SameCode at h
  split at h
  · rw [h]
  · rename_i hhead
    rw [not_or] at hhead
    rw [clause_of_head hhead.1, clause_of_head hhead.2, h]

/-- Layout does not matter. -/
theorem compile_eq_of_sameCode {a b : String} (h : List.Forall₂ SameCode (codeLines a) (codeLines b)) :
    (compile a).program = (compile b).program ∧
      (compile a).diagnostics.map (·.warning) = (compile b).diagnostics.map (·.warning) := by
  have hclauses : clausesOf (contents a) = clausesOf (contents b) := by
    have hforall : List.Forall₂ (fun line other => clause line = clause other) (codeLines a) (codeLines b) :=
      h.imp fun _ _ => SameCode.clause_eq
    rwa [← List.forall₂_map_right_iff (f := clause), ← List.forall₂_map_left_iff (f := clause),
      List.forall₂_eq_eq_eq] at hforall
  constructor
  · rw [program_compile_clauses, program_compile_clauses, hclauses]
  · rw [warnings_compile_clauses, warnings_compile_clauses, hclauses]

/-- The same music, once with comments, empty lines, carriage returns and white space of several kinds. -/
theorem compile_eq_otherLayout :
    let a := ":a\nWAIT 1\nNOPE x\n:a\nJMP a\n"
    let b := "; theme\r\n\r\n\t:a ; begin\r\nWAIT\u00a0\t1 \r\n\n  NOPE  x;\n:a\r\nJMP\u3000a"
    List.Forall₂ SameCode (codeLines a) (codeLines b) ∧ (compile a).program = (compile b).program ∧
      (compile a).diagnostics.map (·.warning) = (compile b).diagnostics.map (·.warning) := by
  intro a b
  have hcode : List.Forall₂ SameCode (codeLines a) (codeLines b) := by decide
  exact ⟨hcode, compile_eq_of_sameCode hcode⟩

end Ostinato
