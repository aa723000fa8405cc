import Ostinato.Proofs.Source.Positions

/-!
# Texts one after the other

The listing of two texts one after the other, of which the first one ends in a line feed, holds the entries of the
first text and then those of the second one, moved behind the first (`parse_append`).
-/

namespace Ostinato

open Text

/-! ### Moved entries -/

/-- A span that starts `size` bytes later. -/
def Span.moved (size : Nat) (span : Span) : Span :=
  ⟨span.start + size, span.stop + size⟩

/-- An instruction behind further lines. -/
def Line.moved (lineCount size : Nat) (line : Line) : Line :=
  { line with number := line.number + lineCount, span := line.span.moved size }

/-- A declaration behind further lines, which hold instructions. -/
def Declaration.moved (instructionCount lineCount size : Nat) (d : Declaration) : Declaration :=
  { d with target := d.target + instructionCount, number := d.number + lineCount, span := d.span.moved size }

section Moved

variable {earlier before : List (List Char)} {line : List Char}

private theorem startBehind_append (earlier before : List (List Char)) :
    startBehind (earlier ++ before) = startBehind before + startBehind earlier := by
  rw [startBehind, unlines_append, byteCount_append, Nat.add_comm]
  rfl

private theorem lineSpan_append (earlier before : List (List Char)) (line : List Char) :
    Listing.lineSpan (startBehind (earlier ++ before)) line =
      (Listing.lineSpan (startBehind before) line).moved (startBehind earlier) := by
  simp only [Listing.lineSpan, Span.moved, startBehind_append, Span.mk.injEq]
  omega

private theorem instructionsOn_append (earlier before : List (List Char)) (line : List Char) :
    instructionsOn (earlier ++ before) line =
      (instructionsOn before line).map (·.moved earlier.length (startBehind earlier)) := by
  rw [instructionsOn, instructionsOn]
  split
  · rw [lineSpan_append, List.length_append, Nat.add_comm earlier.length, Nat.add_right_comm]
    rfl
  · rfl

private theorem declarationsOn_append (earlier before : List (List Char)) (line : List Char) :
    declarationsOn (earlier ++ before) line =
      (declarationsOn before line).map
        (·.moved ((earlier.map content).countP isInstruction) earlier.length (startBehind earlier)) := by
  rcases line_cases (content line) with h | ⟨name, h⟩ | h
  · rw [declarationsOn_of_blank h, declarationsOn_of_blank h]
    rfl
  · rw [declarationsOn_of_label h, declarationsOn_of_label h, lineSpan_append, List.length_append,
      Nat.add_comm earlier.length, Nat.add_right_comm, List.map_append, List.countP_append,
      Nat.add_comm (List.countP ..)]
    rfl
  · rw [declarationsOn_of_instruction h, declarationsOn_of_instruction h]
    rfl

/-- If lines in front only change what is said about a line by `φ`, they do so for all lines. -/
private theorem sweep_eq_map {α : Type} {f : List (List Char) → List Char → List α} {φ : α → α}
    (h : ∀ before line, f (earlier ++ before) line = (f before line).map φ) (lines : List (List Char)) :
    sweep f earlier lines = (sweep f [] lines).map φ := by
  calc sweep f earlier lines = sweep f (earlier ++ []) lines := by rw [List.append_nil]
    _ = sweep (fun before line => f (earlier ++ before) line) [] lines := sweep_append_left ..
    _ = sweep (fun before line => (f before line).map φ) [] lines := sweep_congr h
    _ = (sweep f [] lines).map φ := (map_sweep φ).symm

end Moved

/-! ### Labels -/

namespace Listing

variable {listing first second : Listing} {name : String}

private theorem label?_eq_none_iff : listing.label? name = none ↔ ∀ d ∈ listing.declarations, d.name ≠ name := by
  simp [label?, declaration?]

/-- A name is looked up among the later declarations first. -/
private theorem label?_of_declarations_eq {instructionCount lineCount size : Nat}
    (h : listing.declarations =
      first.declarations ++ second.declarations.map (·.moved instructionCount lineCount size)) :
    listing.label? name = ((second.label? name).map (· + instructionCount)).or (first.label? name) := by
  have hname : (fun d : Declaration => d.name == name) ∘ (Declaration.moved instructionCount lineCount size) =
      fun d => d.name == name := rfl
  rw [label?, declaration?, h, List.reverse_append, ← List.map_reverse, List.find?_append, List.find?_map, hname]
  rw [label?, declaration?, label?, declaration?]
  cases second.declarations.reverse.find? (·.name == name) <;> rfl

end Listing

/-! ### Listings -/

/-- A text that is empty or ends in a line feed is made of closed lines. -/
private theorem exists_unlines_of_closed {a : String} (h : a = "" ∨ ∃ text, a = text ++ "\n") :
    ∃ lines, (∀ line ∈ lines, '\n' ∉ line) ∧ a.toList = unlines lines := by
  obtain ⟨lines, last, hlines, hlast, ha⟩ := exists_unlines a.toList
  have hnil : last = [] := by
    rcases h with rfl | ⟨text, rfl⟩
    · exact (List.append_eq_nil_iff.1 ha.symm).2
    · rcases List.eq_nil_or_concat last with rfl | ⟨front, c, rfl⟩
      · rfl
      · rw [String.toList_append, List.concat_eq_append, ← List.append_assoc] at ha
        obtain ⟨-, hc⟩ := List.append_inj' ha rfl
        obtain rfl : '\n' = c := List.singleton_inj.1 hc
        simp at hlast
  exact ⟨lines, hlines, by rw [ha, hnil, List.append_nil]⟩

section Closed

variable {a b : String} {lines : List (List Char)}

/-- What is said about a text behind closed lines, if these only change what is said about a line by `φ`. -/
private theorem sweep_linesOf_append {α : Type} {f : List (List Char) → List Char → List α} {φ : α → α}
    (hlines : ∀ line ∈ lines, '\n' ∉ line) (ha : a.toList = unlines lines) (hempty : f lines [] = [])
    (hmoved : ∀ before line, f (lines ++ before) line = (f before line).map φ) :
    sweep f [] (linesOf (a ++ b).toList) =
      sweep f [] (linesOf a.toList) ++ (sweep f [] (linesOf b.toList)).map φ := by
  have hfirst : sweep f [] (linesOf a.toList) = sweep f [] lines := by
    rw [ha, linesOf_unlines hlines, sweep_append, List.nil_append, sweep_cons, hempty]
    exact List.append_nil _
  calc sweep f [] (linesOf (a ++ b).toList)
      = sweep f [] (lines ++ linesOf b.toList) := by rw [String.toList_append, ha, linesOf_unlines_append hlines]
    _ = sweep f [] lines ++ sweep f lines (linesOf b.toList) := by rw [sweep_append, List.nil_append]
    _ = sweep f [] (linesOf a.toList) ++ (sweep f [] (linesOf b.toList)).map φ := by
      rw [hfirst, sweep_eq_map hmoved]

private theorem length_lines_parse_closed (hlines : ∀ line ∈ lines, '\n' ∉ line) (ha : a.toList = unlines lines) :
    (Listing.parse a).lines.length = (lines.map content).countP isInstruction := by
  have htexts := congrArg List.length (Listing.texts_parse a)
  rw [List.length_map, List.length_map, ← List.countP_eq_length_filter, contents, ha, linesOf_unlines hlines,
    List.map_append, List.countP_append] at htexts
  exact htexts

end Closed

/-- The listing of a text that is empty or ends in a line feed, followed by another text: the entries of the first
text, and behind them those of the second one with numbers, spans and targets raised by the lines, the bytes and the
instructions of the first.  A name is bound as in the second text if that declares it, else as in the first. -/
theorem parse_append (a b : String) (h : a = "" ∨ ∃ text, a = text ++ "\n") :
    (Listing.parse (a ++ b)).lines =
        (Listing.parse a).lines ++ (Listing.parse b).lines.map (·.moved (a.toList.count '\n') a.utf8ByteSize) ∧
      (Listing.parse (a ++ b)).declarations =
        (Listing.parse a).declarations ++ (Listing.parse b).declarations.map
          (·.moved (Listing.parse a).lines.length (a.toList.count '\n') a.utf8ByteSize) ∧
      ∀ name,
        ((∃ d ∈ (Listing.parse b).declarations, d.name = name) →
          ∃ target, (Listing.parse b).label? name = some target ∧
            (Listing.parse (a ++ b)).label? name = some (target + (Listing.parse a).lines.length)) ∧
        ((∀ d ∈ (Listing.parse b).declarations, d.name ≠ name) →
          (Listing.parse (a ++ b)).label? name = (Listing.parse a).label? name) := by
  obtain ⟨lines, hlines, ha⟩ := exists_unlines_of_closed h
  have hcount : a.toList.count '\n' = lines.length := by rw [ha, count_unlines hlines]
  have hsize : a.utf8ByteSize = startBehind lines := by
    rw [utf8ByteSize_eq, ha]
    rfl
  have hlength : (Listing.parse a).lines.length = (lines.map content).countP isInstruction :=
    length_lines_parse_closed hlines ha
  have hinstructions : (Listing.parse (a ++ b)).lines = (Listing.parse a).lines ++
      (Listing.parse b).lines.map (·.moved (a.toList.count '\n') a.utf8ByteSize) := by
    rw [Listing.lines_parse, Listing.lines_parse, Listing.lines_parse, hcount, hsize]
    exact sweep_linesOf_append hlines ha rfl (instructionsOn_append lines)
  have hdeclarations : (Listing.parse (a ++ b)).declarations = (Listing.parse a).declarations ++
      (Listing.parse b).declarations.map
        (·.moved (Listing.parse a).lines.length (a.toList.count '\n') a.utf8ByteSize) := by
    rw [Listing.declarations_parse, Listing.declarations_parse, Listing.declarations_parse, hlength, hcount, hsize]
    exact sweep_linesOf_append hlines ha rfl (declarationsOn_append lines)
  refine ⟨hinstructions, hdeclarations, fun name => ⟨fun hdeclared => ?_, fun hundeclared => ?_⟩⟩
  · cases htarget : (Listing.parse b).label? name with
    | none =>
      obtain ⟨d, hd, hname⟩ := hdeclared
      exact absurd hname (Listing.label?_eq_none_iff.1 htarget d hd)
    | some target =>
      refine ⟨target, rfl, ?_⟩
      rw [Listing.label?_of_declarations_eq hdeclarations, htarget]
      rfl
  · rw [Listing.label?_of_declarations_eq hdeclarations, Listing.label?_eq_none_iff.2 hundeclared]
    rfl

/-- A first text with letters of two bytes, both kinds of line ends, a comment, a label without an instruction behind
it, and one that the second text declares again. -/
theorem parse_append_coda :
    let a := "; Übung\r\n:coda\nWAIT 1 ;\n:next\n"
    let b := "\tJMP next\n:coda"
    let listing := Listing.parse (a ++ b)
    (a = "" ∨ ∃ text, a = text ++ "\n") ∧
      listing.lines = [⟨"WAIT 1", 3, ⟨16, 22⟩⟩, ⟨"JMP next", 5, ⟨32, 40⟩⟩] ∧
      listing.declarations =
        [⟨"coda", 0, 2, ⟨10, 15⟩⟩, ⟨"next", 1, 4, ⟨25, 30⟩⟩, ⟨"coda", 2, 6, ⟨41, 46⟩⟩] ∧
      listing.label? "next" = some 1 ∧ listing.label? "coda" = some 2 := by
  intro a b listing
  have hclosed : a = "" ∨ ∃ text, a = text ++ "\n" := .inr ⟨"; Übung\r\n:coda\nWAIT 1 ;\n:next", by decide⟩
  obtain ⟨hlines, hdeclarations, hlabel⟩ := parse_append a b hclosed
  have hcoda : ∃ d ∈ (Listing.parse b).declarations, d.name = "coda" := by decide
  have hnext : ∀ d ∈ (Listing.parse b).declarations, d.name ≠ "next" := by decide
  obtain ⟨target, htarget, hlisting⟩ := (hlabel "coda").1 hcoda
  refine ⟨hclosed, hlines.trans (by decide), hdeclarations.trans (by decide), ?_, ?_⟩
  · exact ((hlabel "next").2 hnext).trans (by decide)
  · obtain rfl : 1 = target := by
      have hsecond : (Listing.parse b).label? "coda" = some 1 := by decide
      simpa using hsecond.symm.trans htarget
    exact hlisting.trans (by decide)

end Ostinato
