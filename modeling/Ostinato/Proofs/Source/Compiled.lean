import Ostinato.Proofs.Source.Labels

/-!
# Compiled texts

What `compile` makes of a text, said about its lines: the instructions are those of the instruction lines
(`program_compile`), and there are no faults if the label lines differ and every instruction line is decoded without one
(`diagnostics_compile_eq_nil`).
-/

namespace Ostinato

open Text

/-! ### Programs -/

theorem decodeWords_cons {labels : Labels} {opcode : Opcode} {mnemonic : List Char}
    (h : opcode.mnemonic = String.ofList mnemonic) (operands : List (List Char)) :
    decodeWords labels (mnemonic :: operands) = decodeOperands labels opcode operands := by
  have hopcode : Opcode.ofMnemonic? (String.ofList mnemonic) = some opcode := Opcode.ofMnemonic?_eq_some_iff.2 h
  simp [decodeWords, hopcode]

/-- The instructions of a compiled text are those of its instruction lines, in order. -/
theorem program_compile (source : String) :
    (compile source).program =
      (((contents source).filter isInstruction).map fun line =>
        (decodeWords (Listing.parse source).label? (words line)).1).toArray := by
  have hlines := congrArg (List.map fun text => (decode (Listing.parse source).label? text).1)
    (Listing.texts_parse source)
  rw [List.map_map, List.map_map] at hlines
  refine (congrArg List.toArray hlines).trans ?_
  simp only [Function.comp_def, decode, String.toList_ofList]

theorem size_program_compile (source : String) :
    (compile source).program.size = (contents source).countP isInstruction := by
  rw [program_compile, List.size_toArray, List.length_map, List.countP_eq_length_filter]

/-! ### Faults -/

private theorem duplicates_eq_nil_iff {seen : List String} {declarations : List Declaration} :
    duplicates seen declarations = [] ↔
      (declarations.map (·.name)).Nodup ∧ ∀ d ∈ declarations, d.name ∉ seen := by
  induction declarations generalizing seen with
  | nil => simp [duplicates]
  | cons d rest ih =>
    rw [duplicates, List.map_cons, List.nodup_cons, List.forall_mem_cons]
    by_cases h : d.name ∈ seen
    · simp [h]
    · have hseen : seen.contains d.name = false := by simpa using h
      rw [hseen, if_neg Bool.false_ne_true, ih]
      simp only [List.mem_cons, not_or, List.mem_map, not_exists, not_and]
      constructor
      · rintro ⟨hnodup, hrest⟩
        exact ⟨⟨fun e he => (hrest e he).1, hnodup⟩, h, fun e he => (hrest e he).2⟩
      · rintro ⟨⟨hne, hnodup⟩, -, hrest⟩
        exact ⟨hnodup, fun e he => ⟨hne e he, hrest e he⟩⟩

/-- A text has no faults if no label is declared twice and no instruction line has a fault. -/
theorem diagnostics_compile_eq_nil {source : String}
    (hlabels : ((contents source).filter (·.head? = some ':')).Nodup)
    (hlines : ∀ line ∈ (contents source).filter isInstruction,
      (decodeWords (Listing.parse source).label? (words line)).2 = []) :
    (compile source).diagnostics = [] := by
  have hduplicates : duplicates [] (Listing.parse source).declarations = [] := by
    refine duplicates_eq_nil_iff.2 ⟨?_, fun d _ => List.not_mem_nil⟩
    rw [Listing.names_parse]
    -- different lines that start with a colon declare different names
    refine List.Nodup.map_on ?_ hlabels
    intro a ha b hb hname
    have hheadA : a.head? = some ':' := by simpa using (List.mem_filter.1 ha).2
    have hheadB : b.head? = some ':' := by simpa using (List.mem_filter.1 hb).2
    obtain ⟨as, rfl⟩ := List.head?_eq_some_iff.1 hheadA
    obtain ⟨bs, rfl⟩ := List.head?_eq_some_iff.1 hheadB
    exact congrArg (':' :: ·) (String.ofList_injective hname)
  have hnone : (Listing.parse source).lines.flatMap (Listing.parse source).lineDiagnostics = [] := by
    rw [List.flatMap_eq_nil_iff]
    intro line hline
    have htext : line.text ∈ ((contents source).filter isInstruction).map String.ofList := by
      rw [← Listing.texts_parse]
      exact List.mem_map_of_mem hline
    obtain ⟨text, hmem, htext⟩ := List.mem_map.1 htext
    rw [Listing.lineDiagnostics, decode, ← htext, String.toList_ofList, hlines text hmem]
    rfl
  show (duplicates [] (Listing.parse source).declarations ++
    (Listing.parse source).lines.flatMap (Listing.parse source).lineDiagnostics).mergeSort _ = []
  rw [hduplicates, hnone, List.append_nil, List.mergeSort_nil]

end Ostinato
