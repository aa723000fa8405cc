import Ostinato.Proofs.Sorting
import Ostinato.Proofs.Source.Positions

/-!
# Faults in the order of the text

The faults of a text are collected declarations first, instructions next, and sorted by where they start.  This is
what one pass over the lines finds (`faultsOn`), because a line starts where no other line starts and sorting keeps
the faults of a line in their order.
-/

namespace Ostinato

open Text

/-! ### Warnings of the decoder -/

section Decoding

variable {labels : Labels} {opcode : Opcode} {args : Operands} {w : Warning}

private theorem opcode?_of_mem_readRegister (h : w ∈ (readRegister opcode args).2.1) : w.opcode? = some opcode := by
  rcases hword : args.word with ⟨_ | word, rest⟩
  · simp only [readRegister, hword, List.mem_singleton] at h
    rw [h]
    rfl
  · cases hregister : Register.ofWord? word with
    | none =>
      simp only [readRegister, hword, hregister, List.mem_singleton] at h
      rw [h]
      rfl
    | some register =>
      simp only [readRegister, hword, hregister, List.not_mem_nil] at h

private theorem opcode?_of_mem_readTarget (h : w ∈ (readTarget labels opcode args).2.1) : w.opcode? = some opcode := by
  cases htarget : labels (String.ofList (args.word.1.getD [])) with
  | none =>
    simp only [readTarget, htarget, List.mem_singleton] at h
    rw [h]
    rfl
  | some target =>
    simp only [readTarget, htarget, List.not_mem_nil] at h

private theorem opcode?_of_mem_readInstruction (h : w ∈ (readInstruction labels opcode args).2.1) :
    w.opcode? = some opcode := by
  cases opcode with
  | load => exact opcode?_of_mem_readRegister h
  | decJnz =>
    rcases List.mem_append.1 h with h | h
    · exact opcode?_of_mem_readRegister h
    · exact opcode?_of_mem_readTarget h
  | jmp => exact opcode?_of_mem_readTarget h
  | _ => cases h

/-- Every warning about the operands of an instruction names its opcode. -/
private theorem opcode?_of_mem_decodeOperands {operands : List (List Char)}
    (h : w ∈ (decodeOperands labels opcode operands).2) : w.opcode? = some opcode := by
  have hmem : w ∈ (readInstruction labels opcode { unread := operands }).2.1 ++
      ((readInstruction labels opcode { unread := operands }).2.2.failure.map (Failure.warning opcode)).toList := h
  rcases List.mem_append.1 hmem with h | h
  · exact opcode?_of_mem_readInstruction h
  · obtain ⟨failure, -, rfl⟩ := Option.map_eq_some_iff.1 (Option.mem_toList.1 h)
    rfl

private theorem duplicateLabel_not_mem_decode (name line : String) : .duplicateLabel name ∉ (decode labels line).2 := by
  intro h
  rw [decode, decodeWords] at h
  split at h
  · cases List.mem_singleton.1 h
  · cases opcode?_of_mem_decodeOperands h

end Decoding

/-! ### Faults of one line -/

section Faults

variable {labels : Labels} {before : List (List Char)} {line name : List Char}

/-- The warnings about the code on a line, where `earlier` is the code on the lines in front of it. -/
def warningsOn (labels : Labels) (earlier : List (List Char)) : List Char → List Warning
  | [] => []
  | ':' :: name => if (':' :: name) ∈ earlier then [.duplicateLabel (String.ofList name)] else []
  | text => (decode labels (String.ofList text)).2

/-- The faults of a line, at its place in the text. -/
def faultsOn (labels : Labels) (before : List (List Char)) (line : List Char) : List Diagnostic :=
  (warningsOn labels (before.map content) (content line)).map fun warning =>
    ⟨warning, Listing.lineSpan (startBehind before) line, before.length + 1⟩

theorem warningsOn_of_instruction {earlier : List (List Char)} (h : isInstruction line = true) :
    warningsOn labels earlier line = (decode labels (String.ofList line)).2 := by
  unfold warningsOn
  split
  · cases h
  · rw [isInstruction_label] at h
    cases h
  · rfl

private theorem faultsOn_of_blank (h : content line = []) : faultsOn labels before line = [] := by
  rw [faultsOn, h]
  rfl

private theorem faultsOn_of_label (h : content line = ':' :: name) :
    faultsOn labels before line =
      if (':' :: name) ∈ before.map content then
        [⟨.duplicateLabel (String.ofList name), Listing.lineSpan (startBehind before) line, before.length + 1⟩]
      else [] := by
  rw [faultsOn, h, warningsOn]
  split <;> rfl

private theorem faultsOn_of_instruction (h : isInstruction (content line) = true) :
    faultsOn labels before line = (decode labels (String.ofList (content line))).2.map fun warning =>
      ⟨warning, Listing.lineSpan (startBehind before) line, before.length + 1⟩ := by
  rw [faultsOn, warningsOn_of_instruction h]

private theorem place_of_mem_faultsOn {d : Diagnostic} (h : d ∈ faultsOn labels before line) :
    d.span = Listing.lineSpan (startBehind before) line ∧ d.number = before.length + 1 := by
  obtain ⟨warning, -, rfl⟩ := List.mem_map.1 h
  exact ⟨rfl, rfl⟩

end Faults

/-! ### Faults of a text -/

section Sweep

variable {labels : Labels} {before lines : List (List Char)}

private theorem pairwise_sweep_faultsOn :
    (sweep (faultsOn labels) before lines).Pairwise fun a b => a.span.start ≤ b.span.start := by
  refine pairwise_sweep (fun before line => ?_) fun before line between other a ha b hb => ?_
  · refine List.Pairwise.imp_of_mem ?_ (List.pairwise_of_forall fun _ _ => trivial)
    intro a b ha hb _
    rw [(place_of_mem_faultsOn ha).1, (place_of_mem_faultsOn hb).1]
  · rw [(place_of_mem_faultsOn ha).1, (place_of_mem_faultsOn hb).1]
    calc (Listing.lineSpan (startBehind before) line).start
        ≤ (Listing.lineSpan (startBehind before) line).stop := start_le_stop_lineSpan ..
      _ ≤ startBehind (before ++ line :: between) := Nat.le_of_lt (stop_lineSpan_lt ..)
      _ ≤ _ := startBehind_le_start ..

/-- Faults on lines with the same number are at the same place. -/
private theorem span_eq_of_number_eq {a b : Diagnostic} (ha : a ∈ sweep (faultsOn labels) [] lines)
    (hb : b ∈ sweep (faultsOn labels) [] lines) (h : a.number = b.number) : a.span = b.span := by
  obtain ⟨front, line, back, hline, ha⟩ := mem_sweep_iff.1 ha
  obtain ⟨front', line', back', hline', hb⟩ := mem_sweep_iff.1 hb
  obtain ⟨hspanA, hnumberA⟩ := place_of_mem_faultsOn ha
  obtain ⟨hspanB, hnumberB⟩ := place_of_mem_faultsOn hb
  rw [List.nil_append] at hspanA hnumberA hspanB hnumberB
  have hlength : front.length = front'.length := by omega
  obtain ⟨rfl, hrest⟩ := List.append_inj (hline.symm.trans hline') hlength
  obtain ⟨rfl, -⟩ := List.cons.inj hrest
  rw [hspanA, hspanB]

private theorem exists_of_mem_duplicates {seen : List String} {declarations : List Declaration} {d : Diagnostic}
    (h : d ∈ duplicates seen declarations) : ∃ declaration ∈ declarations, d.span = declaration.span := by
  induction declarations generalizing seen with
  | nil => cases h
  | cons first rest ih =>
    rw [duplicates] at h
    split at h
    · rcases List.mem_cons.1 h with rfl | h
      · exact ⟨first, List.mem_cons_self .., rfl⟩
      · obtain ⟨declaration, hmem, hspan⟩ := ih h
        exact ⟨declaration, List.mem_cons_of_mem _ hmem, hspan⟩
    · obtain ⟨declaration, hmem, hspan⟩ := ih h
      exact ⟨declaration, List.mem_cons_of_mem _ hmem, hspan⟩

private theorem span_of_mem_declarationsOn {line : List Char} {d : Declaration}
    (h : d ∈ declarationsOn before line) : d.span = Listing.lineSpan (startBehind before) line := by
  rcases line_cases (content line) with hline | ⟨name, hline⟩ | hline
  · rw [declarationsOn_of_blank hline] at h
    cases h
  · rw [declarationsOn_of_label hline] at h
    rw [List.mem_singleton.1 h]
  · rw [declarationsOn_of_instruction hline] at h
    cases h

/-- Duplicate declarations on the lines behind the given ones start behind these. -/
private theorem startBehind_le_of_mem_duplicates {seen : List String} {d : Diagnostic}
    (h : d ∈ duplicates seen (sweep declarationsOn before lines)) :
    startBehind before ≤ d.span.start := by
  obtain ⟨declaration, hmem, hspan⟩ := exists_of_mem_duplicates h
  obtain ⟨front, line, back, -, hline⟩ := mem_sweep_iff.1 hmem
  rw [hspan, span_of_mem_declarationsOn hline]
  exact Nat.le_trans (startBehind_le_append before front) (startBehind_le_start ..)

private theorem mem_map_content_concat {line name : List Char} :
    (':' :: name) ∈ (before ++ [line]).map content ↔
      (':' :: name) ∈ before.map content ∨ content line = ':' :: name := by
  rw [List.map_append, List.mem_append, List.map_singleton, List.mem_singleton, eq_comm (b := content line)]

/-- A declaration in front is reported if its name is among the names seen, and seen by the later ones. -/
private theorem exists_duplicates_of_label (labels : Labels) {seen : List String} {line name : List Char}
    (hseen : ∀ name, String.ofList name ∈ seen ↔ (':' :: name) ∈ before.map content)
    (h : content line = ':' :: name) (declarations : List Declaration) :
    ∃ seen', duplicates seen (declarationsOn before line ++ declarations) =
        faultsOn labels before line ++ duplicates seen' declarations ∧
      ∀ name, String.ofList name ∈ seen' ↔ (':' :: name) ∈ (before ++ [line]).map content := by
  rw [declarationsOn_of_label h, faultsOn_of_label h, List.singleton_append, duplicates]
  by_cases hname : (':' :: name) ∈ before.map content
  · have hcontains : seen.contains (String.ofList name) = true := by simpa using (hseen name).2 hname
    refine ⟨seen, ?_, fun other => ?_⟩
    · rw [if_pos hcontains, if_pos hname]
      rfl
    · rw [mem_map_content_concat, hseen, h, List.cons.injEq]
      exact ⟨.inl, fun hother => hother.elim id fun e => e.2 ▸ hname⟩
  · have hcontains : ¬ seen.contains (String.ofList name) = true := by simpa using fun e => hname ((hseen name).1 e)
    refine ⟨String.ofList name :: seen, ?_, fun other => ?_⟩
    · rw [if_neg hcontains, if_neg hname]
      rfl
    · rw [mem_map_content_concat, List.mem_cons, hseen, h, List.cons.injEq, String.ofList_inj, or_comm, eq_comm]
      simp

/-- Declarations behind a line start behind it, so of those and of the faults of the line, one part is empty among
what starts at a given byte. -/
private theorem filter_start_append_comm (labels : Labels) (seen : List String) (before : List (List Char))
    (line : List Char) (lines : List (List Char)) (k : Nat) :
    (faultsOn labels before line ++
        duplicates seen (sweep declarationsOn (before ++ [line]) lines)).filter (·.span.start = k) =
      (duplicates seen (sweep declarationsOn (before ++ [line]) lines) ++
        faultsOn labels before line).filter (·.span.start = k) := by
  rw [List.filter_append, List.filter_append]
  by_cases hk : k = (Listing.lineSpan (startBehind before) line).start
  · have hnone : (duplicates seen (sweep declarationsOn (before ++ [line]) lines)).filter (·.span.start = k) = [] := by
      refine List.filter_eq_nil_iff.2 fun d hd => ?_
      have hle := startBehind_le_of_mem_duplicates hd
      have hlt := stop_lineSpan_lt before line []
      have hspan := start_le_stop_lineSpan (startBehind before) line
      simp only [decide_eq_true_eq]
      omega
    rw [hnone, List.append_nil, List.nil_append]
  · have hnone : (faultsOn labels before line).filter (·.span.start = k) = [] := by
      refine List.filter_eq_nil_iff.2 fun d hd => ?_
      rw [(place_of_mem_faultsOn hd).1]
      simpa using Ne.symm hk
    rw [hnone, List.nil_append, List.append_nil]

/-- The faults that start at a given byte are the same whether they are collected line by line or declarations
first.  `seen` holds the names that are declared on the lines in front. -/
private theorem filter_start_sweep (listing : Listing) {seen : List String}
    (hseen : ∀ name, String.ofList name ∈ seen ↔ (':' :: name) ∈ before.map content) (k : Nat) :
    (sweep (faultsOn listing.label?) before lines).filter (·.span.start = k) =
      (duplicates seen (sweep declarationsOn before lines) ++
        (sweep instructionsOn before lines).flatMap listing.lineDiagnostics).filter (·.span.start = k) := by
  induction lines generalizing before seen with
  | nil => rfl
  | cons line lines ih =>
    rw [sweep_cons, sweep_cons, sweep_cons]
    rcases line_cases (content line) with h | ⟨name, h⟩ | h
    · have hseen' : ∀ name, String.ofList name ∈ seen ↔ (':' :: name) ∈ (before ++ [line]).map content := by
        intro name
        rw [mem_map_content_concat, hseen, h]
        simp
      rw [instructionsOn_of_blank h, declarationsOn_of_blank h, faultsOn_of_blank h]
      exact ih hseen'
    · obtain ⟨seen', hduplicates, hseen'⟩ := exists_duplicates_of_label listing.label? hseen h
        (sweep declarationsOn (before ++ [line]) lines)
      rw [hduplicates, instructionsOn_of_label h, List.nil_append, List.append_assoc, List.filter_append,
        List.filter_append, ih hseen']
    · have hseen' : ∀ name, String.ofList name ∈ seen ↔ (':' :: name) ∈ (before ++ [line]).map content := by
        intro name
        rw [mem_map_content_concat, hseen]
        simp [ne_label_of_isInstruction h]
      have hfaults : (instructionsOn before line).flatMap listing.lineDiagnostics =
          faultsOn listing.label? before line := by
        rw [instructionsOn_of_instruction h, faultsOn_of_instruction h, List.flatMap_singleton]
        rfl
      have hcomm := filter_start_append_comm listing.label? seen before line lines k
      rw [declarationsOn_of_instruction h, List.nil_append, List.flatMap_append, hfaults]
      simp only [List.filter_append] at hcomm ⊢
      rw [ih hseen', List.filter_append, ← List.append_assoc, hcomm, List.append_assoc]

end Sweep

private theorem count_duplicates (name : String) (seen : List String) (declarations : List Declaration) :
    ((duplicates seen declarations).map (·.warning)).count (.duplicateLabel name) =
      (declarations.map (·.name)).count name - if name ∈ seen then 0 else 1 := by
  induction declarations generalizing seen with
  | nil => simp [duplicates]
  | cons d rest ih =>
    rw [duplicates, List.map_cons, List.count_cons]
    by_cases hseen : d.name ∈ seen
    · have hcontains : seen.contains d.name = true := by simpa using hseen
      rw [if_pos hcontains, List.map_cons, List.count_cons, ih]
      by_cases hname : d.name = name
      · rw [if_pos (hname ▸ hseen)]
        simp [hname]
      · simp [hname]
    · have hcontains : ¬ seen.contains d.name = true := by simpa using hseen
      rw [if_neg hcontains, ih]
      by_cases hname : d.name = name
      · have hname' : name ∉ seen := hname ▸ hseen
        simp [hname, hname']
      · simp [hname, Ne.symm hname]

namespace Listing

/-- The faults of a listing in the order in which they are collected. -/
def collected (listing : Listing) : List Diagnostic :=
  duplicates [] listing.declarations ++ listing.lines.flatMap listing.lineDiagnostics

private theorem diagnostics_eq_mergeSort (listing : Listing) :
    listing.diagnostics = listing.collected.mergeSort fun a b => a.span.start ≤ b.span.start := rfl

private theorem count_duplicateLabel_diagnostics (listing : Listing) (name : String) :
    (listing.diagnostics.map (·.warning)).count (.duplicateLabel name) =
      (listing.declarations.map (·.name)).count name - 1 := by
  have hperm := (List.mergeSort_perm listing.collected fun a b => a.span.start ≤ b.span.start).map (·.warning)
  have hlines : .duplicateLabel name ∉ (listing.lines.flatMap listing.lineDiagnostics).map (·.warning) := by
    intro hmem
    obtain ⟨d, hd, hwarning⟩ := List.mem_map.1 hmem
    obtain ⟨line, -, hd⟩ := List.mem_flatMap.1 hd
    obtain ⟨warning, hdecode, rfl⟩ := List.mem_map.1 hd
    obtain rfl : warning = .duplicateLabel name := hwarning
    exact duplicateLabel_not_mem_decode name line.text hdecode
  rw [diagnostics_eq_mergeSort, hperm.count_eq, collected, List.map_append, List.count_append, count_duplicates,
    List.count_eq_zero_of_not_mem hlines]
  simp

/-- The faults of a text are those of its lines, in order. -/
theorem diagnostics_parse (source : String) :
    (parse source).diagnostics = sweep (faultsOn (parse source).label?) [] (linesOf source.toList) := by
  refine mergeSort_key_eq pairwise_sweep_faultsOn fun k => ?_
  have hseen : ∀ name,
      String.ofList name ∈ ([] : List String) ↔ (':' :: name) ∈ ([] : List (List Char)).map content := by
    simp
  rw [filter_start_sweep (parse source) hseen, ← declarations_parse, ← lines_parse]

/-- Sorting does not move the faults of a line against each other. -/
private theorem filter_number_diagnostics (source : String) (number : Nat) :
    (parse source).diagnostics.filter (·.number = number) = (parse source).collected.filter (·.number = number) := by
  have hperm : (parse source).diagnostics.Perm (parse source).collected := List.mergeSort_perm _ _
  have hstable : ∀ k, (parse source).diagnostics.filter (·.span.start = k) =
      (parse source).collected.filter (·.span.start = k) := filter_mergeSort_key (parse source).collected
  -- the faults with the same number start at the same byte
  have hfilter : ∀ d ∈ (parse source).diagnostics, d.number = number →
      ∀ l : List Diagnostic, (∀ e ∈ l, e ∈ (parse source).diagnostics) →
        l.filter (·.number = number) = (l.filter (·.span.start = d.span.start)).filter (·.number = number) := by
    intro d hd hnumber l hl
    rw [List.filter_filter]
    refine List.filter_congr fun e he => ?_
    rw [diagnostics_parse] at hd hl
    have hspan : e.number = number → e.span.start = d.span.start := fun h =>
      congrArg Span.start (span_eq_of_number_eq (hl e he) hd (h.trans hnumber.symm))
    simpa using hspan
  by_cases hexists : ∃ d ∈ (parse source).diagnostics, d.number = number
  · obtain ⟨d, hd, hnumber⟩ := hexists
    rw [hfilter d hd hnumber _ fun e he => he, hstable, ← hfilter d hd hnumber _ fun e he => hperm.mem_iff.2 he]
  · have hnone : (parse source).diagnostics.filter (·.number = number) = [] :=
      List.filter_eq_nil_iff.2 fun d hd h => hexists ⟨d, hd, by simpa using h⟩
    have hfiltered := hperm.filter (·.number = number)
    rw [hnone] at hfiltered ⊢
    exact hfiltered.symm.eq_nil.symm

end Listing

/-- The faults of a text are what one pass over its lines finds: on a line that declares a label a second time that
this is so, on an instruction line what the decoder warns about, each with the number and the span of its line.  A
name has one fault less than declarations, and sorting keeps the faults of a line in their order. -/
theorem diagnostics_eq_one_pass (source : String) :
    (Listing.parse source).lines = sweep instructionsOn [] (linesOf source.toList) ∧
      (Listing.parse source).declarations = sweep declarationsOn [] (linesOf source.toList) ∧
      (Listing.parse source).assemble.diagnostics =
        sweep (faultsOn (Listing.parse source).label?) [] (linesOf source.toList) ∧
      (∀ name, ((Listing.parse source).assemble.diagnostics.map (·.warning)).count (.duplicateLabel name) =
        ((Listing.parse source).declarations.map (·.name)).count name - 1) ∧
      ∀ number, (Listing.parse source).assemble.diagnostics.filter (·.number = number) =
        (Listing.parse source).collected.filter (·.number = number) :=
  ⟨Listing.lines_parse source, Listing.declarations_parse source, Listing.diagnostics_parse source,
    Listing.count_duplicateLabel_diagnostics _, Listing.filter_number_diagnostics source⟩

end Ostinato
