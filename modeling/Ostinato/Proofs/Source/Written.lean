import Ostinato.Proofs.Source.Compiled
import Ostinato.Proofs.Source.Decimal
import Ostinato.Proofs.Text.Lines

/-!
# Programs written as text

A program is written as a text with a label in front of each instruction and one behind the last, the operands in
decimal.  Such a text is compiled to the program that it was written from, without faults (`compile_written`).
-/

namespace Ostinato

open Text

/-! ### Writing -/

/-- The name of the label in front of the instruction with the given index. -/
def labelName (index : Nat) : List Char :=
  'L' :: decimal index

/-- The name of a register. -/
def registerName (register : Register) : List Char :=
  'R' :: decimal register.val

namespace Instruction

/-- The opcode of an instruction, if it is no unknown one. -/
def opcode? : Instruction → Option Opcode
  | setTempo _ => some .setTempo
  | setTimeSignature _ _ => some .setTimeSignature
  | track _ => some .track
  | note _ => some .note
  | chord _ => some .chord
  | drum _ => some .drum
  | wait _ => some .wait
  | load _ _ => some .load
  | decJnz _ _ => some .decJnz
  | jmp _ => some .jmp
  | halt => some .halt
  | unknown _ => none

/-- The words of its operands; a register or a target that is absent has none. -/
def operands : Instruction → List (List Char)
  | setTempo bpm => decimals [bpm]
  | setTimeSignature beats unit => decimals [beats, unit]
  | track id => decimals [id]
  | note n => decimals [n.pitch, n.velocity, n.duration]
  | chord c => decimal c.pitches.length :: (decimals c.pitches ++ decimals [c.velocity, c.duration])
  | drum d => decimals [d.kind.code, d.velocity, d.duration]
  | wait ticks => decimals [ticks]
  | load register value => (register.map registerName).toList ++ decimals [value]
  | decJnz register target => (register.map registerName).toList ++ (target.map labelName).toList
  | jmp target => (target.map labelName).toList
  | halt => []
  | unknown _ => []

/-- The line of an instruction: its mnemonic and its operands, joined by single spaces. -/
def line (i : Instruction) : List Char :=
  [' '].intercalate ((i.opcode?.map (·.mnemonic.toList)).toList ++ i.operands)

/-- Whether an instruction of a program of the given size has a line that stands for it: it is no unknown one, its
register and its target are there, and its drum kind is one that codes are read as.  The number of pitches of a chord
has to be an operand itself, which it is for any list that fits into memory. -/
def IsWritable (size : Nat) : Instruction → Prop
  | chord c => c.pitches.length < 2 ^ 63
  | drum d => ∃ code, d.kind = DrumKind.ofCode code
  | load register _ => register.isSome
  | decJnz register target => register.isSome ∧ ∃ t, target = some t ∧ t ≤ size
  | jmp target => ∃ t, target = some t ∧ t ≤ size
  | unknown _ => False
  | _ => True

end Instruction

/-- The lines of a program, where the first label has the given index. -/
def linesFrom (index : Nat) : List Instruction → List (List Char)
  | [] => [':' :: labelName index]
  | i :: rest => (':' :: labelName index) :: i.line :: linesFrom (index + 1) rest

/-- A program as a text. -/
def written (program : List Instruction) : String :=
  String.ofList ((linesFrom 0 program).flatMap (· ++ ['\n']))

/-! ### Lines of plain words -/

section Plain

variable {ws : List (List Char)}

/-- A line of plain words holds no comment, and neither a blank nor a carriage return around them. -/
private theorem content_intercalate (hne : ws ≠ []) (h : ∀ word ∈ ws, IsPlain word) :
    content ([' '].intercalate ws) = [' '].intercalate ws := by
  obtain ⟨⟨first, hfirst, a, ha, hhead⟩, last, hlast, b, hb, hget⟩ := ends_intercalate hne h
  have hreturn : withoutReturn ([' '].intercalate ws) = [' '].intercalate ws := by
    have hb' : b ≠ '\r' := by
      rintro rfl
      exact absurd ((h last hlast).2 _ hb).1 (by decide)
    rw [withoutReturn, hget, if_neg (fun e => hb' (Option.some.inj e))]
  have hcode : code ([' '].intercalate ws) = [' '].intercalate ws := by
    rw [code, hreturn, List.takeWhile_eq_self_iff]
    intro c hc
    have hcomment : c ≠ ';' := by
      rintro rfl
      exact not_mem_intercalate h (by decide) (.inr rfl) hc
    simpa using hcomment
  have hstart : ([' '].intercalate ws).dropWhile isBlank = [' '].intercalate ws := by
    obtain ⟨rest, hrest⟩ := List.head?_eq_some_iff.1 hhead
    rw [hrest, List.dropWhile_cons_of_neg (by simp [IsPlain.isBlank_eq_false (h first hfirst) ha])]
  have hend : trimEnd isBlank ([' '].intercalate ws) = [' '].intercalate ws := by
    obtain ⟨rest, hrest⟩ := List.getLast?_eq_some_iff.1 hget
    rw [trimEnd, hrest, List.reverse_append, List.reverse_singleton, List.singleton_append,
      List.dropWhile_cons_of_neg (by simp [IsPlain.isBlank_eq_false (h last hlast) hb]), List.reverse_cons,
      List.reverse_reverse]
  rw [content, hcode, hstart, hend]

private theorem isInstruction_intercalate {word : List Char} (h : isInstruction word = true) :
    isInstruction ([' '].intercalate (word :: ws)) = true := by
  rcases word with _ | ⟨c, cs⟩
  · cases h
  · rcases ws with _ | ⟨next, ws⟩
    · rwa [List.intercalate_singleton]
    · rwa [List.intercalate_cons_cons]

end Plain

/-! ### Reading a line back -/

private theorem isPlain_decimals {values : List Int64} {word : List Char} (h : word ∈ decimals values) :
    IsPlain word := by
  obtain ⟨value, -, rfl⟩ := List.mem_map.1 h
  exact isPlain_decimal _

private theorem isPlain_labelName (index : Nat) : IsPlain (labelName index) :=
  (isPlain_decimal _).cons (by decide)

private theorem isPlain_registerName (register : Register) : IsPlain (registerName register) :=
  (isPlain_decimal _).cons (by decide)

private theorem isPlain_of_mem_toList {α : Type} {name : α → List Char} (hname : ∀ a, IsPlain (name a))
    {o : Option α} {word : List Char} (h : word ∈ (o.map name).toList) : IsPlain word := by
  rcases o with _ | a
  · cases h
  · obtain rfl := List.mem_singleton.1 h
    exact hname a

@[simp] theorem ofWord?_registerName :
    ∀ register : Register, Register.ofWord? (registerName register) = some register := by
  decide

private theorem isPlain_mnemonic (opcode : Opcode) : IsPlain opcode.mnemonic.toList := by
  cases opcode <;> decide

private theorem isInstruction_mnemonic (opcode : Opcode) : isInstruction opcode.mnemonic.toList = true := by
  cases opcode <;> decide

namespace Instruction

private theorem isPlain_operands {i : Instruction} {word : List Char} (h : word ∈ i.operands) : IsPlain word := by
  cases i with
  | chord c =>
    rw [operands, List.mem_cons, List.mem_append] at h
    rcases h with rfl | h | h
    · exact isPlain_decimal _
    · exact isPlain_decimals h
    · exact isPlain_decimals h
  | load register value =>
    rw [operands, List.mem_append] at h
    rcases h with h | h
    · exact isPlain_of_mem_toList isPlain_registerName h
    · exact isPlain_decimals h
  | decJnz register target =>
    rw [operands, List.mem_append] at h
    rcases h with h | h
    · exact isPlain_of_mem_toList isPlain_registerName h
    · exact isPlain_of_mem_toList isPlain_labelName h
  | jmp target => exact isPlain_of_mem_toList isPlain_labelName h
  | halt => cases h
  | unknown _ => cases h
  | _ => exact isPlain_decimals h

variable {labels : Labels} {size : Nat}

/-- The operands of an instruction are read back from its words. -/
private theorem decodeOperands_operands {i : Instruction} (h : i.IsWritable size)
    (hlabels : ∀ t ≤ size, labels (String.ofList (labelName t)) = some t) :
    ∃ opcode, i.opcode? = some opcode ∧ decodeOperands labels opcode i.operands = (i, []) := by
  -- jumps and chords read more than integers, drums and registers go through a code
  cases i with
  | chord c =>
    have hpitches := @readPitches_decimals (decimals [c.velocity, c.duration]) 0 c.pitches h
    refine ⟨.chord, rfl, ?_⟩
    rw [decodeOperands, readInstruction, operands, hpitches]
    simp [decimals]
  | drum d =>
    obtain ⟨code, hcode⟩ := h
    have hkind : DrumKind.ofCode d.kind.code = d.kind := by
      rw [hcode, DrumKind.code_ofCode]
    refine ⟨.drum, rfl, ?_⟩
    simp [decodeOperands, readInstruction, operands, decimals, hkind]
  | load register value =>
    obtain ⟨r, rfl⟩ := Option.isSome_iff_exists.1 h
    refine ⟨.load, rfl, ?_⟩
    simp [decodeOperands, readInstruction, operands, decimals, readRegister, Operands.word]
  | decJnz register target =>
    obtain ⟨hregister, t, rfl, ht⟩ := h
    obtain ⟨r, rfl⟩ := Option.isSome_iff_exists.1 hregister
    refine ⟨.decJnz, rfl, ?_⟩
    simp [decodeOperands, readInstruction, operands, readRegister, readTarget, Operands.word, hlabels t ht]
  | jmp target =>
    obtain ⟨t, rfl, ht⟩ := h
    refine ⟨.jmp, rfl, ?_⟩
    simp [decodeOperands, readInstruction, operands, readTarget, Operands.word, hlabels t ht]
  | unknown _ => exact absurd h id
  | _ => exact ⟨_, rfl, by simp [decodeOperands, readInstruction, operands, decimals]⟩

/-! What a line says as a whole. -/

section Line

variable {i : Instruction}

private theorem exists_opcode (h : i.IsWritable size) : ∃ opcode, i.opcode? = some opcode := by
  cases i with
  | unknown _ => exact absurd h id
  | _ => exact ⟨_, rfl⟩

private theorem line_eq {opcode : Opcode} (h : i.opcode? = some opcode) :
    i.line = [' '].intercalate (opcode.mnemonic.toList :: i.operands) := by
  rw [line, h]
  rfl

private theorem isPlain_words (opcode : Opcode) (i : Instruction) :
    ∀ word ∈ opcode.mnemonic.toList :: i.operands, IsPlain word :=
  List.forall_mem_cons.2 ⟨isPlain_mnemonic opcode, fun _ hword => isPlain_operands hword⟩

private theorem decodeWords_line (h : i.IsWritable size)
    (hlabels : ∀ t ≤ size, labels (String.ofList (labelName t)) = some t) :
    decodeWords labels (words i.line) = (i, []) := by
  obtain ⟨opcode, hopcode, hdecode⟩ := decodeOperands_operands h hlabels
  rw [line_eq hopcode, words_intercalate (isPlain_words opcode i), decodeWords_cons String.ofList_toList.symm, hdecode]

private theorem isInstruction_line (h : i.IsWritable size) : isInstruction i.line = true := by
  obtain ⟨opcode, hopcode⟩ := exists_opcode h
  rw [line_eq hopcode]
  exact isInstruction_intercalate (isInstruction_mnemonic opcode)

end Line

end Instruction

/-! ### Reading a text back -/

section Lines

variable {index size : Nat} {program : List Instruction}

private theorem filter_isInstruction_linesFrom (h : ∀ i ∈ program, i.IsWritable size) :
    (linesFrom index program).filter isInstruction = program.map (·.line) := by
  induction program generalizing index with
  | nil => rfl
  | cons i rest ih =>
    obtain ⟨hi, hrest⟩ := List.forall_mem_cons.1 h
    rw [linesFrom, List.filter_cons_of_neg (by simp), List.filter_cons_of_pos (Instruction.isInstruction_line hi),
      ih hrest]
    rfl

private theorem filter_label_linesFrom (h : ∀ i ∈ program, i.IsWritable size) :
    (linesFrom index program).filter (·.head? = some ':') =
      (List.range' index (program.length + 1)).map fun t => ':' :: labelName t := by
  induction program generalizing index with
  | nil => rfl
  | cons i rest ih =>
    obtain ⟨hi, hrest⟩ := List.forall_mem_cons.1 h
    have hhead : i.line.head? ≠ some ':' := by
      intro e
      obtain ⟨name, hname⟩ := List.head?_eq_some_iff.1 e
      exact ne_label_of_isInstruction (Instruction.isInstruction_line hi) name hname
    rw [linesFrom, List.filter_cons_of_pos (by simp), List.filter_cons_of_neg (by simpa using hhead), ih hrest]
    rfl

private theorem labelName_injective {s t : Nat} (h : labelName s = labelName t) : s = t :=
  Int.ofNat.inj (decimal_injective (List.cons.inj h).2)

private theorem mem_label_linesFrom_iff (h : ∀ i ∈ program, i.IsWritable size) {t : Nat} :
    (':' :: labelName t) ∈ linesFrom index program ↔ index ≤ t ∧ t ≤ index + program.length := by
  have hfilter : (':' :: labelName t) ∈ linesFrom index program ↔
      (':' :: labelName t) ∈ (linesFrom index program).filter (·.head? = some ':') := by
    simp [List.mem_filter]
  rw [hfilter, filter_label_linesFrom h, List.mem_map]
  constructor
  · rintro ⟨s, hs, hname⟩
    obtain rfl := labelName_injective (List.cons.inj hname).2
    rw [List.mem_range'_1] at hs
    omega
  · intro ht
    exact ⟨t, List.mem_range'_1.2 (by omega), rfl⟩

/-- The label with a given index is declared once, with that many instruction lines in front. -/
private theorem boundIndex?_linesFrom (h : ∀ i ∈ program, i.IsWritable size) {t : Nat} (hlow : index ≤ t)
    (hhigh : t ≤ index + program.length) : boundIndex? (labelName t) index (linesFrom index program) = some t := by
  induction program generalizing index with
  | nil =>
    obtain rfl : t = index := Nat.le_antisymm hhigh hlow
    simp [linesFrom, boundIndex?]
  | cons i rest ih =>
    obtain ⟨hi, hrest⟩ := List.forall_mem_cons.1 h
    have hline : isInstruction i.line = true := Instruction.isInstruction_line hi
    rw [linesFrom, boundIndex?, boundIndex?, if_pos hline, isInstruction_label, if_neg Bool.false_ne_true,
      if_neg (ne_label_of_isInstruction hline _), Option.or_none]
    -- later labels have greater indices, so the first one is not declared again
    by_cases ht : t = index
    · subst ht
      have hlater : (':' :: labelName t) ∉ linesFrom (t + 1) rest := by
        rw [mem_label_linesFrom_iff hrest]
        omega
      rw [boundIndex?_eq_none_iff.2 hlater, if_pos rfl]
      rfl
    · rw [List.length_cons] at hhigh
      rw [ih hrest (by omega) (by omega)]
      rfl

private theorem exists_words_of_mem_linesFrom (h : ∀ i ∈ program, i.IsWritable size) {line : List Char}
    (hline : line ∈ linesFrom index program) :
    ∃ ws, ws ≠ [] ∧ (∀ word ∈ ws, IsPlain word) ∧ line = [' '].intercalate ws := by
  have hlabel : ∀ t, ∃ ws, ws ≠ [] ∧ (∀ word ∈ ws, IsPlain word) ∧ ':' :: labelName t = [' '].intercalate ws := by
    intro t
    have hname : IsPlain (':' :: labelName t) := (isPlain_labelName t).cons (by decide)
    exact ⟨[':' :: labelName t], List.cons_ne_nil _ _, List.forall_mem_singleton.2 hname,
      List.intercalate_singleton.symm⟩
  induction program generalizing index with
  | nil =>
    obtain rfl := List.mem_singleton.1 hline
    exact hlabel index
  | cons i rest ih =>
    obtain ⟨hi, hrest⟩ := List.forall_mem_cons.1 h
    rw [linesFrom, List.mem_cons, List.mem_cons] at hline
    rcases hline with rfl | rfl | hline
    · exact hlabel index
    · obtain ⟨opcode, hopcode⟩ := Instruction.exists_opcode hi
      exact ⟨_, List.cons_ne_nil _ _, Instruction.isPlain_words opcode i, Instruction.line_eq hopcode⟩
    · exact ih hrest hline

end Lines

section Written

variable {program : List Instruction}

private theorem contents_written (h : ∀ i ∈ program, i.IsWritable program.length) :
    contents (written program) = linesFrom 0 program ++ [[]] := by
  have hclosed : ∀ line ∈ linesFrom 0 program, '\n' ∉ line := by
    intro line hline
    obtain ⟨ws, -, hplain, rfl⟩ := exists_words_of_mem_linesFrom h hline
    exact not_mem_intercalate hplain (by decide) (.inl (by decide))
  have hcontent : ∀ line ∈ linesFrom 0 program, content line = line := by
    intro line hline
    obtain ⟨ws, hne, hplain, rfl⟩ := exists_words_of_mem_linesFrom h hline
    exact content_intercalate hne hplain
  have hcut : linesOf ((linesFrom 0 program).flatMap (· ++ ['\n'])) = linesFrom 0 program ++ [[]] :=
    linesOf_unlines hclosed
  rw [contents, written, String.toList_ofList, hcut, List.map_append, List.map_congr_left hcontent, List.map_id']
  rfl

/-- Every label is bound to the index that its name says. -/
private theorem label?_written (h : ∀ i ∈ program, i.IsWritable program.length) {t : Nat} (ht : t ≤ program.length) :
    (Listing.parse (written program)).label? (String.ofList (labelName t)) = some t := by
  have hhigh : t ≤ 0 + program.length := by omega
  rw [Listing.label?_parse, contents_written h, boundIndex?_append, boundIndex?_linesFrom h (Nat.zero_le t) hhigh]
  rfl

/-- A program that can be written is compiled back from its text, without faults. -/
theorem compile_written (program : List Instruction) (h : ∀ i ∈ program, i.IsWritable program.length) :
    compile (written program) = ⟨program.toArray, []⟩ := by
  have hcontents := contents_written h
  have hdecode : ∀ i ∈ program, decodeWords (Listing.parse (written program)).label? (words i.line) = (i, []) := by
    intro i hi
    exact Instruction.decodeWords_line (h i hi) fun t ht => label?_written h ht
  have hfilter : (contents (written program)).filter isInstruction = program.map (·.line) := by
    rw [hcontents, List.filter_append, filter_isInstruction_linesFrom h]
    exact List.append_nil _
  have hprogram : (compile (written program)).program = program.toArray := by
    have hmap : program.map (fun i => (decodeWords (Listing.parse (written program)).label? (words i.line)).1) =
        program.map id := List.map_congr_left fun i hi => by rw [hdecode i hi]; rfl
    rw [program_compile, hfilter, List.map_map]
    exact congrArg List.toArray (hmap.trans (List.map_id _))
  have hdiagnostics : (compile (written program)).diagnostics = [] := by
    refine diagnostics_compile_eq_nil ?_ ?_
    · have hinjective : Function.Injective fun t => ':' :: labelName t :=
        fun s t hst => labelName_injective (List.cons.inj hst).2
      have hnil : ([[]] : List (List Char)).filter (·.head? = some ':') = [] := rfl
      rw [hcontents, List.filter_append, filter_label_linesFrom h, hnil, List.append_nil]
      exact List.Nodup.map hinjective List.nodup_range'
    · rw [hfilter]
      intro line hline
      obtain ⟨i, hi, rfl⟩ := List.mem_map.1 hline
      rw [hdecode i hi]
  show Assembly.mk (compile (written program)).program (compile (written program)).diagnostics = _
  rw [hprogram, hdiagnostics]

/-- Instructions of all opcodes, with a chord without pitches, both ends of the signed words, and jumps to the
first label, to the next one and to the one behind the program. -/
def fullRange : List Instruction :=
  [.setTempo Int64.maxValue, .setTimeSignature 3 4, .track (-1), .load (Register.ofNat? 3) Int64.minValue,
    .chord ⟨[], 64, 480⟩, .chord ⟨[60, Int64.minValue, 67], 64, Int64.maxValue⟩, .note ⟨40, 100, 240⟩,
    .drum ⟨.hiHat, 90, 60⟩, .drum ⟨.other (-7), 0, 0⟩, .wait 480, .decJnz (Register.ofNat? 3) (some 4), .jmp (some 12),
    .decJnz (Register.ofNat? 0) (some 0), .jmp (some 15), .halt]

theorem compile_written_fullRange :
    (∀ i ∈ fullRange, i.IsWritable fullRange.length) ∧
      compile (written fullRange) = ⟨fullRange.toArray, []⟩ := by
  have hwritable : ∀ i ∈ fullRange, i.IsWritable fullRange.length := by
    have hhiHat : ∃ code, DrumKind.hiHat = DrumKind.ofCode code := ⟨2, by decide⟩
    have hother : ∃ code, DrumKind.other (-7) = DrumKind.ofCode code := ⟨-7, by decide⟩
    simp [fullRange, Instruction.IsWritable, Register.ofNat?, hhiHat, hother]
  exact ⟨hwritable, compile_written fullRange hwritable⟩

example : written [.load (some 2) (-3), .chord ⟨[60, 64], 90, 480⟩, .decJnz (some 2) (some 1)] =
    ":L0\nLOAD R2 -3\n:L1\nCHORD 2 60 64 90 480\n:L2\nDECJNZ R2 L1\n:L3\n" := by
  decide

end Written

end Ostinato
