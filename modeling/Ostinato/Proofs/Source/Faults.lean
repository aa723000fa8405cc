import Ostinato.Proofs.Source.Chords
import Ostinato.Proofs.Source.Written

/-!
# The faults of a line

Every opcode but the chord takes a register, a label and a number of integers, some of them or none, in this order.
What is reported about a line is what is wrong with these operands: a register or a target that the instruction lacks,
and the first integer that cannot be read, behind which all integers are zero.  Nothing else is reported, and none of it
twice (`decode_accounted`), so a line without faults says what all the operands of its instruction are.

* `Opcode.shape?`: the operands that an opcode takes.
* `readable`: the integers that stand in words, up to the first one that cannot be read.
* `Accounted`: what it means for warnings to account for what an instruction lacks.
-/

namespace Ostinato

/-! ### Operands by their kinds -/

namespace Instruction

/-- The register operand of an instruction that takes one; it may be lacking. -/
def registerOperand? : Instruction → Option (Option Register)
  | load register _ => some register
  | decJnz register _ => some register
  | _ => none

/-- The target of an instruction that takes one; it may be lacking. -/
def targetOperand? : Instruction → Option (Option Nat)
  | decJnz _ target => some target
  | jmp target => some target
  | _ => none

/-- The integer operands of an instruction, in their order. -/
def integers : Instruction → List Int64
  | setTempo bpm => [bpm]
  | setTimeSignature beats unit => [beats, unit]
  | track id => [id]
  | note n => [n.pitch, n.velocity, n.duration]
  | chord c => c.pitches ++ [c.velocity, c.duration]
  | drum d => [d.kind.code, d.velocity, d.duration]
  | wait ticks => [ticks]
  | load _ value => [value]
  | _ => []

end Instruction

/-- Operands: a register, a label and integers, in this order. -/
structure OperandShape where
  register : Bool := false
  target : Bool := false
  integers : Nat := 0

/-- The number of operands that are words. -/
def OperandShape.words (shape : OperandShape) : Nat :=
  shape.register.toNat + shape.target.toNat

/-- The operands that an opcode takes; only a chord has no fixed number of them. -/
def Opcode.shape? : Opcode → Option OperandShape
  | setTempo => some { integers := 1 }
  | setTimeSignature => some { integers := 2 }
  | track => some { integers := 1 }
  | note => some { integers := 3 }
  | chord => none
  | drum => some { integers := 3 }
  | wait => some { integers := 1 }
  | load => some { register := true, integers := 1 }
  | decJnz => some { register := true, target := true }
  | jmp => some { target := true }
  | halt => some {}

private theorem Opcode.exists_shape {opcode : Opcode} (h : opcode ≠ .chord) : ∃ shape, opcode.shape? = some shape := by
  cases opcode with
  | chord => exact absurd rfl h
  | _ => exact ⟨_, rfl⟩

/-! ### Integers one after the other -/

/-- The integers that can be read from words one after the other, as many as asked for, and the text of the first one
that cannot be read, which is empty if there is nothing left. -/
def readable : (count : Nat) → List (List Char) → List Int64 × Option (List Char)
  | 0, _ => ([], none)
  | _ + 1, [] => ([], some [])
  | count + 1, word :: rest =>
    match readInteger? word with
    | none => ([], some word)
    | some (value, tail) =>
      let (values, failed) := readable count (if tail.isEmpty then rest else tail :: rest)
      (value :: values, failed)

private theorem length_readable (count : Nat) (words : List (List Char)) : (readable count words).1.length ≤ count := by
  fun_induction readable count words with
  | case1 => exact le_rfl
  | case2 => exact Nat.zero_le _
  | case3 => exact Nat.zero_le _
  | case4 count word rest value tail hread values failed hrest ih =>
    rw [hrest] at ih
    exact Nat.succ_le_succ ih

/-- All integers that are asked for can be read, or there is one that cannot. -/
private theorem length_readable_of_none {count : Nat} {words : List (List Char)} (h : (readable count words).2 = none) :
    (readable count words).1.length = count := by
  fun_induction readable count words with
  | case1 => rfl
  | case2 => cases h
  | case3 => cases h
  | case4 count word rest value tail hread values failed hrest ih =>
    rw [hrest] at ih
    exact congrArg Nat.succ (ih h)

/-- The integers that can be read behind the words, and the text of the first one that cannot be read. -/
def OperandShape.readable (shape : OperandShape) (operands : List (List Char)) : List Int64 × Option (List Char) :=
  Ostinato.readable shape.integers (operands.drop shape.words)

namespace Operands

variable {args : Operands}

private theorem ints_of_failure (h : args.failure.isSome = true) (count : Nat) :
    args.ints count = (List.replicate count 0, args) := by
  induction count with
  | zero => rfl
  | succ count ih => simp only [ints, int_of_failure h, ih, List.replicate_succ]

/-- The reader gives the integers that can be read, and zero for all others. -/
private theorem ints_eq_readable (count : Nat) (unread : List (List Char)) (position : Nat) :
    (ints count ⟨unread, position, none⟩).1 =
        (readable count unread).1 ++ List.replicate (count - (readable count unread).1.length) 0 ∧
      (ints count ⟨unread, position, none⟩).2.failure =
        (readable count unread).2.map (⟨position + (readable count unread).1.length, ·⟩) := by
  induction count generalizing unread position with
  | zero => exact ⟨rfl, rfl⟩
  | succ count ih =>
    -- a read that fails ends the integers that can be read
    have hfail : ∀ text rest, int ⟨unread, position, none⟩ = (0, fail ⟨unread, position, none⟩ text rest) →
        readable (count + 1) unread = ([], some text) →
          (ints (count + 1) ⟨unread, position, none⟩).1 =
              (readable (count + 1) unread).1 ++
                List.replicate (count + 1 - (readable (count + 1) unread).1.length) 0 ∧
            (ints (count + 1) ⟨unread, position, none⟩).2.failure =
              (readable (count + 1) unread).2.map (⟨position + (readable (count + 1) unread).1.length, ·⟩) := by
      intro text rest hint hreadable
      have hfailure : (fail ⟨unread, position, none⟩ text rest).failure.isSome = true := rfl
      simp only [ints, hint, ints_of_failure hfailure, hreadable]
      exact ⟨rfl, rfl⟩
    rcases unread with _ | ⟨word, rest⟩
    · exact hfail [] [] rfl rfl
    · cases hread : readInteger? word with
      | none => exact hfail word rest (by simp [int, hread]) (by simp [readable, hread])
      | some read =>
        obtain ⟨value, tail⟩ := read
        obtain ⟨hvalues, hfailure⟩ := ih (if tail.isEmpty then rest else tail :: rest) (position + 1)
        have hint : int ⟨word :: rest, position, none⟩ =
            (value, ⟨if tail.isEmpty then rest else tail :: rest, position + 1, none⟩) := by
          simp [int, hread]
        simp only [ints, hint, readable, hread, hvalues, hfailure, List.cons_append, List.length_cons,
          Nat.add_sub_add_right, true_and]
        rw [Nat.add_assoc, Nat.add_comm 1]

end Operands

/-! ### Words -/

/-- The warning about a register that is missing or not usable. -/
def registerFault (opcode : Opcode) (operands : List (List Char)) : Warning :=
  operands.head?.elim (.argument opcode 0 "") fun word => .register opcode (String.ofList word)

/-- The label that a jump leads to, which is the one with the empty name if none is written. -/
def targetName (shape : OperandShape) (operands : List (List Char)) : String :=
  String.ofList ((operands.drop shape.register.toNat).headD [])

/-- The warning about the first integer that cannot be read, by its text; its position is the number of operands in
front of it. -/
def integerFault (opcode : Opcode) (shape : OperandShape) (operands : List (List Char)) (text : List Char) : Warning :=
  .argument opcode (shape.words + (shape.readable operands).1.length) (String.ofList text)

private theorem registerFault_ne_unknownLabel (opcode : Opcode) (operands : List (List Char)) (name : String) :
    registerFault opcode operands ≠ .unknownLabel opcode name := by
  rcases operands with _ | ⟨word, rest⟩ <;> intro h <;> cases h

/-- The register is the first operand, and an integer behind it is not. -/
private theorem registerFault_ne_integerFault {shape : OperandShape} (h : shape.register = true) (opcode : Opcode)
    (operands : List (List Char)) (text : List Char) :
    registerFault opcode operands ≠ integerFault opcode shape operands text := by
  rcases operands with _ | ⟨word, rest⟩
  · intro hfault
    have hposition := (Warning.argument.inj hfault).2.1
    rw [OperandShape.words, h] at hposition
    exact absurd hposition (by simp only [Bool.toNat_true]; omega)
  · intro hfault
    cases hfault

private theorem readRegister_eq (opcode : Opcode) (operands : List (List Char)) (position : Nat) :
    readRegister opcode ⟨operands, position, none⟩ =
      (operands.head?.bind Register.ofWord?,
        if operands.head?.bind Register.ofWord? = none then [registerFault opcode operands] else [],
        ⟨operands.tail, position + 1, none⟩) := by
  rcases operands with _ | ⟨word, rest⟩
  · rfl
  · cases h : Register.ofWord? word <;> simp [readRegister, Operands.word, registerFault, h]

private theorem readTarget_eq (labels : Labels) (opcode : Opcode) (operands : List (List Char)) (position : Nat) :
    readTarget labels opcode ⟨operands, position, none⟩ =
      (labels (String.ofList (operands.headD [])),
        if labels (String.ofList (operands.headD [])) = none then
          [.unknownLabel opcode (String.ofList (operands.headD []))] else [],
        ⟨operands.tail, position + 1, none⟩) := by
  rcases operands with _ | ⟨word, rest⟩
  · cases h : labels (String.ofList []) <;> simp_all [readTarget, Operands.word]
  · cases h : labels (String.ofList word) <;> simp [readTarget, Operands.word, h]

/-! ### Instructions -/

section

variable {labels : Labels} {opcode : Opcode} {shape : OperandShape} {operands : List (List Char)}

/-- An instruction of a fixed shape is read word by word, and integer by integer behind the words. -/
private theorem readInstruction_eq (labels : Labels) (operands : List (List Char)) (h : opcode.shape? = some shape) :
    ∃ i, readInstruction labels opcode { unread := operands } =
        (i, (if i.registerOperand? = some none then [registerFault opcode operands] else []) ++
            (if i.targetOperand? = some none then [.unknownLabel opcode (targetName shape operands)] else []),
          (Operands.ints shape.integers ⟨operands.drop shape.words, shape.words, none⟩).2) ∧
      i.opcode? = some opcode ∧
      i.registerOperand? = (if shape.register then some (operands.head?.bind Register.ofWord?) else none) ∧
      i.targetOperand? = (if shape.target then some (labels (targetName shape operands)) else none) ∧
      i.integers = (Operands.ints shape.integers ⟨operands.drop shape.words, shape.words, none⟩).1 := by
  cases opcode with
  | chord => cases h
  | drum =>
    obtain rfl := Option.some.inj h
    exact ⟨_, rfl, rfl, rfl, rfl, congrArg (· :: _) (DrumKind.code_ofCode _)⟩
  | load =>
    obtain rfl := Option.some.inj h
    refine ⟨.load (operands.head?.bind Register.ofWord?) (Operands.int ⟨operands.tail, 1, none⟩).1, ?_, rfl, rfl, rfl,
      ?_⟩
    · rw [readInstruction, readRegister_eq]
      simp [Instruction.registerOperand?, Instruction.targetOperand?, OperandShape.words, Operands.ints]
    · simp [Instruction.integers, OperandShape.words, Operands.ints]
  | decJnz =>
    obtain rfl := Option.some.inj h
    refine ⟨.decJnz (operands.head?.bind Register.ofWord?) (labels (String.ofList (operands.tail.headD []))), ?_, rfl,
      rfl, ?_, rfl⟩
    · have htail : operands.drop 2 = operands.tail.tail := by
        rw [← List.drop_one, ← List.drop_one, List.drop_drop]
      rw [readInstruction, readRegister_eq]
      simp only [readTarget_eq]
      simp [Instruction.registerOperand?, Instruction.targetOperand?, OperandShape.words, Operands.ints, targetName,
        htail]
    · simp [Instruction.targetOperand?, targetName]
  | jmp =>
    obtain rfl := Option.some.inj h
    refine ⟨.jmp (labels (String.ofList (operands.headD []))), ?_, rfl, rfl, ?_, rfl⟩
    · rw [readInstruction, readTarget_eq]
      simp [Instruction.registerOperand?, Instruction.targetOperand?, OperandShape.words, Operands.ints, targetName]
    · simp [Instruction.targetOperand?, targetName]
  | _ =>
    obtain rfl := Option.some.inj h
    exact ⟨_, rfl, rfl, rfl, rfl, rfl⟩

/-- The integer operands and the warnings that an instruction of a fixed shape is decoded to. -/
private theorem decodeOperands_eq (labels : Labels) (operands : List (List Char)) (h : opcode.shape? = some shape) :
    ∃ i, decodeOperands labels opcode operands =
        (i, (if i.registerOperand? = some none then [registerFault opcode operands] else []) ++
            (if i.targetOperand? = some none then [.unknownLabel opcode (targetName shape operands)] else []) ++
            ((shape.readable operands).2.map (integerFault opcode shape operands)).toList) ∧
      i.opcode? = some opcode ∧
      i.registerOperand? = (if shape.register then some (operands.head?.bind Register.ofWord?) else none) ∧
      i.targetOperand? = (if shape.target then some (labels (targetName shape operands)) else none) ∧
      i.integers = (shape.readable operands).1 ++
        List.replicate (shape.integers - (shape.readable operands).1.length) 0 := by
  obtain ⟨i, hread, hopcode, hregister, htarget, hintegers⟩ := readInstruction_eq labels operands h
  obtain ⟨hvalues, hfailure⟩ := Operands.ints_eq_readable shape.integers (operands.drop shape.words) shape.words
  refine ⟨i, ?_, hopcode, hregister, htarget, hintegers.trans hvalues⟩
  rw [decodeOperands, hread]
  simp only [hfailure, Option.map_map]
  rfl

/-! ### Warnings -/

/-- Warnings that account for what an instruction lacks: each of the faults of its operands is among them once, and
there are no others. -/
structure Accounted (labels : Labels) (opcode : Opcode) (shape : OperandShape) (operands : List (List Char))
    (i : Instruction) (warnings : List Warning) : Prop where
  opcode_eq : i.opcode? = some opcode
  /-- The register is the one that the first operand names. -/
  register_eq : i.registerOperand? = if shape.register then some (operands.head?.bind Register.ofWord?) else none
  /-- The target is what the label is bound to. -/
  target_eq : i.targetOperand? = if shape.target then some (labels (targetName shape operands)) else none
  /-- The integers are those that can be read, and zero from the first one on that cannot be read. -/
  integers_eq : i.integers = (shape.readable operands).1 ++
    List.replicate (shape.integers - (shape.readable operands).1.length) 0
  length_integers : i.integers.length = shape.integers
  nodup : warnings.Nodup
  register_iff : i.registerOperand? = some none ↔ shape.register ∧ registerFault opcode operands ∈ warnings
  target_iff : i.targetOperand? = some none ↔ .unknownLabel opcode (targetName shape operands) ∈ warnings
  integer_iff : ∀ text, (shape.readable operands).2 = some text ↔ integerFault opcode shape operands text ∈ warnings
  /-- There are no other warnings. -/
  forall_mem : ∀ warning ∈ warnings,
    i.registerOperand? = some none ∧ warning = registerFault opcode operands ∨
      i.targetOperand? = some none ∧ warning = .unknownLabel opcode (targetName shape operands) ∨
      ∃ text, (shape.readable operands).2 = some text ∧ warning = integerFault opcode shape operands text

/-- Of the kinds of faults of an instruction, no two have the same warning. -/
private theorem nodup_faults {lacksRegister lacksTarget : Prop} [Decidable lacksRegister] [Decidable lacksTarget]
    {name : String} {failed : Option (List Char)} (h : lacksRegister → shape.register = true) :
    ((if lacksRegister then [registerFault opcode operands] else []) ++
      (if lacksTarget then [Warning.unknownLabel opcode name] else []) ++
      (failed.map (integerFault opcode shape operands)).toList).Nodup := by
  have hlabel : ∀ text, integerFault opcode shape operands text ≠ .unknownLabel opcode name :=
    fun text hfault => by cases hfault
  rw [List.nodup_append, List.nodup_append]
  refine ⟨⟨?_, ?_, ?_⟩, ?_, ?_⟩
  · split <;> simp
  · split <;> simp
  · split <;> split <;> simp [registerFault_ne_unknownLabel]
  · cases failed <;> simp
  · intro warning hwarning fault hfault
    obtain ⟨text, -, rfl⟩ : ∃ text, failed = some text ∧ integerFault opcode shape operands text = fault := by
      simpa using hfault
    rcases List.mem_append.1 hwarning with hregister | htarget
    · split at hregister
      · rename_i hlacks
        rw [List.mem_singleton.1 hregister]
        exact registerFault_ne_integerFault (h hlacks) _ _ _
      · cases hregister
    · split at htarget
      · rw [List.mem_singleton.1 htarget]
        exact (hlabel text).symm
      · cases htarget

private theorem accounted_decodeOperands (labels : Labels) (operands : List (List Char))
    (h : opcode.shape? = some shape) :
    Accounted labels opcode shape operands (decodeOperands labels opcode operands).1
      (decodeOperands labels opcode operands).2 := by
  obtain ⟨i, hdecode, hopcode, hregister, htarget, hintegers⟩ := decodeOperands_eq labels operands h
  have htakes : i.registerOperand? = some none → shape.register = true := by
    intro hlacks
    rw [hregister] at hlacks
    by_contra htakes
    rw [if_neg htakes] at hlacks
    cases hlacks
  have hmem : ∀ warning, warning ∈ (decodeOperands labels opcode operands).2 ↔
      i.registerOperand? = some none ∧ warning = registerFault opcode operands ∨
        i.targetOperand? = some none ∧ warning = .unknownLabel opcode (targetName shape operands) ∨
        ∃ text, (shape.readable operands).2 = some text ∧ warning = integerFault opcode shape operands text := by
    intro warning
    rw [hdecode]
    simp [List.mem_append, eq_comm]
  rw [hdecode] at hmem ⊢
  refine
    { opcode_eq := hopcode
      register_eq := hregister
      target_eq := htarget
      integers_eq := hintegers
      length_integers := ?length
      nodup := nodup_faults htakes
      register_iff := ?register
      target_iff := ?target
      integer_iff := ?integer
      forall_mem := fun warning => (hmem warning).1 }
  case length =>
    have hle := length_readable shape.integers (operands.drop shape.words)
    rw [hintegers, List.length_append, List.length_replicate]
    exact Nat.add_sub_cancel' hle
  case register =>
    rw [hmem]
    refine ⟨fun hlacks => ⟨htakes hlacks, .inl ⟨hlacks, rfl⟩⟩, ?_⟩
    rintro ⟨htakes, ⟨hlacks, -⟩ | ⟨-, hfault⟩ | ⟨text, -, hfault⟩⟩
    · exact hlacks
    · exact absurd hfault (registerFault_ne_unknownLabel _ _ _)
    · exact absurd hfault (registerFault_ne_integerFault htakes _ _ _)
  case target =>
    rw [hmem]
    refine ⟨fun hlacks => .inr (.inl ⟨hlacks, rfl⟩), ?_⟩
    rintro (⟨-, hfault⟩ | ⟨hlacks, -⟩ | ⟨text, -, hfault⟩)
    · exact absurd hfault.symm (registerFault_ne_unknownLabel _ _ _)
    · exact hlacks
    · cases hfault
  case integer =>
    intro text
    rw [hmem]
    refine ⟨fun hfailed => .inr (.inr ⟨text, hfailed, rfl⟩), ?_⟩
    rintro (⟨hlacks, hfault⟩ | ⟨-, hfault⟩ | ⟨other, hfailed, hfault⟩)
    · exact absurd hfault.symm (registerFault_ne_integerFault (htakes hlacks) _ _ _)
    · cases hfault
    · rw [hfailed, String.ofList_injective (Warning.argument.inj hfault).2.2]

/-- An instruction whose operands are all there, as they are written on the line. -/
structure Complete (labels : Labels) (shape : OperandShape) (operands : List (List Char)) (i : Instruction) : Prop where
  exists_register : shape.register = true → ∃ word r, operands.head? = some word ∧ Register.ofWord? word = some r ∧
    i.registerOperand? = some (some r)
  exists_target : shape.target = true → ∃ t, labels (targetName shape operands) = some t ∧
    i.targetOperand? = some (some t)
  readable_eq : shape.readable operands = (i.integers, none)
  length_integers : i.integers.length = shape.integers

private theorem Accounted.complete {i : Instruction} (h : Accounted labels opcode shape operands i []) :
    Complete labels shape operands i := by
  have hfailed : (shape.readable operands).2 = none := by
    refine Option.eq_none_iff_forall_ne_some.2 fun text htext => ?_
    cases (h.integer_iff text).1 htext
  refine
    { exists_register := ?register
      exists_target := ?target
      readable_eq := ?readable
      length_integers := h.length_integers }
  case register =>
    intro htakes
    have hregister := h.register_eq
    rw [if_pos htakes] at hregister
    cases hr : operands.head?.bind Register.ofWord? with
    | none =>
      rw [hr] at hregister
      cases (h.register_iff.1 hregister).2
    | some r =>
      obtain ⟨word, hword, hname⟩ := Option.bind_eq_some_iff.1 hr
      exact ⟨word, r, hword, hname, hregister.trans (congrArg some hr)⟩
  case target =>
    intro htakes
    have htarget := h.target_eq
    rw [if_pos htakes] at htarget
    cases ht : labels (targetName shape operands) with
    | none =>
      rw [ht] at htarget
      cases h.target_iff.1 htarget
    | some t => exact ⟨t, rfl, htarget.trans (congrArg some ht)⟩
  case readable =>
    have hlength : (shape.readable operands).1.length = shape.integers := length_readable_of_none hfailed
    refine Prod.ext ?_ hfailed
    rw [h.integers_eq, hlength, Nat.sub_self, List.replicate_zero, List.append_nil]

/-! ### Lines -/

variable {line : List (List Char)}

private theorem decodeWords_of_eq_none (h : Opcode.ofMnemonic? (String.ofList (line.headD [])) = none) :
    decodeWords labels line =
      (.unknown (String.ofList (line.headD [])), [.unknownOpcode (String.ofList (line.headD []))]) := by
  simp only [decodeWords, h]

private theorem decodeWords_of_eq_some (h : Opcode.ofMnemonic? (String.ofList (line.headD [])) = some opcode) :
    decodeWords labels line = decodeOperands labels opcode line.tail := by
  simp only [decodeWords, h]

private theorem head?_eq_of_ofMnemonic? (h : Opcode.ofMnemonic? (String.ofList (line.headD [])) = some opcode) :
    line.head? = some opcode.mnemonic.toList := by
  have hname := Opcode.ofMnemonic?_eq_some_iff.1 h
  rcases line with _ | ⟨word, rest⟩
  · exact absurd hname (by cases opcode <;> decide)
  · rw [hname, String.toList_ofList]
    rfl

end

/-- A line that does not start with the mnemonic of the chord is accounted for by its warnings: a word that is no
mnemonic gives the one warning that says so, and after a mnemonic there is one warning for a register that the
instruction lacks, one for a target that it lacks, one for the first integer that cannot be read, and no other.  So all
operands of an instruction without warnings are there. -/
theorem decode_accounted (labels : Labels) (line : String)
    (hchord : (Text.words line.toList).head? ≠ some "CHORD".toList) :
    let mnemonic := String.ofList ((Text.words line.toList).headD [])
    let operands := (Text.words line.toList).tail
    let i := (decode labels line).1
    let warnings := (decode labels line).2
    (Opcode.ofMnemonic? mnemonic = none → i = .unknown mnemonic ∧ warnings = [.unknownOpcode mnemonic]) ∧
      ∀ opcode, Opcode.ofMnemonic? mnemonic = some opcode →
        ∃ shape, opcode.shape? = some shape ∧ Accounted labels opcode shape operands i warnings ∧
          (warnings = [] → Complete labels shape operands i) := by
  intro mnemonic operands i warnings
  refine ⟨fun hnone => Prod.mk.inj (decodeWords_of_eq_none hnone), fun opcode hopcode => ?_⟩
  have hknown : decode labels line = decodeOperands labels opcode operands := decodeWords_of_eq_some hopcode
  have hne : opcode ≠ .chord := by
    rintro rfl
    exact hchord (head?_eq_of_ofMnemonic? hopcode)
  obtain ⟨shape, hshape⟩ := Opcode.exists_shape hne
  have haccounted : Accounted labels opcode shape operands i warnings := by
    have h := accounted_decodeOperands labels operands hshape
    rwa [← hknown] at h
  refine ⟨shape, hshape, haccounted, fun hnil => ?_⟩
  rw [hnil] at haccounted
  exact haccounted.complete

/-- A register that does not exist, and no value behind it. -/
theorem decode_accounted_load :
    (Text.words "LOAD R7".toList).head? ≠ some "CHORD".toList ∧
      decode (fun _ => none) "LOAD R7" = (.load none 0, [.register .load "R7", .argument .load 1 ""]) ∧
      Accounted (fun _ => none) .load { register := true, integers := 1 } ["R7".toList] (.load none 0)
        [.register .load "R7", .argument .load 1 ""] := by
  have hchord : (Text.words "LOAD R7".toList).head? ≠ some "CHORD".toList := by decide
  have hdecode : decode (fun _ => none) "LOAD R7" = (.load none 0, [.register .load "R7", .argument .load 1 ""]) := by
    decide
  obtain ⟨shape, hshape, haccounted, -⟩ :=
    (decode_accounted (fun _ => none) "LOAD R7" hchord).2 .load (by decide)
  obtain rfl := Option.some.inj hshape
  rw [hdecode] at haccounted
  exact ⟨hchord, hdecode, haccounted⟩

end Ostinato
