import Ostinato.Proofs.Source.Numerals
import Ostinato.Proofs.Text.Cutting
import Ostinato.Source.Decode

/-!
# Operands in decimal

What is written in decimal is a numeral (`isNumeral_decimal`), so it is read back: an integer by `splitInteger?`
(`splitInteger?_decimal`), a signed word by `Operands.int` (`int_decimal`), a list of them by `Operands.ints`
(`ints_decimals`), and pitches with their number in front by `readPitches` (`readPitches_decimals`).
-/

namespace Ostinato

open Text

/-! ### Decimal digits -/

/-- An integer in decimal. -/
def decimal (n : Int) : List Char :=
  (toString n).toList

private theorem decimal_eq (n : Int) :
    decimal n = if n < 0 then '-' :: Nat.toDigits 10 n.natAbs else Nat.toDigits 10 n.natAbs := by
  cases n with
  | ofNat n =>
    have hn : ¬ Int.ofNat n < 0 := Int.not_lt.2 (Int.natCast_nonneg n)
    rw [if_neg hn]
    exact Nat.toList_repr
  | negSucc n =>
    rw [if_pos (Int.negSucc_lt_zero n)]
    show ("-" ++ Nat.repr (n + 1)).toList = _
    rw [String.toList_append, Nat.toList_repr]
    rfl

private theorem isDigit_of_mem_toDigits {n : Nat} {c : Char} (h : c ∈ Nat.toDigits 10 n) : c.isDigit = true :=
  Nat.isDigit_of_mem_toDigits (by decide) (by decide) h

private theorem isPlain_digit : ∀ k < 10, isWhiteSpace (Char.ofNat (48 + k)) = false ∧ Char.ofNat (48 + k) ≠ ';' := by
  decide

private theorem isPlain_toDigits (n : Nat) : IsPlain (Nat.toDigits 10 n) := by
  refine ⟨Nat.toDigits_ne_nil, fun c hc => ?_⟩
  -- a digit is one of ten characters
  obtain ⟨hlow, hhigh⟩ := Char.isDigit_iff_toNat.1 (isDigit_of_mem_toDigits hc)
  have hlow' : 48 ≤ c.toNat := hlow
  have hhigh' : c.toNat ≤ 57 := hhigh
  have h := isPlain_digit (c.toNat - 48) (by omega)
  rwa [Nat.add_sub_cancel' hlow', Char.ofNat_toNat] at h

theorem isPlain_decimal (n : Int) : IsPlain (decimal n) := by
  rw [decimal_eq]
  split
  · exact (isPlain_toDigits _).cons (by decide)
  · exact isPlain_toDigits _

/-! ### Reading an integer back -/

private theorem isDigits_toDigits (n : Nat) : IsDigits (Nat.toDigits 10 n) :=
  ⟨Nat.toDigits_ne_nil, fun _ hc => isDigit_of_mem_toDigits hc⟩

private theorem digitsNumber_toDigits (n : Nat) : digitsNumber (Nat.toDigits 10 n) = n := by
  rw [← digitsValue_eq, digitsValue, ← Nat.ofDigitChars_eq_foldl, Nat.ofDigitChars_ten_toDigits]

theorem isNumeral_decimal (n : Int) : IsNumeral (decimal n) n := by
  rw [decimal_eq]
  split
  · have hnumeral := IsNumeral.minus (isDigits_toDigits n.natAbs)
    have hvalue : -(n.natAbs : Int) = n := by omega
    rwa [digitsNumber_toDigits, hvalue] at hnumeral
  · have hnumeral := IsNumeral.unsigned (isDigits_toDigits n.natAbs)
    have hvalue : (n.natAbs : Int) = n := by omega
    rwa [digitsNumber_toDigits, hvalue] at hnumeral

theorem splitInteger?_decimal (n : Int) : splitInteger? (decimal n) = some (n, []) :=
  splitInteger?_eq_some_iff.2 ⟨decimal n, (List.append_nil _).symm, isNumeral_decimal n, nofun⟩

theorem decimal_injective {m n : Int} (h : decimal m = decimal n) : m = n := by
  have hsplit := congrArg splitInteger? h
  rw [splitInteger?_decimal, splitInteger?_decimal] at hsplit
  exact congrArg Prod.fst (Option.some.inj hsplit)

/-! ### Reading operands back -/

private theorem readInteger?_decimal (value : Int64) : readInteger? (decimal value.toInt) = some (value, []) :=
  readInteger?_eq_some_iff.2 (splitInteger?_decimal value.toInt)

/-- Signed words in decimal, one word each. -/
def decimals (values : List Int64) : List (List Char) :=
  values.map fun value => decimal value.toInt

section Readers

variable {unread : List (List Char)} {position : Nat}

@[simp] theorem int_decimal (value : Int64) :
    Operands.int ⟨decimal value.toInt :: unread, position, none⟩ = (value, ⟨unread, position + 1, none⟩) := by
  simp [Operands.int, readInteger?_decimal]

theorem ints_decimals (values : List Int64) :
    Operands.ints values.length ⟨decimals values ++ unread, position, none⟩ =
      (values, ⟨unread, position + values.length, none⟩) := by
  induction values generalizing position with
  | nil => rfl
  | cons value values ih =>
    have htail := @ih (position + 1)
    have hhead := @int_decimal (decimals values ++ unread) position value
    rw [decimals, List.map_cons, List.cons_append, ← decimals, List.length_cons, Operands.ints]
    simp only [hhead, htail]
    rw [Nat.add_right_comm, Nat.add_assoc]

/-- The number of pitches is an operand itself, so it has to fit a signed word. -/
theorem readPitches_decimals {pitches : List Int64} (h : pitches.length < 2 ^ 63) :
    readPitches ⟨decimal pitches.length :: (decimals pitches ++ unread), position, none⟩ =
      (pitches, ⟨unread, position + 1 + pitches.length, none⟩) := by
  have hcount : (Int64.ofNat pitches.length).toInt = pitches.length := Int64.toInt_ofNat_of_lt h
  have havailable : min pitches.length (decimals pitches ++ unread).length = pitches.length := by
    rw [List.length_append, decimals, List.length_map]
    omega
  have hread := @int_decimal (decimals pitches ++ unread) position (Int64.ofNat pitches.length)
  rw [hcount] at hread
  rw [readPitches, hread]
  simp only [hcount, Int.toNat_natCast, Operands.remaining, havailable, ints_decimals, Nat.lt_irrefl, if_false]

end Readers

end Ostinato
