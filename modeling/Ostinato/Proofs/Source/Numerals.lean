import Mathlib
import Ostinato.Source.Operands

/-!
# Numerals

A numeral is a number of digits with a sign in front of them or without one.  A reader takes the longest numeral that a
word starts with, and fails only if no numeral stands there or if its value does not fit a signed word.

* `IsNumeral`: numerals and the integers that they stand for.
* `splitInteger?_eq_some_iff`, `splitInteger?_eq_none_iff`: the integer at the start of a word.
* `readInteger?_eq_some_iff`, `readInteger?_eq_none_iff`: the same for signed words.
-/

namespace Ostinato

/-! ### Digits -/

/-- One digit or more. -/
def IsDigits (digits : List Char) : Prop :=
  digits ≠ [] ∧ ∀ c ∈ digits, c.isDigit = true

/-- A text that does not go on with a digit. -/
def EndsDigits (rest : List Char) : Prop :=
  ∀ c ∈ rest.head?, c.isDigit = false

/-- The number that digits stand for, the last of them being the one of the units. -/
def digitsNumber (digits : List Char) : ℕ :=
  Nat.ofDigits 10 (digits.reverse.map fun digit => digit.toNat - '0'.toNat)

theorem digitsValue_eq (digits : List Char) : digitsValue digits = digitsNumber digits := by
  rw [digitsNumber, Nat.ofDigits_eq_foldr, List.foldr_map, List.foldr_reverse, digitsValue]
  congr 1
  funext value digit
  exact Nat.add_comm _ _

private theorem isDigits_takeWhile {text : List Char} (h : (text.takeWhile Char.isDigit).isEmpty = false) :
    IsDigits (text.takeWhile Char.isDigit) :=
  ⟨by simpa using h, fun _ hc => List.mem_takeWhile_imp hc⟩

private theorem endsDigits_dropWhile (text : List Char) : EndsDigits (text.dropWhile Char.isDigit) := by
  intro c hc
  have hnot := List.head?_dropWhile_not Char.isDigit text
  rw [Option.mem_def.1 hc] at hnot
  simpa using hnot

/-- Digits are found again in front of what does not go on with a digit. -/
private theorem takeWhile_digits_append {digits rest : List Char} (h : ∀ c ∈ digits, c.isDigit = true)
    (hrest : EndsDigits rest) :
    (digits ++ rest).takeWhile Char.isDigit = digits ∧ (digits ++ rest).dropWhile Char.isDigit = rest := by
  have hstop : rest.takeWhile Char.isDigit = [] ∧ rest.dropWhile Char.isDigit = rest := by
    cases rest with
    | nil => exact ⟨rfl, rfl⟩
    | cons c rest => simp [hrest c rfl]
  rw [List.takeWhile_append_of_pos h, List.dropWhile_append_of_pos h, hstop.1, hstop.2, List.append_nil]
  exact ⟨rfl, rfl⟩

/-! ### Signs -/

private theorem splitSign_cases (word : List Char) :
    (∃ rest, word = '+' :: rest ∧ splitSign word = (false, rest)) ∨
      (∃ rest, word = '-' :: rest ∧ splitSign word = (true, rest)) ∨ splitSign word = (false, word) := by
  unfold splitSign
  split
  · exact .inl ⟨_, rfl, rfl⟩
  · exact .inr (.inl ⟨_, rfl, rfl⟩)
  · exact .inr (.inr rfl)

/-- A digit is no sign. -/
private theorem splitSign_of_isDigit {c : Char} (h : c.isDigit = true) (rest : List Char) :
    splitSign (c :: rest) = (false, c :: rest) := by
  rcases splitSign_cases (c :: rest) with ⟨_, heq, -⟩ | ⟨_, heq, -⟩ | hsign
  · rw [(List.cons.inj heq).1] at h
    cases h
  · rw [(List.cons.inj heq).1] at h
    cases h
  · exact hsign

/-! ### Numerals -/

/-- Digits with a sign in front of them or without one, and the integer that they stand for. -/
inductive IsNumeral : List Char → ℤ → Prop
  | unsigned {digits : List Char} (h : IsDigits digits) : IsNumeral digits (digitsNumber digits)
  | plus {digits : List Char} (h : IsDigits digits) : IsNumeral ('+' :: digits) (digitsNumber digits)
  | minus {digits : List Char} (h : IsDigits digits) : IsNumeral ('-' :: digits) (-digitsNumber digits)

section

variable {numeral word rest digits : List Char} {value : ℤ}

/-- A numeral can be continued by digits. -/
private theorem IsNumeral.append_digits (h : IsNumeral numeral value) {more : List Char}
    (hmore : ∀ c ∈ more, c.isDigit = true) : ∃ value', IsNumeral (numeral ++ more) value' := by
  have hdigits : ∀ {digits}, IsDigits digits → IsDigits (digits ++ more) := fun h =>
    ⟨List.append_ne_nil_of_left_ne_nil h.1 more, fun c hc => (List.mem_append.1 hc).elim (h.2 c) (hmore c)⟩
  cases h with
  | unsigned h => exact ⟨_, .unsigned (hdigits h)⟩
  | plus h => exact ⟨_, .plus (hdigits h)⟩
  | minus h => exact ⟨_, .minus (hdigits h)⟩

private theorem splitInteger?_of_splitSign {negative : Bool} (hsign : splitSign word = (negative, digits ++ rest))
    (h : IsDigits digits) (hrest : EndsDigits rest) :
    splitInteger? word = some (if negative then -(digitsNumber digits : ℤ) else digitsNumber digits, rest) := by
  obtain ⟨htake, hdrop⟩ := takeWhile_digits_append h.2 hrest
  have hne : digits.isEmpty = false := by simpa using h.1
  rw [splitInteger?, hsign]
  simp only [htake, hdrop, hne, digitsValue_eq]
  rfl

private theorem exists_of_splitInteger? (h : splitInteger? word = some (value, rest)) :
    ∃ negative digits, splitSign word = (negative, digits ++ rest) ∧ IsDigits digits ∧ EndsDigits rest ∧
      value = if negative then -(digitsNumber digits : ℤ) else digitsNumber digits := by
  rcases hsign : splitSign word with ⟨negative, tail⟩
  rw [splitInteger?, hsign] at h
  simp only [digitsValue_eq] at h
  split at h
  · cases h
  · rename_i hne
    obtain ⟨rfl, rfl⟩ := Prod.mk.inj (Option.some.inj h)
    refine ⟨negative, tail.takeWhile Char.isDigit, ?_, isDigits_takeWhile (by simpa using hne),
      endsDigits_dropWhile tail, rfl⟩
    rw [List.takeWhile_append_dropWhile]

/-- A numeral is found at the start of a word if no digit stands behind it. -/
theorem splitInteger?_of_isNumeral (h : IsNumeral numeral value) (hrest : EndsDigits rest) :
    splitInteger? (numeral ++ rest) = some (value, rest) := by
  cases h with
  | unsigned h =>
    obtain ⟨c, digits, rfl⟩ := List.exists_cons_of_ne_nil h.1
    exact splitInteger?_of_splitSign (splitSign_of_isDigit (h.2 c List.mem_cons_self) _) h hrest
  | @plus digits h =>
    have hsign : splitSign ('+' :: digits ++ rest) = (false, digits ++ rest) := rfl
    exact splitInteger?_of_splitSign hsign h hrest
  | @minus digits h =>
    have hsign : splitSign ('-' :: digits ++ rest) = (true, digits ++ rest) := rfl
    exact splitInteger?_of_splitSign hsign h hrest

/-- What is found at the start of a word is the longest numeral that stands there. -/
theorem splitInteger?_eq_some_iff :
    splitInteger? word = some (value, rest) ↔
      ∃ numeral, word = numeral ++ rest ∧ IsNumeral numeral value ∧ EndsDigits rest := by
  constructor
  · intro h
    obtain ⟨negative, digits, hsign, hdigits, hrest, rfl⟩ := exists_of_splitInteger? h
    rcases splitSign_cases word with ⟨_, rfl, heq⟩ | ⟨_, rfl, heq⟩ | heq <;>
      obtain ⟨rfl, rfl⟩ := Prod.mk.inj (heq.symm.trans hsign)
    · exact ⟨_, rfl, .plus hdigits, hrest⟩
    · exact ⟨_, rfl, .minus hdigits, hrest⟩
    · exact ⟨_, rfl, .unsigned hdigits, hrest⟩
  · rintro ⟨numeral, rfl, hnumeral, hrest⟩
    exact splitInteger?_of_isNumeral hnumeral hrest

/-- Nothing is found only if no numeral stands at the start of the word. -/
theorem splitInteger?_eq_none_iff :
    splitInteger? word = none ↔ ∀ numeral value rest, IsNumeral numeral value → word ≠ numeral ++ rest := by
  constructor
  · rintro hnone numeral value rest hnumeral rfl
    -- with the digits behind it, the numeral is one that is found
    obtain ⟨longest, hlongest⟩ := hnumeral.append_digits fun _ hc => List.mem_takeWhile_imp (l := rest) hc
    have hfound := splitInteger?_of_isNumeral hlongest (endsDigits_dropWhile rest)
    rw [List.append_assoc, List.takeWhile_append_dropWhile, hnone] at hfound
    cases hfound
  · intro hnever
    refine Option.eq_none_iff_forall_ne_some.2 fun ⟨value, rest⟩ hfound => ?_
    obtain ⟨numeral, hword, hnumeral, -⟩ := splitInteger?_eq_some_iff.1 hfound
    exact hnever numeral value rest hnumeral hword

end

/-! ### Signed words -/

/-- Whether an integer fits a signed word. -/
def IsInt64 (n : ℤ) : Prop :=
  -2 ^ 63 ≤ n ∧ n < 2 ^ 63

instance (n : ℤ) : Decidable (IsInt64 n) :=
  inferInstanceAs (Decidable (_ ∧ _))

private theorem isInt64_toInt (value : Int64) : IsInt64 value.toInt :=
  ⟨value.le_toInt, value.toInt_lt⟩

section

variable {word rest : List Char} {n : ℤ} {value : Int64}

private theorem int64?_eq (n : ℤ) : int64? n = if IsInt64 n then some (Int64.ofInt n) else none := by
  have hrange : (Int64.minValue.toInt ≤ n ∧ n ≤ Int64.maxValue.toInt) ↔ IsInt64 n := by
    rw [Int64.toInt_minValue, Int64.toInt_maxValue, IsInt64]
    omega
  rw [int64?]
  exact if_congr hrange rfl rfl

private theorem int64?_eq_some_iff : int64? n = some value ↔ value.toInt = n := by
  rw [int64?_eq]
  constructor
  · intro h
    split at h
    · rename_i hfits
      rw [← Option.some.inj h]
      exact Int64.toInt_ofInt_of_le hfits.1 hfits.2
    · cases h
  · rintro rfl
    rw [if_pos (isInt64_toInt value), Int64.ofInt_toInt]

private theorem readInteger?_eq (word : List Char) :
    readInteger? word = (splitInteger? word).bind fun found => (int64? found.1).map (·, found.2) := by
  rcases h : splitInteger? word with _ | ⟨n, rest⟩
  · simp [readInteger?, h]
  · cases hvalue : int64? n <;> simp [readInteger?, h, hvalue]

theorem readInteger?_eq_some_iff :
    readInteger? word = some (value, rest) ↔ splitInteger? word = some (value.toInt, rest) := by
  rw [readInteger?_eq, Option.bind_eq_some_iff]
  constructor
  · rintro ⟨⟨n, tail⟩, hfound, hread⟩
    obtain ⟨value', hvalue, heq⟩ := Option.map_eq_some_iff.1 hread
    obtain ⟨rfl, rfl⟩ := Prod.mk.inj heq
    rw [hfound, int64?_eq_some_iff.1 hvalue]
  · intro hfound
    exact ⟨_, hfound, by rw [int64?_eq_some_iff.2 rfl, Option.map_some]⟩

/-- A word cannot be read if nothing is found at its start, or a number that does not fit. -/
theorem readInteger?_eq_none_iff :
    readInteger? word = none ↔ ∀ n rest, splitInteger? word = some (n, rest) → ¬ IsInt64 n := by
  rw [readInteger?_eq, Option.bind_eq_none_iff, Prod.forall]
  simp only [Option.map_eq_none_iff, int64?_eq, ite_eq_right_iff, reduceCtorEq, imp_false]

end

end Ostinato
