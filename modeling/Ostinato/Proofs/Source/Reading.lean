import Ostinato.Proofs.Source.Chords
import Ostinato.Proofs.Source.Numerals

/-!
# Reading operands

Whatever integers and words are asked for, and in whatever order, nothing is lost and nothing made up: as long as no
read has failed, the fragments that were taken and the parts that are still unread spell the operands
(`Operands.serveAll_accounted`).  An integer cannot be read only if none stands at the front of what is unread or if it
does not fit a signed word, and after that nothing changes any more.

* `Operands.serve`, `Operands.serveAll`: answers to queries, which ask for integers and words.
* `Takes`: the reads that succeed, by what they take from the unread parts; `Transcript`: one after the other.
* `Unreadable`: parts that no integer can be read from.
* `spell`: what fragments and unread parts are put together to.
-/

namespace Ostinato

/-! ### Queries -/

/-- What is asked of operands. -/
inductive Query where
  | integer
  | word

inductive Answer where
  | integer (value : Int64)
  | word (word : Option (List Char))
deriving DecidableEq

/-- The answer when nothing can be read any more. -/
def Query.blank : Query → Answer
  | integer => .integer 0
  | word => .word none

namespace Operands

/-- The answer to a query, and the operands after it. -/
def serve (args : Operands) : Query → Answer × Operands
  | .integer => (.integer args.int.1, args.int.2)
  | .word => (.word args.word.1, args.word.2)

/-- The answers to queries that are made one after the other, and the operands after them. -/
def serveAll (args : Operands) : List Query → List Answer × Operands
  | [] => ([], args)
  | query :: later =>
    let (answer, args) := args.serve query
    let (answers, args) := args.serveAll later
    (answer :: answers, args)

end Operands

/-! ### Fragments of words -/

/-- A fragment of a word that is taken at once. -/
structure Fragment where
  text : List Char
  /-- Whether the word ends with it. -/
  isLast : Bool

/-- The words that fragments and the parts behind them are put together to. -/
def spell : List Fragment → List (List Char) → List (List Char)
  | [], parts => parts
  | ⟨text, true⟩ :: fragments, parts => text :: spell fragments parts
  | ⟨text, false⟩ :: fragments, parts => (text ++ (spell fragments parts).headD []) :: (spell fragments parts).tail

/-- The reads that succeed: what is asked for and answered, the fragment that is taken for it, and the unread parts
before and after.  No word is found when nothing is unread. -/
inductive Takes : Query → Answer → Option Fragment → List (List Char) → List (List Char) → Prop
  | integer {numeral rest : List Char} {value : Int64} {parts : List (List Char)}
      (h : IsNumeral numeral value.toInt) (hrest : EndsDigits rest) (hne : rest ≠ []) :
      Takes .integer (.integer value) (some ⟨numeral, false⟩) ((numeral ++ rest) :: parts) (rest :: parts)
  | lastInteger {numeral : List Char} {value : Int64} {parts : List (List Char)} (h : IsNumeral numeral value.toInt) :
      Takes .integer (.integer value) (some ⟨numeral, true⟩) (numeral :: parts) parts
  | word {part : List Char} {parts : List (List Char)} :
      Takes .word (.word (some part)) (some ⟨part, true⟩) (part :: parts) parts
  | noWord : Takes .word (.word none) none [] []

/-- Reads that succeed one after the other, with the fragments that they take. -/
inductive Transcript :
    List Query → List Answer → List Fragment → List (List Char) → List (List Char) → Prop
  | nil {parts : List (List Char)} : Transcript [] [] [] parts parts
  | cons {query : Query} {answer : Answer} {fragment : Option Fragment} {queries : List Query}
      {answers : List Answer} {fragments : List Fragment} {parts parts' parts'' : List (List Char)}
      (h : Takes query answer fragment parts parts') (hlater : Transcript queries answers fragments parts' parts'') :
      Transcript (query :: queries) (answer :: answers) (fragment.toList ++ fragments) parts parts''

/-- No integer can be read from the unread parts: there is none, or the first one does not start with a numeral, or its
longest numeral does not fit a signed word. -/
inductive Unreadable : List (List Char) → Prop
  | missing : Unreadable []
  | noNumeral {part : List Char} {parts : List (List Char)}
      (h : ∀ numeral value rest, IsNumeral numeral value → part ≠ numeral ++ rest) : Unreadable (part :: parts)
  | tooLarge {numeral rest : List Char} {value : ℤ} {parts : List (List Char)} (h : IsNumeral numeral value)
      (hrest : EndsDigits rest) (hvalue : ¬ IsInt64 value) : Unreadable ((numeral ++ rest) :: parts)

/-! ### Reads that succeed -/

section

variable {query : Query} {answer : Answer} {fragment : Option Fragment} {queries : List Query}
  {answers : List Answer} {fragments : List Fragment} {parts parts' parts'' : List (List Char)}

/-- What is taken is put in front of what is put together behind it. -/
private theorem Takes.spell_eq (h : Takes query answer fragment parts parts')
    (hlater : spell fragments parts'' = parts') : spell (fragment.toList ++ fragments) parts'' = parts := by
  cases h with
  | integer => simp [spell, hlater]
  | lastInteger => simp [spell, hlater]
  | word => simp [spell, hlater]
  | noWord => exact hlater

/-- A part is used up exactly by a fragment that its word ends with. -/
private theorem Takes.length_eq (h : Takes query answer fragment parts parts') :
    fragment.toList.countP (·.isLast) + parts'.length = parts.length := by
  cases h with
  | integer => exact Nat.zero_add _
  | lastInteger => exact Nat.add_comm _ _
  | word => exact Nat.add_comm _ _
  | noWord => exact Nat.zero_add _

private theorem Transcript.spell_eq (h : Transcript queries answers fragments parts parts') :
    spell fragments parts' = parts := by
  induction h with
  | nil => rfl
  | cons h _ ih => exact h.spell_eq ih

private theorem Transcript.length_eq (h : Transcript queries answers fragments parts parts') :
    fragments.countP (·.isLast) + parts'.length = parts.length := by
  induction h with
  | nil => exact Nat.zero_add _
  | cons h _ ih => rw [List.countP_append, Nat.add_assoc, ih, h.length_eq]

end

namespace Operands

variable {args : Operands} {part : List Char} {parts : List (List Char)}

/-! ### Single reads -/

private theorem unreadable_cons_iff : Unreadable (part :: parts) ↔ readInteger? part = none := by
  rw [readInteger?_eq_none_iff]
  constructor
  · rintro (_ | hnever | ⟨hnumeral, hrest, hvalue⟩) n rest hfound
    · rw [splitInteger?_eq_none_iff.2 hnever] at hfound
      cases hfound
    · rw [splitInteger?_of_isNumeral hnumeral hrest] at hfound
      obtain ⟨rfl, -⟩ := Prod.mk.inj (Option.some.inj hfound)
      exact hvalue
  · intro hfound
    cases hsplit : splitInteger? part with
    | none => exact .noNumeral (splitInteger?_eq_none_iff.1 hsplit)
    | some found =>
      obtain ⟨n, rest⟩ := found
      obtain ⟨numeral, rfl, hnumeral, hrest⟩ := splitInteger?_eq_some_iff.1 hsplit
      exact .tooLarge hnumeral hrest (hfound n rest hsplit)

/-- Where no integer can be read, the read gives zero, and what it has found is kept with the number of reads before
it. -/
private theorem int_of_unreadable (hargs : args.failure = none) (h : Unreadable args.unread) :
    args.int = (0, args.fail (args.unread.headD []) args.unread.tail) := by
  obtain ⟨unread, position, failure⟩ := args
  obtain rfl : failure = none := hargs
  cases unread with
  | nil => rfl
  | cons part parts => simp [int, unreadable_cons_iff.1 h]

/-- Where an integer can be read, the longest numeral is taken from the front. -/
private theorem exists_takes_int (hargs : args.failure = none) (h : ¬ Unreadable args.unread) :
    ∃ value fragment parts, args.int = (value, ⟨parts, args.position + 1, none⟩) ∧
      Takes .integer (.integer value) fragment args.unread parts := by
  obtain ⟨unread, position, failure⟩ := args
  obtain rfl : failure = none := hargs
  cases unread with
  | nil => exact absurd .missing h
  | cons part parts =>
    obtain ⟨⟨value, rest⟩, hread⟩ := Option.ne_none_iff_exists'.1 (mt unreadable_cons_iff.2 h)
    obtain ⟨numeral, rfl, hnumeral, hrest⟩ := splitInteger?_eq_some_iff.1 (readInteger?_eq_some_iff.1 hread)
    rcases eq_or_ne rest [] with rfl | hne
    · rw [List.append_nil] at hread ⊢
      exact ⟨value, _, parts, by simp [int, hread], .lastInteger hnumeral⟩
    · exact ⟨value, _, rest :: parts, by simp [int, hread, hne], .integer hnumeral hrest hne⟩

private theorem exists_takes_word (hargs : args.failure = none) :
    ∃ word fragment parts, args.word = (word, ⟨parts, args.position + 1, none⟩) ∧
      Takes .word (.word word) fragment args.unread parts := by
  obtain ⟨unread, position, failure⟩ := args
  obtain rfl : failure = none := hargs
  cases unread with
  | nil => exact ⟨none, none, [], rfl, .noWord⟩
  | cons part parts => exact ⟨some part, _, parts, rfl, .word⟩

private theorem word_of_failure (h : args.failure.isSome = true) : args.word = (none, args) :=
  if_pos h

private theorem serve_of_failure (h : args.failure.isSome = true) (query : Query) :
    args.serve query = (query.blank, args) := by
  cases query with
  | integer => simp only [serve, int_of_failure h, Query.blank]
  | word => simp only [serve, word_of_failure h, Query.blank]

/-- An integer cannot be read exactly where none stands at the front that fits. -/
private theorem failure_int_ne_none_iff (hargs : args.failure = none) :
    args.int.2.failure ≠ none ↔ Unreadable args.unread := by
  by_cases h : Unreadable args.unread
  · rw [int_of_unreadable hargs h]
    exact iff_of_true (Option.some_ne_none _) h
  · obtain ⟨value, fragment, parts, hint, -⟩ := exists_takes_int hargs h
    rw [hint]
    exact iff_of_false (fun hne => hne rfl) h

/-- A read that does not fail takes something from the front, and is counted. -/
private theorem exists_takes_serve {query : Query} (h : (args.serve query).2.failure = none) :
    ∃ fragment, Takes query (args.serve query).1 fragment args.unread (args.serve query).2.unread ∧
      (args.serve query).2.position = args.position + 1 := by
  have hargs : args.failure = none := by
    by_contra hfailure
    rw [serve_of_failure (Option.isSome_iff_ne_none.2 hfailure)] at h
    exact hfailure h
  cases query with
  | integer =>
    by_cases hunread : Unreadable args.unread
    · exact absurd h ((failure_int_ne_none_iff hargs).2 hunread)
    · obtain ⟨value, fragment, parts, hint, htakes⟩ := exists_takes_int hargs hunread
      have hserve : args.serve .integer = (.integer value, ⟨parts, args.position + 1, none⟩) := by
        simp only [serve, hint]
      rw [hserve]
      exact ⟨fragment, htakes, rfl⟩
  | word =>
    obtain ⟨word, fragment, parts, hword, htakes⟩ := exists_takes_word hargs
    have hserve : args.serve .word = (.word word, ⟨parts, args.position + 1, none⟩) := by
      simp only [serve, hword]
    rw [hserve]
    exact ⟨fragment, htakes, rfl⟩

/-! ### Reads one after the other -/

private theorem serveAll_of_failure (h : args.failure.isSome = true) (queries : List Query) :
    args.serveAll queries = (queries.map Query.blank, args) := by
  induction queries with
  | nil => rfl
  | cons query later ih => simp only [serveAll, serve_of_failure h, ih, List.map_cons]

private theorem exists_transcript {queries : List Query} (h : (args.serveAll queries).2.failure = none) :
    ∃ fragments,
      Transcript queries (args.serveAll queries).1 fragments args.unread (args.serveAll queries).2.unread ∧
        (args.serveAll queries).2.position = args.position + queries.length := by
  induction queries generalizing args with
  | nil => exact ⟨[], .nil, rfl⟩
  | cons query later ih =>
    have hserve : (args.serve query).2.failure = none := by
      by_contra hfailure
      simp only [serveAll, serveAll_of_failure (Option.isSome_iff_ne_none.2 hfailure)] at h
      exact hfailure h
    obtain ⟨fragment, htakes, hposition⟩ := exists_takes_serve hserve
    obtain ⟨fragments, htranscript, hlater⟩ := ih h
    refine ⟨fragment.toList ++ fragments, .cons htakes htranscript, ?_⟩
    rw [List.length_cons, Nat.add_comm later.length, ← Nat.add_assoc, ← hposition]
    exact hlater

/-- As long as no read has failed, each integer was the longest numeral at the front of what was unread and each word
all of the first unread part, and with the parts that are still unread the fragments spell the operands.  The next
integer cannot be read only if none that fits stands at the front; what stands there is kept then, with the number of
reads before it, and from then on all integers are zero, no words are found, and nothing changes. -/
theorem serveAll_accounted (operands : List (List Char)) (queries : List Query) :
    let start : Operands := { unread := operands }
    let answers := (start.serveAll queries).1
    let args := (start.serveAll queries).2
    (args.failure = none →
      (∃ fragments, Transcript queries answers fragments operands args.unread ∧
        spell fragments args.unread = operands ∧ fragments.countP (·.isLast) + args.remaining = operands.length) ∧
      args.word.2.failure = none ∧
      (args.int.2.failure ≠ none ↔ Unreadable args.unread) ∧
      ∀ failure, args.int.2.failure = some failure →
        args.int.1 = 0 ∧ failure = ⟨queries.length, args.unread.headD []⟩) ∧
    (args.failure ≠ none → ∀ later, args.serveAll later = (later.map Query.blank, args)) := by
  intro start answers args
  refine ⟨fun hargs => ?_, fun hfailure => serveAll_of_failure (Option.isSome_iff_ne_none.2 hfailure)⟩
  obtain ⟨fragments, htranscript, hposition⟩ := exists_transcript hargs
  have hspelled := htranscript.spell_eq
  refine ⟨⟨fragments, htranscript, hspelled, htranscript.length_eq⟩, ?_, failure_int_ne_none_iff hargs, ?_⟩
  · obtain ⟨word, fragment, parts, hword, -⟩ := exists_takes_word hargs
    rw [hword]
  · intro failure hfailure
    have hunreadable := (failure_int_ne_none_iff hargs).1 (hfailure ▸ Option.some_ne_none _)
    rw [int_of_unreadable hargs hunreadable] at hfailure ⊢
    refine ⟨rfl, (Option.some.inj hfailure).symm.trans ?_⟩
    rw [hposition, Nat.zero_add]

/-- Two integers and a word share an operand, and the operand behind it is no integer. -/
theorem serveAll_accounted_sharedWord :
    let start : Operands := { unread := ["60-5.".toList, "R1".toList] }
    let args := (start.serveAll [.integer, .integer, .word]).2
    start.serveAll [.integer, .integer, .word] =
        ([.integer 60, .integer (-5), .word (some ".".toList)], ⟨["R1".toList], 3, none⟩) ∧
      (∃ fragments, Transcript [.integer, .integer, .word] [.integer 60, .integer (-5), .word (some ".".toList)]
        fragments ["60-5.".toList, "R1".toList] ["R1".toList]) ∧
      args.int = (0, ⟨[], 4, some ⟨3, "R1".toList⟩⟩) ∧
      args.int.2.serveAll [.integer, .word] = ([.integer 0, .word none], args.int.2) := by
  have hserve : ({ unread := ["60-5.".toList, "R1".toList] } : Operands).serveAll [.integer, .integer, .word] =
      ([.integer 60, .integer (-5), .word (some ".".toList)], ⟨["R1".toList], 3, none⟩) := by
    decide
  obtain ⟨hsucceeding, -⟩ := serveAll_accounted ["60-5.".toList, "R1".toList] [.integer, .integer, .word]
  obtain ⟨-, hfailed⟩ := serveAll_accounted ["60-5.".toList, "R1".toList] [.integer, .integer, .word, .integer]
  rw [hserve] at hsucceeding
  obtain ⟨⟨fragments, htranscript, -⟩, -⟩ := hsucceeding rfl
  exact ⟨hserve, ⟨fragments, htranscript⟩, by decide, hfailed (by decide) [.integer, .word]⟩

end Operands

end Ostinato
