import Mathlib
import Ostinato.Text.Blank

/-!
# Texts as bytes

The bytes of a text in UTF-8 (`bytes`) are those of its characters one after the other, so that positions of bytes
are sums over the characters in front (`byteCount`).  A byte below 128 stands only for the character with that number
(`count_utf8`), and every byte belongs to one character (`exists_eq_append_of_lt`).
-/

namespace Ostinato.Text

/-! ### Sizes -/

theorem byteCount_append (text rest : List Char) : byteCount (text ++ rest) = byteCount text + byteCount rest := by
  induction text with
  | nil => simp [byteCount]
  | cons c text ih => rw [List.cons_append, byteCount, byteCount, ih, Nat.add_assoc]

/-- The bytes of characters in UTF-8. -/
def utf8 (text : List Char) : List UInt8 :=
  text.flatMap String.utf8EncodeChar

@[simp] theorem utf8_nil : utf8 [] = [] := rfl

@[simp] theorem utf8_cons (c : Char) (text : List Char) : utf8 (c :: text) = String.utf8EncodeChar c ++ utf8 text :=
  List.flatMap_cons

@[simp] theorem utf8_append (text rest : List Char) : utf8 (text ++ rest) = utf8 text ++ utf8 rest :=
  List.flatMap_append

@[simp] theorem length_utf8 (text : List Char) : (utf8 text).length = byteCount text := by
  induction text with
  | nil => rfl
  | cons c text ih => rw [utf8_cons, List.length_append, String.length_utf8EncodeChar, ih, byteCount]

/-- The bytes of a text in UTF-8. -/
def bytes (source : String) : List UInt8 :=
  source.toByteArray.data.toList

theorem bytes_eq (source : String) : bytes source = utf8 source.toList := by
  rw [bytes, ← String.utf8Encode_toList]
  exact List.toList_data_toByteArray

theorem utf8ByteSize_eq (source : String) : source.utf8ByteSize = byteCount source.toList := by
  rw [← length_utf8, ← bytes_eq]
  rfl

/-! ### Characters below 128 -/

section Ascii

variable {a : Char}

private theorem utf8EncodeChar_of_lt (ha : a.toNat < 128) : String.utf8EncodeChar a = [a.toUInt8] := by
  have hsize : a.utf8Size = 1 := Char.utf8Size_eq_one_iff.2 (UInt32.le_iff_toNat_le.2 (Nat.le_of_lt_succ ha))
  exact String.utf8EncodeChar_eq_singleton hsize

/-- The bytes of the characters from 128 on are at least 128. -/
private theorem le_of_mem_utf8EncodeChar {c : Char} (hc : 128 ≤ c.toNat) {b : UInt8}
    (hb : b ∈ String.utf8EncodeChar c) : 128 ≤ b.toNat := by
  have hlow : ¬ c.val.toNat ≤ 0x7f := Nat.not_le.2 hc
  rw [String.utf8EncodeChar] at hb
  simp only [if_neg hlow] at hb
  split at hb
  · simp only [List.mem_cons, List.not_mem_nil, or_false] at hb
    rcases hb with rfl | rfl <;> rw [UInt8.toNat_ofNat'] <;> omega
  · split at hb
    · simp only [List.mem_cons, List.not_mem_nil, or_false] at hb
      rcases hb with rfl | rfl | rfl <;> rw [UInt8.toNat_ofNat'] <;> omega
    · simp only [List.mem_cons, List.not_mem_nil, or_false] at hb
      rcases hb with rfl | rfl | rfl | rfl <;> rw [UInt8.toNat_ofNat'] <;> omega

private theorem toNat_toUInt8 (ha : a.toNat < 128) : a.toUInt8.toNat = a.toNat := by
  show a.val.toNat % 256 = a.val.toNat
  have : a.val.toNat < 128 := ha
  omega

private theorem toUInt8_inj {c : Char} (ha : a.toNat < 128) (hc : c.toNat < 128) : c.toUInt8 = a.toUInt8 ↔ c = a := by
  refine ⟨fun h => ?_, fun h => h ▸ rfl⟩
  have hnat := congrArg UInt8.toNat h
  rw [toNat_toUInt8 ha, toNat_toUInt8 hc] at hnat
  exact Char.ext (UInt32.toNat_inj.1 hnat)

private theorem count_utf8EncodeChar (ha : a.toNat < 128) (c : Char) :
    (String.utf8EncodeChar c).count a.toUInt8 = if c = a then 1 else 0 := by
  by_cases hc : c.toNat < 128
  · rw [utf8EncodeChar_of_lt hc, List.count_singleton]
    simp only [beq_iff_eq, toUInt8_inj ha hc]
  · have hne : c ≠ a := by
      rintro rfl
      exact hc ha
    rw [if_neg hne]
    refine List.count_eq_zero_of_not_mem fun hmem => ?_
    have hle := le_of_mem_utf8EncodeChar (Nat.le_of_not_lt hc) hmem
    rw [toNat_toUInt8 ha] at hle
    omega

/-- A byte below 128 stands for the character with that number and for no part of another one. -/
theorem count_utf8 (ha : a.toNat < 128) (text : List Char) : (utf8 text).count a.toUInt8 = text.count a := by
  induction text with
  | nil => rfl
  | cons c text ih =>
    rw [utf8_cons, List.count_append, count_utf8EncodeChar ha, ih, List.count_cons, Nat.add_comm]
    simp only [beq_iff_eq]

theorem mem_utf8_iff (ha : a.toNat < 128) (text : List Char) : a.toUInt8 ∈ utf8 text ↔ a ∈ text := by
  rw [← List.count_pos_iff, count_utf8 ha, List.count_pos_iff]

theorem getElem?_utf8 (ha : a.toNat < 128) (text rest : List Char) :
    (utf8 (text ++ a :: rest))[byteCount text]? = some a.toUInt8 := by
  rw [utf8_append, utf8_cons, utf8EncodeChar_of_lt ha, ← length_utf8, List.getElem?_append_right (Nat.le_refl _),
    Nat.sub_self]
  rfl

end Ascii

/-! ### Positions -/

/-- Every byte of a text belongs to one of its characters. -/
theorem exists_eq_append_of_lt {text : List Char} {i : Nat} (h : i < byteCount text) :
    ∃ front c back, text = front ++ c :: back ∧ byteCount front ≤ i ∧ i < byteCount front + c.utf8Size := by
  induction text generalizing i with
  | nil => exact absurd h (Nat.not_lt_zero i)
  | cons c text ih =>
    rw [byteCount] at h
    by_cases hi : i < c.utf8Size
    · exact ⟨[], c, text, rfl, Nat.zero_le i, by rwa [byteCount, Nat.zero_add]⟩
    · obtain ⟨front, d, back, rfl, hle, hlt⟩ := @ih (i - c.utf8Size) (by omega)
      refine ⟨c :: front, d, back, rfl, ?_, ?_⟩ <;> rw [byteCount] <;> omega

section Position

variable {source : String} {front middle back : List Char}

/-- Where characters start or end is a position of the text. -/
theorem isValid_byteCount (h : source.toList = front ++ back) :
    (⟨byteCount front⟩ : String.Pos.Raw).IsValid source := by
  rw [String.Pos.Raw.isValid_iff_exists_append]
  refine ⟨String.ofList front, String.ofList back, ?_, ?_⟩
  · rw [← String.ofList_append, ← h, String.ofList_toList]
  · rw [String.Pos.Raw.ext_iff, String.byteIdx_rawEndPos, utf8ByteSize_eq, String.toList_ofList]

theorem extract_bytes (h : source.toList = front ++ (middle ++ back)) :
    (bytes source).extract (byteCount front) (byteCount front + byteCount middle) = utf8 middle := by
  rw [bytes_eq, h, utf8_append, utf8_append, List.extract_eq_take_drop, ← length_utf8, ← length_utf8,
    List.drop_left, Nat.add_sub_cancel_left, List.take_left]

theorem take_bytes (h : source.toList = front ++ back) : (bytes source).take (byteCount front) = utf8 front := by
  rw [bytes_eq, h, utf8_append, ← length_utf8, List.take_left]

/-- A character below 128 that does not occur in a part of a text has no byte there. -/
theorem getElem?_bytes_ne {a : Char} (ha : a.toNat < 128) (h : source.toList = front ++ (middle ++ back))
    (hmem : a ∉ middle) {k : Nat} (hfront : byteCount front ≤ k) (hback : k < byteCount front + byteCount middle) :
    (bytes source)[k]? ≠ some a.toUInt8 := by
  rw [bytes_eq, h, utf8_append, utf8_append]
  intro hget
  rw [List.getElem?_append_right (by rw [length_utf8]; exact hfront), length_utf8,
    List.getElem?_append_left (by rw [length_utf8]; omega)] at hget
  exact hmem ((mem_utf8_iff ha middle).1 (List.mem_of_getElem? hget))

end Position

end Ostinato.Text
