import Mathlib
import Ostinato.Audio.Wave

/-!
# The format of wave files

What a reader finds in a file: three tags, the numbers of the header at their places, and behind the header two bytes
for each sample (`IsWaveFile`).  A file that is not too large is encoded completely and has this format, all its sizes
counted without overflow (`waveBytes_format`).  The format determines the samples and their rate
(`IsWaveFile.unique`), so nothing of them is lost.
-/

namespace Ostinato

/-! ### Reading numbers -/

/-- The number that bytes stand for, the lowest first. -/
def ofLittleEndian : List UInt8 → Nat
  | [] => 0
  | byte :: bytes => byte.toNat + 256 * ofLittleEndian bytes

/-- The signed words of two bytes each, the lower one first, unless a byte is left over. -/
def readSamples? : List UInt8 → Option (List Int16)
  | [] => some []
  | [_] => none
  | low :: high :: bytes =>
    (readSamples? bytes).map ((UInt16.ofNat (ofLittleEndian [low, high])).toInt16 :: ·)

@[simp] theorem length_littleEndian (width : Nat) (word : UInt32) : (littleEndian width word).length = width := by
  induction width generalizing word with
  | zero => rfl
  | succ width ih => simp [littleEndian, ih]

/-- Reading the lower bytes of a word gives the word, as far as so many bytes can hold it. -/
private theorem ofLittleEndian_littleEndian (width : Nat) (word : UInt32) :
    ofLittleEndian (littleEndian width word) = word.toNat % 256 ^ width := by
  induction width generalizing word with
  | zero => simp [littleEndian, ofLittleEndian, Nat.mod_one]
  | succ width ih =>
    have hlow : word.toUInt8.toNat = word.toNat % 256 := UInt32.toNat_toUInt8 word
    have hrest : (word >>> 8).toNat = word.toNat / 256 := by
      rw [UInt32.toNat_shiftRight]
      exact Nat.shiftRight_eq_div_pow word.toNat 8
    rw [littleEndian, ofLittleEndian, ih, hlow, hrest, Nat.pow_succ', Nat.mod_mul]

private theorem ofLittleEndian_word (word : UInt32) : ofLittleEndian (littleEndian 4 word) = word.toNat := by
  rw [ofLittleEndian_littleEndian]
  exact Nat.mod_eq_of_lt word.toNat_lt

/-! ### Reading samples -/

/-- The bytes of a sample. -/
private def sampleBytes (sample : Int16) : List UInt8 :=
  littleEndian 2 sample.toUInt16.toUInt32

private theorem length_flatMap_sampleBytes (samples : List Int16) :
    (samples.flatMap sampleBytes).length = 2 * samples.length := by
  induction samples with
  | nil => rfl
  | cons sample samples ih =>
    rw [List.flatMap_cons, List.length_append, ih, sampleBytes, length_littleEndian, List.length_cons]
    omega

/-- What was written is read again. -/
private theorem readSamples?_flatMap (samples : List Int16) :
    readSamples? (samples.flatMap sampleBytes) = some samples := by
  induction samples with
  | nil => rfl
  | cons sample samples ih =>
    have hword : sample.toUInt16.toUInt32.toNat % 256 ^ 2 = sample.toUInt16.toNat := by
      rw [UInt16.toNat_toUInt32]
      exact Nat.mod_eq_of_lt sample.toUInt16.toNat_lt
    have hread : (UInt16.ofNat (ofLittleEndian (sampleBytes sample))).toInt16 = sample := by
      rw [sampleBytes, ofLittleEndian_littleEndian, hword, UInt16.ofNat_toNat, Int16.toInt16_toUInt16]
    have hcons : readSamples? (sampleBytes sample ++ samples.flatMap sampleBytes) =
        (readSamples? (samples.flatMap sampleBytes)).map
          ((UInt16.ofNat (ofLittleEndian (sampleBytes sample))).toInt16 :: ·) := rfl
    rw [List.flatMap_cons, hcons, ih, hread]
    rfl

/-! ### The format -/

/-- The bytes from an offset on. -/
def bytesAt (bytes : List UInt8) (offset count : Nat) : List UInt8 :=
  (bytes.drop offset).take count

def numberAt (bytes : List UInt8) (offset count : Nat) : Nat :=
  ofLittleEndian (bytesAt bytes offset count)

/-- The bytes at an offset are those of a text. -/
def HasTag (bytes : List UInt8) (offset : Nat) (tag : String) : Prop :=
  bytesAt bytes offset tag.utf8ByteSize = tag.toUTF8.data.toList

/-- The bytes of a file that holds samples of 16 bits, to be played on one channel at the given rate. -/
structure IsWaveFile (bytes : List UInt8) (sampleRate : UInt32) (samples : List Int16) : Prop where
  length_eq : bytes.length = 44 + 2 * samples.length
  riff : HasTag bytes 0 "RIFF"
  /-- The number of bytes behind this number. -/
  riffSize : numberAt bytes 4 4 = bytes.length - 8
  wave : HasTag bytes 8 "WAVE"
  format : HasTag bytes 12 "fmt "
  formatSize : numberAt bytes 16 4 = 16
  /-- The samples are not compressed. -/
  encoding : numberAt bytes 20 2 = 1
  channels : numberAt bytes 22 2 = 1
  rate : numberAt bytes 24 4 = sampleRate.toNat
  bytesPerSecond : numberAt bytes 28 4 = 2 * sampleRate.toNat
  bytesPerBlock : numberAt bytes 32 2 = 2
  bitsPerSample : numberAt bytes 34 2 = 16
  data : HasTag bytes 36 "data"
  dataSize : numberAt bytes 40 4 = 2 * samples.length
  samples_eq : readSamples? (bytes.drop 44) = some samples

/-- The samples and their rate can be read off a file. -/
theorem IsWaveFile.unique {bytes : List UInt8} {sampleRate rate' : UInt32} {samples samples' : List Int16}
    (h : IsWaveFile bytes sampleRate samples) (h' : IsWaveFile bytes rate' samples') :
    samples = samples' ∧ sampleRate = rate' := by
  have hsamples : some samples = some samples' := h.samples_eq.symm.trans h'.samples_eq
  have hrate : sampleRate.toNat = rate'.toNat := h.rate.symm.trans h'.rate
  exact ⟨Option.some.inj hsamples, UInt32.toNat_inj.1 hrate⟩

/-! ### Sizes -/

theorem dataSize?_of_le {count : Nat} (h : count ≤ maxSamples) :
    ∃ dataSize, dataSize? count = some dataSize ∧ dataSize.toNat = 2 * count := by
  have hfits : count * blockAlign.toNat + 36 < UInt32.size := by
    have hmax : maxSamples = 2147483629 := rfl
    show count * 2 + 36 < 4294967296
    omega
  refine ⟨UInt32.ofNat (count * blockAlign.toNat), if_pos hfits, ?_⟩
  rw [UInt32.toNat_ofNat_of_lt' (by omega), Nat.mul_comm]
  rfl

theorem dataSize?_of_lt {count : Nat} (h : maxSamples < count) : dataSize? count = none := by
  have hlong : ¬count * blockAlign.toNat + 36 < UInt32.size := by
    have hmax : maxSamples = 2147483629 := rfl
    show ¬count * 2 + 36 < 4294967296
    omega
  exact if_neg hlong

/-- The size of all that follows the first two parts of a file fits its field. -/
private theorem toNat_riffSize {dataSize : UInt32} {count : Nat} (h : count ≤ maxSamples)
    (hsize : dataSize.toNat = 2 * count) : (36 + dataSize).toNat = 36 + dataSize.toNat := by
  have hmax : maxSamples = 2147483629 := rfl
  rw [UInt32.toNat_add]
  refine Nat.mod_eq_of_lt ?_
  show 36 + dataSize.toNat < 4294967296
  omega

private theorem toNat_byteRate {sampleRate : UInt32} (h : sampleRate.toNat < 2 ^ 31) :
    (sampleRate * blockAlign).toNat = sampleRate.toNat * blockAlign.toNat := by
  rw [UInt32.toNat_mul]
  refine Nat.mod_eq_of_lt ?_
  show sampleRate.toNat * 2 < 4294967296
  omega

/-! ### Writing -/

/-- A writer with unlimited room takes all parts if none is missing. -/
private theorem writeParts_map_some (taken : Array UInt8) (parts : List (List UInt8)) :
    writeParts none taken (parts.map some) = ⟨(taken.toList ++ parts.flatten).toArray, none⟩ := by
  induction parts generalizing taken with
  | nil => simp [writeParts]
  | cons part parts ih => simp [writeParts, ih]

/-- The parts in front of the samples. -/
private def headerParts (dataSize sampleRate : UInt32) : List (List UInt8) :=
  [ascii "RIFF", littleEndian 4 (36 + dataSize), ascii "WAVE",
    ascii "fmt ", littleEndian 4 16, littleEndian 2 1, littleEndian 2 1,
    littleEndian 4 sampleRate, littleEndian 4 (sampleRate * blockAlign),
    littleEndian 2 blockAlign, littleEndian 2 16,
    ascii "data", littleEndian 4 dataSize]

private theorem waveParts_eq {sampleRate : UInt32} (h : sampleRate.toNat < 2 ^ 31) (dataSize : UInt32)
    (samples : List Int16) :
    waveParts dataSize sampleRate samples =
      (headerParts dataSize sampleRate ++ samples.map sampleBytes).map some := by
  have hrate : byteRate? sampleRate = some (sampleRate * blockAlign) := by
    have hfits : sampleRate.toNat * blockAlign.toNat < UInt32.size := by
      show sampleRate.toNat * 2 < 4294967296
      omega
    exact if_pos hfits
  unfold waveParts
  rw [hrate, List.map_append, List.map_map]
  rfl

/-- The header at the front of a file has the format, if its numbers are right. -/
private theorem isWaveFile_append {dataSize sampleRate : UInt32} {samples : List Int16}
    (hsize : dataSize.toNat = 2 * samples.length)
    (hriff : (36 + dataSize).toNat = 36 + 2 * samples.length)
    (hrate : (sampleRate * blockAlign).toNat = 2 * sampleRate.toNat) :
    IsWaveFile ((headerParts dataSize sampleRate).flatten ++ samples.flatMap sampleBytes) sampleRate samples := by
  have hlength : ((headerParts dataSize sampleRate).flatten ++ samples.flatMap sampleBytes).length =
      44 + 2 * samples.length := by
    rw [List.length_append, length_flatMap_sampleBytes]
    rfl
  exact {
    length_eq := hlength
    riff := rfl
    riffSize := by
      rw [hlength]
      exact (ofLittleEndian_word _).trans (by omega)
    wave := rfl
    format := rfl
    formatSize := rfl
    encoding := rfl
    channels := rfl
    rate := ofLittleEndian_word _
    bytesPerSecond := (ofLittleEndian_word _).trans hrate
    bytesPerBlock := rfl
    bitsPerSample := rfl
    data := rfl
    dataSize := (ofLittleEndian_word _).trans hsize
    samples_eq := readSamples?_flatMap samples }

private theorem waveBytes_eq {samples : List Int16} {sampleRate dataSize : UInt32} (hrate : sampleRate.toNat < 2 ^ 31)
    (hsize : dataSize? samples.length = some dataSize) :
    waveBytes samples sampleRate =
      ⟨((headerParts dataSize sampleRate).flatten ++ samples.flatMap sampleBytes).toArray, none⟩ := by
  unfold waveBytes writeWave
  rw [hsize]
  show writeParts none #[] (waveParts dataSize sampleRate samples) = _
  rw [waveParts_eq hrate, writeParts_map_some, List.flatten_append, ← List.flatMap_def]
  rfl

theorem isWaveFile_waveBytes {samples : List Int16} {sampleRate : UInt32} (hcount : samples.length ≤ maxSamples)
    (hrate : sampleRate.toNat < 2 ^ 31) :
    (waveBytes samples sampleRate).failure = none ∧
      IsWaveFile (waveBytes samples sampleRate).taken.toList sampleRate samples := by
  obtain ⟨dataSize, hsome, hsize⟩ := dataSize?_of_le hcount
  rw [waveBytes_eq hrate hsome]
  refine ⟨rfl, isWaveFile_append hsize ?_ ?_⟩
  · rw [toNat_riffSize hcount hsize, hsize]
  · rw [toNat_byteRate hrate, Nat.mul_comm]
    rfl

/-- Samples that are not too many, with a rate that is not too high, are encoded as a file that has the format; no two
such lists with their rates have the same file, and no sum or product of words on the way is too large for a word. -/
theorem waveBytes_format {samples : List Int16} {sampleRate : UInt32} (hcount : samples.length ≤ maxSamples)
    (hrate : sampleRate.toNat < 2 ^ 31) :
    (waveBytes samples sampleRate).failure = none ∧
      IsWaveFile (waveBytes samples sampleRate).taken.toList sampleRate samples ∧
      (∀ (others : List Int16) (otherRate : UInt32), others.length ≤ maxSamples → otherRate.toNat < 2 ^ 31 →
        (waveBytes others otherRate).taken = (waveBytes samples sampleRate).taken →
          others = samples ∧ otherRate = sampleRate) ∧
      ∃ dataSize, dataSize? samples.length = some dataSize ∧ dataSize.toNat = 2 * samples.length ∧
        (36 + dataSize).toNat = 36 + dataSize.toNat ∧
        (sampleRate * blockAlign).toNat = sampleRate.toNat * blockAlign.toNat := by
  obtain ⟨hdone, hfile⟩ := isWaveFile_waveBytes hcount hrate
  obtain ⟨dataSize, hsome, hsize⟩ := dataSize?_of_le hcount
  refine ⟨hdone, hfile, ?_, dataSize, hsome, hsize, toNat_riffSize hcount hsize, toNat_byteRate hrate⟩
  intro others otherRate hothers hother hsame
  have hread := (isWaveFile_waveBytes hothers hother).2
  rw [hsame] at hread
  exact hread.unique hfile

theorem waveBytes_format_extremes :
    [0, -1, Int16.minValue, Int16.maxValue].length ≤ maxSamples ∧ (2147483647 : UInt32).toNat < 2 ^ 31 ∧
      (waveBytes [0, -1, Int16.minValue, Int16.maxValue] 2147483647).taken.toList.drop 44 =
        [0, 0, 255, 255, 0, 128, 255, 127] ∧
      IsWaveFile (waveBytes [0, -1, Int16.minValue, Int16.maxValue] 2147483647).taken.toList 2147483647
        [0, -1, Int16.minValue, Int16.maxValue] := by
  have hcount : [0, -1, Int16.minValue, Int16.maxValue].length ≤ maxSamples := by decide
  have hrate : (2147483647 : UInt32).toNat < 2 ^ 31 := by decide
  exact ⟨hcount, hrate, by decide, (waveBytes_format hcount hrate).2.1⟩

end Ostinato
