import DeltaLang.Proofs.Text.Utf8
import DeltaLang.Yaml.Input

namespace DeltaLang.Yaml

namespace Encoding

/-- The leading byte of a character tells how many bytes it has. -/
theorem utf8Size_encoded {c : Char} {lead : UInt8} {tail : List UInt8}
    (bytes : String.utf8EncodeChar c = lead :: tail) :
    utf8Size lead = tail.length + 1 ∧ (tail = [] → lead.toNat < 128) := by
  have valid : c.val.toNat < 0xD800 ∨ 0xDFFF < c.val.toNat ∧ c.val.toNat < 0x110000 := c.valid
  simp only [String.utf8EncodeChar] at bytes
  generalize c.val.toNat = v at valid bytes
  simp only [utf8Size, UInt8.lt_iff_toNat_lt, UInt8.reduceToNat]
  split at bytes
  · cases bytes
    rw [Utf8.toNat_ofNat_byte (by omega)]
    exact ⟨if_pos (by omega), fun _ => by omega⟩
  · split at bytes
    · cases bytes
      rw [Utf8.toNat_ofNat_byte (by omega)]
      refine ⟨?_, by simp⟩
      rw [if_neg (by omega), if_pos (by omega)]
      rfl
    · split at bytes
      · cases bytes
        rw [Utf8.toNat_ofNat_byte (by omega)]
        refine ⟨?_, by simp⟩
        rw [if_neg (by omega), if_neg (by omega), if_pos (by omega)]
        rfl
      · cases bytes
        rw [Utf8.toNat_ofNat_byte (by omega)]
        refine ⟨?_, by simp⟩
        rw [if_neg (by omega), if_neg (by omega), if_neg (by omega), if_pos (by omega)]
        rfl

theorem utf8Front_encoded (c : Char) (rest : List UInt8) :
    ∃ lead tail, String.utf8EncodeChar c = lead :: tail ∧
      front .utf8 lead (tail ++ rest) = (tail.length + 1, some c) := by
  obtain ⟨lead, tail, bytes, first⟩ := Utf8.front_encoded c rest
  obtain ⟨size, single⟩ := utf8Size_encoded bytes
  refine ⟨lead, tail, bytes, ?_⟩
  have paired : (tail.length + 1 == 1 && decide (0x80 ≤ lead)) = false := by
    rw [Bool.and_eq_false_iff]
    by_cases empty : tail = []
    · right
      have low := single empty
      rw [decide_eq_false_iff_not, UInt8.le_iff_toNat_le]
      exact Nat.not_le.mpr low
    · left
      have filled := List.length_pos_iff.mpr empty
      rw [beq_eq_false_iff_ne]
      omega
  simp only [front, utf8Front, first, size, paired]
  simp

/-- A byte of ASCII is no part of a byte order mark. -/
theorem ofMark_ascii {lead : UInt8} (low : lead.toNat < 128) (rest : List UInt8) :
    ofMark (lead :: rest) = (.utf8, 0) := by
  unfold ofMark
  split <;> simp_all

end Encoding

namespace Input

/-- However much room is left, allowed characters are all read. -/
theorem read_encode {text : List Char} (allowed : ∀ c ∈ text, isAllowed c = true) (room : Nat)
    (blocks : List (List Char)) (block : List Char) :
    ∃ all, read .utf8 room blocks block (text.flatMap String.utf8EncodeChar) = ⟨all, true⟩ ∧
      all.flatten = blocks.flatten ++ block ++ text := by
  induction text generalizing room blocks block with
  | nil => exact ⟨blocks ++ [block], by rw [List.flatMap_nil, read], by simp⟩
  | cons c rest ih =>
    have here := allowed c List.mem_cons_self
    have later := ih fun d member => allowed d (List.mem_cons_of_mem _ member)
    obtain ⟨lead, tail, bytes, first⟩ :=
      Encoding.utf8Front_encoded c (rest.flatMap String.utf8EncodeChar)
    rw [List.flatMap_cons, bytes, List.cons_append, read, first]
    simp only [Option.filter_some, here, ↓reduceIte, Nat.add_sub_cancel, List.drop_left]
    split
    · obtain ⟨all, same, content⟩ := later (room - (tail.length + 1)) blocks (block ++ [c])
      exact ⟨all, same, by simp [content]⟩
    · obtain ⟨all, same, content⟩ := later (blockSize - (tail.length + 1)) (blocks ++ [block]) [c]
      exact ⟨all, same, by simp [content]⟩

/-- Line ends that are in their common form stay as they are. -/
theorem normalize_eq_self {text : List Char} (common : ∀ c ∈ text, c ≠ '\r' ∧ c ≠ '\u0085') :
    normalize text = text := by
  induction text with
  | nil => rfl
  | cons c rest ih =>
    obtain ⟨noReturn, noNextLine⟩ := common c List.mem_cons_self
    have later := ih fun d member => common d (List.mem_cons_of_mem _ member)
    unfold normalize
    split
    · next shape =>
      cases shape
      exact absurd rfl noReturn
    · next shape =>
      cases shape
      simp [noReturn, noNextLine, later]
    · next shape => cases shape

/-- A text that is read as a whole and without effects of its first block. -/
structure Reads (input : Input) (text : List Char) : Prop where
  text : input.text = text
  whole : input.limit? = none
  unmarked : input.marked = 0

theorem reads_encode {c : Char} {rest : List Char} (ascii : c.toNat < 128)
    (allowed : ∀ d ∈ c :: rest, isAllowed d = true)
    (common : ∀ d ∈ c :: rest, d ≠ '\r' ∧ d ≠ '\u0085') :
    Reads (ofBytes (Utf8.encode (String.ofList (c :: rest)))) (c :: rest) := by
  obtain ⟨all, same, content⟩ := read_encode allowed blockSize [] []
  have joined : all.flatten = c :: rest := by simpa using content
  have single : String.utf8EncodeChar c = [UInt8.ofNat c.toNat] := by
    simp only [String.utf8EncodeChar]
    exact if_pos (show c.toNat ≤ 127 by omega)
  have low : (UInt8.ofNat c.toNat).toNat < 128 := by
    rw [Utf8.toNat_ofNat_byte (by omega)]
    exact ascii
  have bytes : ofBytes (Utf8.encode (String.ofList (c :: rest))) = ⟨all, true⟩ := by
    rw [Utf8.encode, String.toList_ofList, ofBytes]
    rw [List.flatMap_cons, single] at same ⊢
    rw [List.singleton_append, Encoding.ofMark_ascii low]
    exact same
  rw [bytes]
  refine ⟨?_, rfl, ?_⟩
  · rw [text, joined, normalize_eq_self common]
  · unfold marked
    cases all with
    | nil => rfl
    | cons first others =>
      cases first with
      | nil => rfl
      | cons d others' =>
        obtain rfl : d = c := (List.cons.inj joined).1
        have noMark : d ≠ byteOrderMark := by
          rintro rfl
          exact absurd ascii (by decide)
        exact if_neg noMark

end Input

end DeltaLang.Yaml
