import DeltaLang.Proofs.Text.Utf8
import Mathlib.Data.List.Basic

namespace DeltaLang.Utf8

/-- The text consists of so many characters. A byte at which no character is encoded is one of
them. -/
inductive Counts : List UInt8 → Nat → Prop
  | nil : Counts [] 0
  | encoded {rest : List UInt8} {n : Nat} (c : Char) (others : Counts rest n) :
      Counts (String.utf8EncodeChar c ++ rest) (n + 1)
  | malformed {b : UInt8} {rest : List UInt8} {n : Nat}
      (alone : ∀ c, ¬String.utf8EncodeChar c <+: b :: rest) (others : Counts rest n) :
      Counts (b :: rest) (n + 1)

section Encoding

variable {lead b c d : UInt8} {v : Nat}

theorem toNat_ofNat_char (valid : v < 0xD800 ∨ 0xDFFF < v ∧ v < 0x110000) :
    (Char.ofNat v).val.toNat = v := by
  rw [Char.ofNat, dif_pos valid]
  rfl

theorem byte_ofNat (same : v = b.toNat) : UInt8.ofNat v = b := by
  rw [same, UInt8.ofNat_toNat]

/-- Which bytes announce a sequence of which length. -/
theorem announced_bounds (lead : UInt8) :
    (announced lead = 1 → lead.toNat < 128) ∧
      (announced lead = 2 → 194 ≤ lead.toNat ∧ lead.toNat < 224) ∧
      (announced lead = 3 → 224 ≤ lead.toNat ∧ lead.toNat < 240) ∧
      (announced lead = 4 → 240 ≤ lead.toNat ∧ lead.toNat < 245) := by
  rw [announced_eq]
  repeat' split
  all_goals refine ⟨?_, ?_, ?_, ?_⟩ <;> intro size <;> omega

theorem encoding_one (size : announced lead = 1) :
    String.utf8EncodeChar (Char.ofNat lead.toNat) = [lead] := by
  have range := (announced_bounds lead).1 size
  simp only [String.utf8EncodeChar, toNat_ofNat_char (v := lead.toNat) (by omega)]
  rw [if_pos (by omega), UInt8.ofNat_toNat]

theorem encoding_two (size : announced lead = 2) (second : isSecond lead b = true) :
    String.utf8EncodeChar (Char.ofNat (lead.toNat % 32 * 64 + payload b)) = [lead, b] := by
  have range := (announced_bounds lead).2.1 size
  have follows := isSecond_iff.mp second
  simp only [payload]
  generalize value : lead.toNat % 32 * 64 + b.toNat % 64 = v
  have bounds : 128 ≤ v ∧ v ≤ 2047 := by omega
  simp only [String.utf8EncodeChar, toNat_ofNat_char (v := v) (by omega)]
  rw [if_neg (by omega), if_pos (by omega), byte_ofNat (b := lead) (by omega),
    byte_ofNat (b := b) (by omega)]

theorem encoding_three (size : announced lead = 3) (second : isSecond lead b = true)
    (third : isTail c = true) :
    String.utf8EncodeChar
        (Char.ofNat ((lead.toNat % 16 * 64 + payload b) * 64 + payload c)) = [lead, b, c] := by
  have range := (announced_bounds lead).2.2.1 size
  have follows := isSecond_iff.mp second
  have ends := isTail_iff.mp third
  simp only [payload]
  generalize value : (lead.toNat % 16 * 64 + b.toNat % 64) * 64 + c.toNat % 64 = v
  have bounds : 2048 ≤ v ∧ v ≤ 65535 ∧ (v < 0xD800 ∨ 0xDFFF < v) := by omega
  simp only [String.utf8EncodeChar, toNat_ofNat_char (v := v) (by omega)]
  rw [if_neg (by omega), if_neg (by omega), if_pos (by omega), byte_ofNat (b := lead) (by omega),
    byte_ofNat (b := b) (by omega), byte_ofNat (b := c) (by omega)]

theorem encoding_four (size : announced lead = 4) (second : isSecond lead b = true)
    (third : isTail c = true) (fourth : isTail d = true) :
    String.utf8EncodeChar
        (Char.ofNat (((lead.toNat % 8 * 64 + payload b) * 64 + payload c) * 64 + payload d)) =
      [lead, b, c, d] := by
  have range := (announced_bounds lead).2.2.2 size
  have follows := isSecond_iff.mp second
  have goesOn := isTail_iff.mp third
  have ends := isTail_iff.mp fourth
  simp only [payload]
  generalize value :
    ((lead.toNat % 8 * 64 + b.toNat % 64) * 64 + c.toNat % 64) * 64 + d.toNat % 64 = v
  have bounds : 65536 ≤ v ∧ v < 0x110000 := by omega
  simp only [String.utf8EncodeChar, toNat_ofNat_char (v := v) (by omega)]
  rw [if_neg (by omega), if_neg (by omega), if_neg (by omega), byte_ofNat (b := lead) (by omega),
    byte_ofNat (b := b) (by omega), byte_ofNat (b := c) (by omega), byte_ofNat (b := d) (by omega)]

end Encoding

section Front

variable {lead : UInt8} {rest : List UInt8}

/-- What is no malformed byte is the encoding of the character that is found. -/
theorem encoding_of_front (found : front lead rest ≠ (replacement, 1)) :
    String.utf8EncodeChar (front lead rest).1 ++ rest.drop ((front lead rest).2 - 1) =
      lead :: rest := by
  unfold front at found ⊢
  split at found
  · next size => rw [encoding_one size]; rfl
  · next b after size =>
    split at found
    · next second => rw [if_pos second, encoding_two size second]; rfl
    · exact absurd rfl found
  · next b c after size =>
    split at found
    · next both =>
      obtain ⟨second, third⟩ := Bool.and_eq_true_iff.mp both
      rw [if_pos both, encoding_three size second third]
      rfl
    · exact absurd rfl found
  · next b c d after size =>
    split at found
    · next all =>
      obtain ⟨front, fourth⟩ := Bool.and_eq_true_iff.mp all
      obtain ⟨second, third⟩ := Bool.and_eq_true_iff.mp front
      rw [if_pos all, encoding_four size second third fourth]
      rfl
    · exact absurd rfl found
  · exact absurd rfl found

/-- A character that is encoded at the front of a text is found there. -/
theorem front_of_encoding {c : Char} (encoded : String.utf8EncodeChar c <+: lead :: rest) :
    front lead rest = (c, (String.utf8EncodeChar c).length) := by
  obtain ⟨after, shape⟩ := encoded
  obtain ⟨first, tail, bytes, found⟩ := front_encoded c after
  rw [bytes, List.cons_append, List.cons.injEq] at shape
  obtain ⟨rfl, rfl⟩ := shape
  rw [bytes, found, List.length_cons]

theorem malformed_iff :
    front lead rest = (replacement, 1) ↔ ∀ c, ¬String.utf8EncodeChar c <+: lead :: rest := by
  constructor
  · intro malformed c encoded
    have found := front_of_encoding encoded
    rw [malformed] at found
    obtain ⟨rfl, length⟩ := Prod.mk.inj found
    exact absurd length (by decide)
  · intro alone
    by_contra found
    exact alone _ ⟨_, encoding_of_front found⟩

/-- The decoder does not look behind a character that it has found. -/
theorem front_append {inside behind : List UInt8}
    (within : (front lead (inside ++ behind)).2 ≤ inside.length + 1) :
    front lead (inside ++ behind) = front lead inside := by
  by_cases malformed : front lead (inside ++ behind) = (replacement, 1)
  · have alone : front lead inside = (replacement, 1) := by
      rw [malformed_iff] at malformed ⊢
      intro c encoded
      exact malformed c (encoded.trans (List.prefix_append (lead :: inside) behind))
    rw [malformed, alone]
  · have encoded : String.utf8EncodeChar (front lead (inside ++ behind)).1 <+:
        lead :: inside ++ behind := ⟨_, encoding_of_front malformed⟩
    have found : front lead (inside ++ behind) = _ := front_of_encoding encoded
    have length : (front lead (inside ++ behind)).2 =
        (String.utf8EncodeChar (front lead (inside ++ behind)).1).length := congrArg Prod.snd found
    have fits : String.utf8EncodeChar (front lead (inside ++ behind)).1 <+: lead :: inside := by
      apply List.prefix_of_prefix_length_le encoded (List.prefix_append _ behind)
      rw [List.length_cons, ← length]
      exact within
    rw [front_of_encoding fits]
    exact found

end Front

section Decoding

/-- The decoder finds the characters of a text. -/
theorem counts_iff {bytes : List UInt8} {n : Nat} : Counts bytes n ↔ n = (decode bytes).length := by
  constructor
  · intro counts
    induction counts with
    | nil => rw [decode, List.length_nil]
    | encoded c others ih => rw [decode_encoded, List.length_cons, ih]
    | malformed alone others ih =>
      rw [decode, malformed_iff.mpr alone, List.length_cons, ih, Nat.sub_self, List.drop_zero]
  · rintro rfl
    fun_induction decode bytes with
    | case1 => exact .nil
    | case2 lead rest ih =>
      rw [List.length_cons]
      by_cases malformed : front lead rest = (replacement, 1)
      · rw [malformed, Nat.sub_self, List.drop_zero] at ih ⊢
        exact .malformed (malformed_iff.mp malformed) ih
      · have counts := Counts.encoded (front lead rest).1 ih
        rw [encoding_of_front malformed] at counts
        exact counts

/-- A byte beyond ASCII is not on both sides of the place between two texts, so that no character
reaches from one into the other. -/
def Apart (front back : List UInt8) : Prop :=
  (∀ b ∈ front.getLast?, b.toNat < 128) ∨ ∀ b ∈ back.head?, b.toNat < 128

theorem Apart.suffix {short front back : List UInt8} (suffix : short <:+ front)
    (apart : Apart front back) : Apart short back := by
  rcases apart with inFront | inBack
  · left
    intro b last
    obtain ⟨before, rfl⟩ := suffix
    apply inFront b
    rw [List.getLast?_append, Option.mem_def.mp last]
    rfl
  · exact .inr inBack

theorem Apart.initial {front short back : List UInt8} (begins : short <+: back)
    (apart : Apart front back) : Apart front short := by
  rcases apart with inFront | inBack
  · exact .inl inFront
  · right
    intro b first
    apply inBack b
    obtain ⟨after, rfl⟩ := begins
    rw [List.head?_append, Option.mem_def.mp first]
    rfl

theorem apart_of_ascii {front text : List UInt8} (filled : text ≠ [])
    (ascii : ∀ b ∈ text, b.toNat < 128) (back : List UInt8) : Apart (front ++ text) back := by
  left
  intro b last
  apply ascii b
  rw [Option.mem_def, List.getLast?_append_of_ne_nil _ filled] at last
  exact List.mem_of_getLast? last

theorem decode_length {text : List UInt8} (ascii : ∀ b ∈ text, b.toNat < 128) :
    (decode text).length = text.length := by
  rw [decode_ascii ascii, List.length_map]

theorem front_ascii {lead : UInt8} (small : lead.toNat < 128) (rest : List UInt8) :
    front lead rest = (Char.ofNat lead.toNat, 1) := by
  have first := front_one rest (show lead.toNat ≤ 127 by omega)
  rwa [UInt8.ofNat_toNat] at first

/-- No character reaches over the place between texts that are apart, for it would have bytes beyond
ASCII on both sides. -/
theorem front_within {lead : UInt8} {rest back : List UInt8} (apart : Apart (lead :: rest) back) :
    (front lead (rest ++ back)).2 ≤ rest.length + 1 := by
  by_contra beyond
  have bound := front_size_le lead (rest ++ back)
  have high := front_tail_high lead (rest ++ back)
  rw [List.length_append] at bound
  rcases apart with inFront | inBack
  · cases shape : rest.getLast? with
    | none =>
      rw [List.getLast?_eq_none_iff] at shape
      subst shape
      have small : lead.toNat < 128 := inFront lead rfl
      rw [front_ascii small] at beyond
      simp at beyond
    | some b =>
      have small : b.toNat < 128 := by
        apply inFront b
        rw [List.getLast?_cons, shape]
        rfl
      have inside : b ∈ (rest ++ back).take ((front lead (rest ++ back)).2 - 1) := by
        rw [List.take_append, List.take_of_length_le (by omega)]
        exact List.mem_append_left _ (List.mem_of_getLast? shape)
      have large := high b inside
      omega
  · cases back with
    | nil =>
      rw [List.length_nil] at bound
      omega
    | cons b others =>
      have small : b.toNat < 128 := inBack b rfl
      have inside : b ∈ (rest ++ b :: others).take ((front lead (rest ++ b :: others)).2 - 1) := by
        rw [List.take_append]
        apply List.mem_append_right
        cases count : (front lead (rest ++ b :: others)).2 - 1 - rest.length with
        | zero => omega
        | succ n => exact List.mem_cons_self
      have large := high b inside
      omega

theorem decode_append {front back : List UInt8} (apart : Apart front back) :
    decode (front ++ back) = decode front ++ decode back := by
  fun_induction decode front with
  | case1 => rfl
  | case2 lead rest ih =>
    have same := front_append (front_within apart)
    have bound := front_size_le lead rest
    have shorter := (List.drop_suffix ((Utf8.front lead rest).2 - 1) rest).trans
      (List.suffix_cons lead rest)
    have others := ih (apart.suffix shorter)
    rw [List.cons_append, decode, same, List.drop_append_of_le_length (by omega), others,
      List.cons_append]

end Decoding

end DeltaLang.Utf8
