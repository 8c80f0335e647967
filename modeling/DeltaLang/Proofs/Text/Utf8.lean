import DeltaLang.Text.Utf8

namespace DeltaLang.Utf8

/-- The letters of ASCII by their numbers. -/
theorem isAlpha_iff {c : Char} : c.isAlpha = true ↔
    65 ≤ c.val.toNat ∧ c.val.toNat ≤ 90 ∨ 97 ≤ c.val.toNat ∧ c.val.toNat ≤ 122 := by
  have upper : c.isUpper = decide ('A'.val ≤ c.val ∧ c.val ≤ 'Z'.val) := rfl
  have lower : c.isLower = (decide ('a'.val ≤ c.val) && decide (c.val ≤ 'z'.val)) := rfl
  have letter : c.isAlpha = (c.isUpper || c.isLower) := rfl
  rw [letter, upper, lower]
  simp only [Bool.or_eq_true, Bool.and_eq_true, decide_eq_true_eq, UInt32.le_iff_toNat_le]
  rfl

theorem toNat_range (c : Char) : c.toNat < 0xD800 ∨ 0xE000 ≤ c.toNat ∧ c.toNat < 0x110000 := by
  rcases c.valid with low | ⟨above, below⟩
  · exact .inl low
  · exact .inr ⟨above, below⟩

theorem isTail_iff {b : UInt8} : isTail b = true ↔ 128 ≤ b.toNat ∧ b.toNat ≤ 191 := by
  simp [isTail, UInt8.le_iff_toNat_le]

theorem isSecond_iff {lead b : UInt8} : isSecond lead b = true ↔
    128 ≤ b.toNat ∧ b.toNat ≤ 191 ∧ (lead.toNat = 224 → 160 ≤ b.toNat) ∧
      (lead.toNat = 237 → b.toNat ≤ 159) ∧ (lead.toNat = 240 → 144 ≤ b.toNat) ∧
      (lead.toNat = 244 → b.toNat ≤ 143) := by
  simp only [isSecond, isTail, UInt8.le_iff_toNat_le, ← UInt8.toNat_inj, UInt8.reduceToNat]
  grind

theorem announced_eq (lead : UInt8) : announced lead =
    if lead.toNat < 128 then 1 else if lead.toNat < 194 then 0 else if lead.toNat < 224 then 2
    else if lead.toNat < 240 then 3 else if lead.toNat < 245 then 4 else 0 := by
  simp only [announced, UInt8.lt_iff_toNat_lt, UInt8.reduceToNat]

theorem toNat_ofNat_byte {n : Nat} (small : n < 256) : (UInt8.ofNat n).toNat = n := by
  rw [UInt8.toNat_ofNat']
  omega

section Front

variable {v : Nat} (rest : List UInt8)

theorem front_one (high : v ≤ 127) : front (UInt8.ofNat v) rest = (Char.ofNat v, 1) := by
  have lead := toNat_ofNat_byte (n := v) (by omega)
  have size : announced (UInt8.ofNat v) = 1 := by
    rw [announced_eq, lead, if_pos (by omega)]
  simp only [front, size, lead]

theorem front_two (low : 128 ≤ v) (high : v ≤ 2047) :
    front (UInt8.ofNat (v / 64 % 32 + 192)) (UInt8.ofNat (v % 64 + 128) :: rest) =
      (Char.ofNat v, 2) := by
  have lead := toNat_ofNat_byte (n := v / 64 % 32 + 192) (by omega)
  have second := toNat_ofNat_byte (n := v % 64 + 128) (by omega)
  have size : announced (UInt8.ofNat (v / 64 % 32 + 192)) = 2 := by
    rw [announced_eq, lead]
    repeat' split
    all_goals omega
  have fits : isSecond (UInt8.ofNat (v / 64 % 32 + 192)) (UInt8.ofNat (v % 64 + 128)) = true := by
    rw [isSecond_iff, lead, second]
    omega
  have value : (v / 64 % 32 + 192) % 32 * 64 + (v % 64 + 128) % 64 = v := by omega
  simp only [front, size, fits, payload, lead, second, value, if_true]

theorem front_three (low : 2048 ≤ v) (high : v ≤ 65535) (valid : v < 0xD800 ∨ 0xDFFF < v) :
    front (UInt8.ofNat (v / 4096 % 16 + 224))
        (UInt8.ofNat (v / 64 % 64 + 128) :: UInt8.ofNat (v % 64 + 128) :: rest) =
      (Char.ofNat v, 3) := by
  have lead := toNat_ofNat_byte (n := v / 4096 % 16 + 224) (by omega)
  have second := toNat_ofNat_byte (n := v / 64 % 64 + 128) (by omega)
  have third := toNat_ofNat_byte (n := v % 64 + 128) (by omega)
  have size : announced (UInt8.ofNat (v / 4096 % 16 + 224)) = 3 := by
    rw [announced_eq, lead]
    repeat' split
    all_goals omega
  have fits : isSecond (UInt8.ofNat (v / 4096 % 16 + 224)) (UInt8.ofNat (v / 64 % 64 + 128)) =
      true := by
    rw [isSecond_iff, lead, second]
    omega
  have follows : isTail (UInt8.ofNat (v % 64 + 128)) = true := by
    rw [isTail_iff, third]
    omega
  have value : ((v / 4096 % 16 + 224) % 16 * 64 + (v / 64 % 64 + 128) % 64) * 64 +
      (v % 64 + 128) % 64 = v := by omega
  simp only [front, size, fits, follows, payload, lead, second, third, value, Bool.and_self,
    if_true]

theorem front_four (low : 65536 ≤ v) (high : v < 0x110000) :
    front (UInt8.ofNat (v / 262144 % 8 + 240))
        (UInt8.ofNat (v / 4096 % 64 + 128) :: UInt8.ofNat (v / 64 % 64 + 128) ::
          UInt8.ofNat (v % 64 + 128) :: rest) =
      (Char.ofNat v, 4) := by
  have lead := toNat_ofNat_byte (n := v / 262144 % 8 + 240) (by omega)
  have second := toNat_ofNat_byte (n := v / 4096 % 64 + 128) (by omega)
  have third := toNat_ofNat_byte (n := v / 64 % 64 + 128) (by omega)
  have fourth := toNat_ofNat_byte (n := v % 64 + 128) (by omega)
  have size : announced (UInt8.ofNat (v / 262144 % 8 + 240)) = 4 := by
    rw [announced_eq, lead]
    repeat' split
    all_goals omega
  have fits : isSecond (UInt8.ofNat (v / 262144 % 8 + 240)) (UInt8.ofNat (v / 4096 % 64 + 128)) =
      true := by
    rw [isSecond_iff, lead, second]
    omega
  have follows : isTail (UInt8.ofNat (v / 64 % 64 + 128)) = true := by
    rw [isTail_iff, third]
    omega
  have ends : isTail (UInt8.ofNat (v % 64 + 128)) = true := by
    rw [isTail_iff, fourth]
    omega
  have value : (((v / 262144 % 8 + 240) % 8 * 64 + (v / 4096 % 64 + 128) % 64) * 64 +
      (v / 64 % 64 + 128) % 64) * 64 + (v % 64 + 128) % 64 = v := by omega
  simp only [front, size, fits, follows, ends, payload, lead, second, third, fourth, value,
    Bool.and_self, if_true]

end Front

/-- A character is at the front of its encoding, whatever follows. -/
theorem front_encoded (c : Char) (rest : List UInt8) :
    ∃ lead tail, String.utf8EncodeChar c = lead :: tail ∧
      front lead (tail ++ rest) = (c, tail.length + 1) := by
  have valid : c.val.toNat < 0xD800 ∨ 0xDFFF < c.val.toNat ∧ c.val.toNat < 0x110000 :=
    toNat_range c
  have back : Char.ofNat c.val.toNat = c := Char.ofNat_toNat c
  simp only [String.utf8EncodeChar]
  generalize c.val.toNat = v at valid back
  rw [← back]
  split
  · exact ⟨_, [], rfl, front_one rest (by omega)⟩
  · split
    · exact ⟨_, [_], rfl, front_two rest (by omega) (by omega)⟩
    · split
      · exact ⟨_, [_, _], rfl, front_three rest (by omega) (by omega) (by omega)⟩
      · exact ⟨_, [_, _, _], rfl, front_four rest (by omega) (by omega)⟩

theorem decode_encoded (c : Char) (rest : List UInt8) :
    decode (String.utf8EncodeChar c ++ rest) = c :: decode rest := by
  obtain ⟨lead, tail, bytes, first⟩ := front_encoded c rest
  rw [bytes, List.cons_append, decode, first, Nat.add_sub_cancel, List.drop_left]

theorem decode_encode (s : String) : decode (encode s) = s.toList := by
  rw [encode]
  induction s.toList with
  | nil => rw [List.flatMap_nil, decode]
  | cons c text ih => rw [List.flatMap_cons, decode_encoded, ih]

theorem toString_encode (s : String) : toString (encode s) = s := by
  rw [toString, decode_encode, String.ofList_toList]

theorem encode_inj {s t : String} (same : encode s = encode t) : s = t := by
  rw [← toString_encode s, same, toString_encode]

/-- A text in ASCII has one byte for each character. -/
theorem map_encode_ascii {text : String} (ascii : ∀ c ∈ text.toList, c.val.toNat < 128) :
    (encode text).map Char.ofUInt8 = text.toList := by
  rw [encode]
  generalize text.toList = characters at ascii
  induction characters with
  | nil => rfl
  | cons c rest ih =>
    have small := ascii c List.mem_cons_self
    have later := ih fun d member => ascii d (List.mem_cons_of_mem _ member)
    have single : String.utf8EncodeChar c = [UInt8.ofNat c.val.toNat] := by
      simp only [String.utf8EncodeChar]
      rw [if_pos (by omega)]
    have same : Char.ofUInt8 (UInt8.ofNat c.val.toNat) = c := by
      apply Char.ext
      rw [← UInt32.toNat_inj]
      exact (UInt8.toNat_toUInt32 _).trans (toNat_ofNat_byte (by omega))
    rw [List.flatMap_cons, single, List.map_append, later, List.map_singleton, same]
    rfl

/-- A text in ASCII has one character for each byte. -/
theorem decode_ascii {bytes : List UInt8} (ascii : ∀ b ∈ bytes, b.toNat < 128) :
    decode bytes = bytes.map Char.ofUInt8 := by
  induction bytes with
  | nil => rw [decode, List.map_nil]
  | cons b rest ih =>
    have small := ascii b List.mem_cons_self
    have later := ih fun c member => ascii c (List.mem_cons_of_mem _ member)
    have first := front_one rest (show b.toNat ≤ 127 by omega)
    rw [UInt8.ofNat_toNat] at first
    have same : Char.ofNat b.toNat = Char.ofUInt8 b := Char.ofNat_toNat (Char.ofUInt8 b)
    rw [decode, first, same, List.map_cons]
    exact congrArg _ later

theorem encode_toString_ascii {bytes : List UInt8} (ascii : ∀ b ∈ bytes, b.toNat < 128) :
    encode (toString bytes) = bytes := by
  rw [encode, toString, decode_ascii ascii, String.toList_ofList, List.flatMap_map]
  induction bytes with
  | nil => rfl
  | cons b rest ih =>
    have small := ascii b List.mem_cons_self
    have later := ih fun c member => ascii c (List.mem_cons_of_mem _ member)
    have single : String.utf8EncodeChar (Char.ofUInt8 b) = [b] := by
      have value : (Char.ofUInt8 b).val.toNat = b.toNat := UInt8.toNat_toUInt32 b
      simp only [String.utf8EncodeChar, value]
      rw [if_pos (by omega), UInt8.ofNat_toNat]
    rw [List.flatMap_cons, single, later]
    rfl

/-- The bytes of a character behind its first are beyond ASCII. -/
theorem front_tail_high (lead : UInt8) (rest : List UInt8) :
    ∀ b ∈ rest.take ((front lead rest).2 - 1), 128 ≤ b.toNat := by
  intro b member
  unfold front at member
  split at member
  · simp at member
  · split at member
    · next second =>
      rw [isSecond_iff] at second
      simp only [Nat.reduceSub, List.take_succ_cons, List.take_zero, List.mem_singleton] at member
      rw [member]
      exact second.1
    · simp at member
  · split at member
    · next both =>
      rw [Bool.and_eq_true, isSecond_iff, isTail_iff] at both
      simp only [Nat.reduceSub, List.take_succ_cons, List.take_zero, List.mem_cons,
        List.not_mem_nil, or_false] at member
      rcases member with rfl | rfl
      · exact both.1.1
      · exact both.2.1
    · simp at member
  · split at member
    · next all =>
      rw [Bool.and_eq_true, Bool.and_eq_true, isSecond_iff, isTail_iff, isTail_iff] at all
      simp only [Nat.reduceSub, List.take_succ_cons, List.take_zero, List.mem_cons,
        List.not_mem_nil, or_false] at member
      rcases member with rfl | rfl | rfl
      · exact all.1.1.1
      · exact all.1.2.1
      · exact all.2.1
    · simp at member
  · simp at member

end DeltaLang.Utf8
