/-!
UTF-8 text as bytes. Every byte list is a text: a byte that starts no well-formed sequence counts
as one character of one byte. Overlong forms, surrogates and code points above U+10FFFF are not
well formed.
-/

namespace DeltaLang.Utf8

/-- The bytes of a string. -/
def encode (text : String) : List UInt8 :=
  text.toList.flatMap String.utf8EncodeChar

theorem encode_append (s t : String) : encode (s ++ t) = encode s ++ encode t := by
  simp [encode]

/-- Stands for a byte that belongs to no well-formed sequence. -/
def replacement : Char := Char.ofNat 0xFFFD

/-- The length of the sequence that a leading byte announces, 0 for a byte that leads none. -/
def announced (lead : UInt8) : Nat :=
  if lead < 0x80 then 1
  else if lead < 0xC2 then 0
  else if lead < 0xE0 then 2
  else if lead < 0xF0 then 3
  else if lead < 0xF5 then 4
  else 0

def isTail (b : UInt8) : Bool :=
  0x80 ≤ b && b ≤ 0xBF

/-- Whether `b` may come second after `lead`. The narrower ranges rule out overlong forms,
surrogates and code points above U+10FFFF. -/
def isSecond (lead b : UInt8) : Bool :=
  if lead = 0xE0 then 0xA0 ≤ b && b ≤ 0xBF
  else if lead = 0xED then 0x80 ≤ b && b ≤ 0x9F
  else if lead = 0xF0 then 0x90 ≤ b && b ≤ 0xBF
  else if lead = 0xF4 then 0x80 ≤ b && b ≤ 0x8F
  else isTail b

/-- The six payload bits of a byte that is not the first of its sequence. -/
def payload (b : UInt8) : Nat :=
  b.toNat % 64

/-- The character at the front of the text `lead :: rest`, and its size in bytes. -/
def front (lead : UInt8) (rest : List UInt8) : Char × Nat :=
  match announced lead, rest with
  | 1, _ => (Char.ofNat lead.toNat, 1)
  | 2, b :: _ =>
    if isSecond lead b then
      (Char.ofNat (lead.toNat % 32 * 64 + payload b), 2)
    else (replacement, 1)
  | 3, b :: c :: _ =>
    if isSecond lead b && isTail c then
      (Char.ofNat ((lead.toNat % 16 * 64 + payload b) * 64 + payload c), 3)
    else (replacement, 1)
  | 4, b :: c :: d :: _ =>
    if isSecond lead b && isTail c && isTail d then
      (Char.ofNat (((lead.toNat % 8 * 64 + payload b) * 64 + payload c) * 64 + payload d), 4)
    else (replacement, 1)
  | _, _ => (replacement, 1)

theorem front_size_pos (lead : UInt8) (rest : List UInt8) : 0 < (front lead rest).2 := by
  unfold front
  split <;> (try split) <;> simp

theorem front_size_le (lead : UInt8) (rest : List UInt8) :
    (front lead rest).2 ≤ rest.length + 1 := by
  unfold front
  split <;> (try split) <;> simp

/-- The characters of a text, one for each malformed byte. -/
def decode : List UInt8 → List Char
  | [] => []
  | lead :: rest => (front lead rest).1 :: decode (rest.drop ((front lead rest).2 - 1))
termination_by bytes => bytes.length
decreasing_by simp only [List.length_drop, List.length_cons]; omega

/-- A text as a string, with the replacement character for each malformed byte. -/
def toString (bytes : List UInt8) : String :=
  String.ofList (decode bytes)

/-- Whether every byte belongs to a well-formed sequence. -/
def isWellFormed (bytes : List UInt8) : Bool :=
  encode (toString bytes) == bytes

end DeltaLang.Utf8
