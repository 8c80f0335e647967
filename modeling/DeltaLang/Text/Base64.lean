import DeltaLang.Text.Decimal

/-!
Bytes written with 64 digits, four digits for three bytes. What is left of the last three is filled
up with `=`.
-/

namespace DeltaLang.Base64

/-- The value of a digit. -/
def digit? (c : Char) : Option Nat :=
  if 'A' ≤ c ∧ c ≤ 'Z' then some (c.toNat - 'A'.toNat)
  else if 'a' ≤ c ∧ c ≤ 'z' then some (c.toNat - 'a'.toNat + 26)
  else if Decimal.isDigit c then some (c.toNat - '0'.toNat + 52)
  else if c = '+' then some 62
  else if c = '/' then some 63
  else none

/-- The value of digits, read from the left. -/
def value? (digits : List Char) : Option Nat :=
  digits.foldlM (fun value c => (digit? c).map (value * 64 + ·)) 0

/-- The bytes of groups of four digits. Bits that belong to no byte do not matter. -/
def groups? : List Char → Option (List UInt8)
  | [] => some []
  | [a, b, '=', '='] => do
    let n ← value? [a, b]
    some [UInt8.ofNat (n / 16)]
  | [a, b, c, '='] => do
    let n ← value? [a, b, c]
    some [UInt8.ofNat (n / 1024), UInt8.ofNat (n / 4)]
  | a :: b :: c :: d :: rest => do
    let n ← value? [a, b, c, d]
    let others ← groups? rest
    some (UInt8.ofNat (n / 65536) :: UInt8.ofNat (n / 256) :: UInt8.ofNat n :: others)
  | _ => none

/-- The bytes that a text stands for. Line ends may stand anywhere in it. -/
def decode? (text : List Char) : Option (List UInt8) :=
  groups? (text.filter fun c => c ≠ '\n' ∧ c ≠ '\r')

end DeltaLang.Base64
