/-!
Numbers in hexadecimal.
-/

namespace DeltaLang.Hex

def lowerDigits (n : Nat) : List Char :=
  Nat.toDigits 16 n

def upperDigits (n : Nat) : List Char :=
  (Nat.toDigits 16 n).map Char.toUpper

/-- The digits with zeros in front, up to `width`. -/
def pad (width : Nat) (digits : List Char) : List Char :=
  List.replicate (width - digits.length) '0' ++ digits

def lower (width n : Nat) : String :=
  String.ofList (pad width (lowerDigits n))

def upper (width n : Nat) : String :=
  String.ofList (pad width (upperDigits n))

/-- The value of a hexadecimal digit of either case. -/
def digit? (c : Char) : Option Nat :=
  if '0' ≤ c ∧ c ≤ '9' then some (c.toNat - '0'.toNat)
  else if 'a' ≤ c ∧ c ≤ 'f' then some (c.toNat - 'a'.toNat + 10)
  else if 'A' ≤ c ∧ c ≤ 'F' then some (c.toNat - 'A'.toNat + 10)
  else none

end DeltaLang.Hex
