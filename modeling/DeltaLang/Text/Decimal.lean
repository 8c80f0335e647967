/-!
Numbers in decimal.
-/

namespace DeltaLang.Decimal

def isDigit (c : Char) : Bool :=
  '0' ≤ c && c ≤ '9'

/-- The value of decimal digits, read from the left. -/
def value (digits : List Char) : Nat :=
  digits.foldl (fun value c => value * 10 + (c.toNat - '0'.toNat)) 0

/-- What follows the sign of a number, if it has one. -/
def dropSign (text : List Char) : List Char :=
  match text with
  | '+' :: rest | '-' :: rest => rest
  | rest => rest

end DeltaLang.Decimal
