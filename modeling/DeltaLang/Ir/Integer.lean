import DeltaLang.Text.Hex

/-!
How an integer is written: in decimal, or in hexadecimal where that repeats its digits more.
-/

namespace DeltaLang.Ir.Integer

/-- How many different digits there are among the digits of a number. -/
def distinct (digits : List Char) : Nat :=
  digits.eraseDups.length

/-- The most different digits that a number of `length` hexadecimal digits may have. -/
def allowance (length : Nat) : Nat :=
  if length ≤ 6 then 2
  else if length ≤ 10 then 3
  else 4

/-- Whether the share of different digits is at least a fifth greater in decimal than in
hexadecimal. A tie counts where the hexadecimal share is a fifth, three tenths or a half. -/
def repeatsMore (hexDistinct hexLength decDistinct decLength : Nat) : Bool :=
  let dec := 5 * hexLength * decDistinct
  let hex := (5 * hexDistinct + hexLength) * decLength
  hex < dec ||
    hex == dec && (5 * hexDistinct == hexLength || 10 * hexDistinct == 3 * hexLength ||
      2 * hexDistinct == hexLength)

/-- Numbers below 4096 are always written in decimal. -/
def inHex (n : Nat) : Bool :=
  let hex := Hex.upperDigits n
  let dec := Nat.toDigits 10 n
  let hexLength := min hex.length 16
  let decLength := min dec.length 10
  4096 ≤ n && distinct hex ≤ allowance hexLength &&
    repeatsMore (distinct hex) hexLength (distinct dec) decLength

def text : Int → String
  | .ofNat n => if inHex n then "u0x" ++ Hex.upper 1 n else toString n
  | .negSucc n => "-" ++ toString (n + 1)

end DeltaLang.Ir.Integer
