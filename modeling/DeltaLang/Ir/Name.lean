import DeltaLang.Text.Decimal
import DeltaLang.Text.Hex
import DeltaLang.Text.Utf8

/-!
Names and byte texts of a module. Bytes without a visible form are written `\HH`.
-/

namespace DeltaLang.Ir.Name

/-- Whether a byte stands for itself between quotes. -/
def isPlain (b : UInt8) : Bool :=
  0x20 ≤ b && b ≤ 0x7E && b != 0x22 && b != 0x5C

def escapeByte (b : UInt8) : List Char :=
  if isPlain b then [Char.ofNat b.toNat] else '\\' :: (Hex.upper 2 b.toNat).toList

def escape (bytes : List UInt8) : String :=
  String.ofList (bytes.flatMap escapeByte)

/-- Whether a byte may stand in a name without quotes. -/
def isBare (b : UInt8) : Bool :=
  (0x41 ≤ b && b ≤ 0x5A) || (0x61 ≤ b && b ≤ 0x7A) || (0x30 ≤ b && b ≤ 0x39) ||
    b == 0x24 || b == 0x2D || b == 0x2E || b == 0x5F

/-- Whether a name could be taken for the number of an unnamed value. -/
def isNumeric (name : String) : Bool :=
  name != "" && name.toList.all Decimal.isDigit &&
    Decimal.value name.toList < 0x10000000000000000

/-- A name as it follows its sigil. -/
def text (name : String) : String :=
  if (Utf8.encode name).all isBare && !isNumeric name then name
  else "\"" ++ escape (Utf8.encode name) ++ "\""

end DeltaLang.Ir.Name
