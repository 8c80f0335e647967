import DeltaLang.Text.Hex
import DeltaLang.Text.Visible

/-!
Text between double quotes, with every character that has no visible form written as an escape.
-/

namespace DeltaLang.Quoted

/-- A character as it stands between quotes. -/
def escape (c : Char) : String :=
  if c = '"' then "\\\""
  else if c = '\\' then "\\\\"
  else if Visible.isVisible c then String.singleton c
  else if c.toNat = 0x07 then "\\a"
  else if c.toNat = 0x08 then "\\b"
  else if c.toNat = 0x0C then "\\f"
  else if c = '\n' then "\\n"
  else if c = '\r' then "\\r"
  else if c = '\t' then "\\t"
  else if c.toNat = 0x0B then "\\v"
  else if c.toNat < 0x80 then "\\x" ++ Hex.lower 2 c.toNat
  else if c.toNat < 0x10000 then "\\u" ++ Hex.lower 4 c.toNat
  else "\\U" ++ Hex.lower 8 c.toNat

def quote (text : String) : String :=
  "\"" ++ String.join (text.toList.map escape) ++ "\""

end DeltaLang.Quoted
