/-!
Texts made of lines.
-/

namespace DeltaLang.Lines

/-- The text of lines, each with a line end. -/
def text (lines : List String) : String :=
  String.join (lines.map (· ++ "\n"))

end DeltaLang.Lines
