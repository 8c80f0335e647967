/-!
Places in a source text: spans of bytes, lines and columns. All are counted from zero, and a span
does not include its end. Readers see lines and columns counted from one.
-/

namespace DeltaLang

/-- The positions from `start` up to, not including, `stop`. -/
structure Span where
  start : Int
  stop : Int
  deriving DecidableEq, Repr

namespace Span

def length (s : Span) : Int :=
  s.stop - s.start

def text (s : Span) : String :=
  "[" ++ toString s.start ++ "," ++ toString s.stop ++ ")"

end Span

/-- A line and a column of a source text. -/
structure Position where
  line : Int
  column : Int
  deriving DecidableEq, Repr

namespace Position

def text (p : Position) : String :=
  toString (p.line + 1) ++ ":" ++ toString (p.column + 1)

end Position

/-- A stretch of source text, by bytes, lines and columns. -/
structure Section where
  index : Span
  lines : Span
  columns : Span
  deriving DecidableEq, Repr

namespace Section

/-- The first place of the stretch and the place after its last. -/
def text (s : Section) : String :=
  Position.text ⟨s.lines.start, s.columns.start⟩ ++ "-" ++
    Position.text ⟨s.lines.stop, s.columns.stop⟩

end Section

end DeltaLang
