/-!
Log lines.
-/

namespace DeltaLang.Log

/-- How important a line is, the most important first. -/
inductive Level where
  | critical
  | error
  | warning
  | notice
  | info
  | debug
  | trace
  deriving DecidableEq, Repr

namespace Level

def rank : Level → Nat
  | .critical => 0
  | .error => 1
  | .warning => 2
  | .notice => 3
  | .info => 4
  | .debug => 5
  | .trace => 6

def letter : Level → String
  | .critical => "C"
  | .error => "E"
  | .warning => "W"
  | .notice => "N"
  | .info => "I"
  | .debug => "D"
  | .trace => "T"

/-- The level that a name in upper case stands for. -/
def ofName? (name : String) : Option Level :=
  if name ∈ ["CRITICAL", "C"] then some .critical
  else if name ∈ ["ERROR", "0", "E"] then some .error
  else if name ∈ ["WARNING", "1", "W"] then some .warning
  else if name ∈ ["NOTICE", "2", "N"] then some .notice
  else if name ∈ ["INFO", "3", "I"] then some .info
  else if name ∈ ["DEBUG", "4", "D"] then some .debug
  else if name ∈ ["TRACE", "5", "T"] then some .trace
  else none

end Level

/-- A line, with the part of the compiler that it comes from. -/
structure Entry where
  level : Level
  origin : String
  text : String
  deriving DecidableEq, Repr

namespace Entry

/-- A level shows the entries of that level and of the more important ones. -/
def shownAt (e : Entry) (level : Level) : Bool :=
  e.level.rank ≤ level.rank

/-- The line of an entry, without the time in front of it. -/
def line (e : Entry) : String :=
  e.level.letter ++ " | " ++ e.origin ++ ": " ++ e.text

end Entry

end DeltaLang.Log
