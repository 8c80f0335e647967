import DeltaLang.Text.Template

/-!
Assembly text, line by line.
-/

namespace DeltaLang.Assembly

structure Listing where
  lines : List String
  deriving DecidableEq, Repr

namespace Listing

def empty : Listing :=
  ⟨[]⟩

def raw (l : Listing) (line : String) : Listing :=
  ⟨l.lines ++ [line]⟩

def indentation : String := "    "

/-- Adds an instruction, written as a template with its operands. -/
def instr (l : Listing) (template : String) (operands : List Template.Argument) : Listing :=
  l.raw (indentation ++ Template.format template operands)

def label (l : Listing) (name : String) : Listing :=
  l.raw (name ++ ":")

/-- Adds a label with data. -/
def value (l : Listing) (name data : String) : Listing :=
  l.raw (name ++ ": " ++ data)

def text (l : Listing) : String :=
  "\n".intercalate l.lines ++ "\n"

end Listing

end DeltaLang.Assembly
