/-!
Templates with places for arguments: `%s` takes a text, `%d` a number, and `%%` stands for a
percent sign. A place that cannot be filled shows what is wrong instead.
-/

namespace DeltaLang.Template

inductive Argument where
  | text (value : String)
  | number (value : Int)
  deriving DecidableEq, Repr

namespace Argument

/-- An argument with its type, as the marks for wrong and superfluous arguments show it. -/
def typed : Argument → String
  | .text value => "string=" ++ value
  | .number value => "int=" ++ toString value

/-- The argument at a place for `verb`. -/
def fill (verb : Char) : Argument → String
  | .text value => if verb = 's' then value else wrong (.text value)
  | .number value => if verb = 'd' then toString value else wrong (.number value)
where
  wrong (a : Argument) : String := "%!" ++ verb.toString ++ "(" ++ a.typed ++ ")"

end Argument

/-- The mark for arguments that no place takes. -/
def surplus : List Argument → String
  | [] => ""
  | arguments => "%!(EXTRA " ++ ", ".intercalate (arguments.map Argument.typed) ++ ")"

def fillAll : List Char → List Argument → String
  | [], arguments => surplus arguments
  | ['%'], arguments => "%!(NOVERB)" ++ surplus arguments
  | '%' :: '%' :: rest, arguments => "%" ++ fillAll rest arguments
  | '%' :: verb :: rest, [] => "%!" ++ verb.toString ++ "(MISSING)" ++ fillAll rest []
  | '%' :: verb :: rest, a :: arguments => a.fill verb ++ fillAll rest arguments
  | c :: rest, arguments => c.toString ++ fillAll rest arguments

def format (template : String) (arguments : List Argument) : String :=
  fillAll template.toList arguments

end DeltaLang.Template
