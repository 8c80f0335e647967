import DeltaLang.Source
import DeltaLang.Primitive

/-!
Why a program is refused. Each cause is a value; `Error.message` holds the wording.
-/

namespace DeltaLang

/-- A token that cannot stand where it was found. `got` describes it, and is none where the input
ended too early. -/
structure Unexpected where
  got : Option String
  expected : List String
  span : Span
  location : Position
  deriving DecidableEq, Repr

namespace Unexpected

def message (u : Unexpected) : String :=
  let got := u.got.getD "end of input"
  if u.expected.isEmpty then
    "unexpected " ++ got ++ ". " ++ u.location.text
  else
    "got " ++ got ++ ", expected one of " ++ ", ".intercalate u.expected ++ ". " ++ u.location.text

end Unexpected

/-- What the grammar accepts and no code can be generated for. Trees are held as their text. -/
inductive Construct where
  | emptyModule
  | builtinEntry (name : String)
  | builtinFunction (name : String)
  | arguments (function : String)
  | expression (text : String)
  | statement (text : String)
  | expressionStatement (text : String)
  | valueOf (text name : String)
  | condition (text : String)
  | operand (text condition : String)
  | nestedDeclaration (name : String)
  | nestedFlow
  | named (text : String)
  deriving DecidableEq, Repr

namespace Construct

def text : Construct → String
  | .emptyModule => "module without functions"
  | .builtinEntry name => "entry function named '" ++ name ++ "', which is a builtin"
  | .builtinFunction name => "function named '" ++ name ++ "', which is a builtin"
  | .arguments function => "arguments of function '" ++ function ++ "'"
  | .expression text => "expression " ++ text
  | .statement text => "statement '" ++ text ++ "'"
  | .expressionStatement text => "expression statement '" ++ text ++ "'"
  | .valueOf text name => "'" ++ text ++ "' as the value of " ++ name
  | .condition text => "condition '" ++ text ++ "'"
  | .operand text whole => "operand '" ++ text ++ "' in condition '" ++ whole ++ "'"
  | .nestedDeclaration name => "declaration of '" ++ name ++ "' inside an if body"
  | .nestedFlow => "nested control flow"
  | .named text => text

end Construct

/-- Why a program is refused. -/
inductive Error where
  | invalidCharacters (places : List Section)
  | unexpectedToken (unexpected : Unexpected)
  | typeMismatch (expected found : Primitive) (context : String)
  | unknownVariable (name : String)
  | invalidDeclarationType (name : String) (type : Primitive)
  | invalidLiteral (value : String) (type : Primitive)
  | unsupported (construct : Construct)
  | missingSlot (index : Nat)
  deriving DecidableEq, Repr

/-- The wording for one run of invalid characters. -/
def Section.message (s : Section) : String :=
  "invalid characters at " ++ s.text

namespace Error

def message : Error → String
  | .invalidCharacters places => "\n".intercalate (places.map Section.message)
  | .unexpectedToken unexpected => unexpected.message
  | .typeMismatch expected found context =>
    "type mismatch in '" ++ context ++ "': expected " ++ expected.name ++ ", found " ++ found.name
  | .unknownVariable name => "unknown variable '" ++ name ++ "'"
  | .invalidDeclarationType name type =>
    "variable '" ++ name ++ "' cannot be declared with type " ++ type.name
  | .invalidLiteral value type => "'" ++ value ++ "' is not a valid " ++ type.name ++ " literal"
  | .unsupported construct => "unsupported: " ++ construct.text
  | .missingSlot index => "no slot " ++ toString index ++ " in the frame"

end Error

end DeltaLang
