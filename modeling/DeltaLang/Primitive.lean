/-!
The types of values.
-/

namespace DeltaLang

/-- The type of a value. `void` is the type of an assignment, which has no value; `other` holds a
type code that names no type of the language. -/
inductive Primitive where
  | number
  | boolean
  | void
  | other (code : Int)
  deriving DecidableEq, Repr

namespace Primitive

def ofCode (code : Int) : Primitive :=
  if code = 0 then .number
  else if code = 1 then .boolean
  else if code = 2 then .void
  else .other code

def code : Primitive → Int
  | .number => 0
  | .boolean => 1
  | .void => 2
  | .other code => code

def name : Primitive → String
  | .number => "Number"
  | .boolean => "Boolean"
  | .void => "Void"
  | .other code => "PrimitiveType(" ++ toString code ++ ")"

end Primitive

end DeltaLang
