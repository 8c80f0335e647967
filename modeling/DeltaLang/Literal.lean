import DeltaLang.Error
import DeltaLang.Text.Decimal

/-!
The values of literals. A number is written in decimal digits and fits in 32 bits.
-/

namespace DeltaLang

/-- The value of a literal. -/
inductive Constant where
  | number (value : Nat)
  | boolean (value : Bool)
  deriving DecidableEq, Repr

namespace Constant

/-- The number that stands for a value in memory. -/
def toNat : Constant → Nat
  | .number value => value
  | .boolean value => if value then 1 else 0

end Constant

namespace Literal

/-- The number that decimal digits go on to from `value`. Reading stops at a character that is no
digit, and as soon as the number no longer fits. -/
def digits? (value : Nat) : List Char → Option Nat
  | [] => some value
  | c :: rest =>
    let next := value * 10 + (c.toNat - '0'.toNat)
    if Decimal.isDigit c && next < 0x100000000 then digits? next rest else none

def number? (text : String) : Option Nat :=
  if text.isEmpty then none else digits? 0 text.toList

def truths : List String :=
  ["1", "t", "T", "TRUE", "true", "True"]

def falsehoods : List String :=
  ["0", "f", "F", "FALSE", "false", "False"]

def boolean? (text : String) : Option Bool :=
  if text ∈ truths then some true
  else if text ∈ falsehoods then some false
  else none

/-- The value of a literal of a given type. Only numbers and Booleans have literals. -/
def constant? (text : String) : Primitive → Option Constant
  | .number => (number? text).map .number
  | .boolean => (boolean? text).map .boolean
  | .void => none
  | .other _ => none

def constant (text : String) (type : Primitive) : Except Error Constant :=
  match constant? text type with
  | some value => .ok value
  | none => .error (.invalidLiteral text type)

end Literal

end DeltaLang
