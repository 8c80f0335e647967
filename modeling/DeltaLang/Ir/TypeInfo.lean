import DeltaLang.Ir.Reader
import DeltaLang.TypeInfo

/-!
Type information read back from IR text.
-/

namespace DeltaLang.TypeInfo

/-- Why a text has no type information. -/
inductive Fault where
  | notIr
  | missing
  | notCharacters
  | notJson
  deriving DecidableEq, Repr

namespace Fault

def message : Fault → String
  | .notIr => "not a module of LLVM IR"
  | .missing => "no " ++ symbol ++ " in module"
  | .notCharacters => symbol ++ " is not a character array"
  | .notJson => symbol ++ " is not valid JSON"

end Fault

/-- The type information that the globals of a module carry. -/
def ofGlobals (globals : List Ir.Reader.ReadGlobal) : Except Fault TypeInfo :=
  match globals.find? fun g => g.ident = .named symbol with
  | none => .error .missing
  | some g =>
    match g.chars with
    | none => .error .notCharacters
    | some bytes =>
      match ofBytes? bytes with
      | none => .error .notJson
      | some info => .ok info

def ofText (text : List UInt8) : Except Fault TypeInfo :=
  match Ir.Reader.globals? text with
  | none => .error .notIr
  | some globals => ofGlobals globals

end DeltaLang.TypeInfo
