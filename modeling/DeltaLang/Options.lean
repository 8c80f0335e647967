import DeltaLang.Tree
import DeltaLang.Error

/-!
What is asked of generated code, and the checks that concern a module as a whole.
-/

namespace DeltaLang

/-- `entry` names the function that ends the program, with status `exitCode`, instead of returning;
an empty name stands for `main`. With `dumpLocals` the program first prints the variables of that
function. -/
structure Options where
  entry : String := ""
  exitCode : Int := 0
  dumpLocals : Bool := false
  deriving DecidableEq, Repr

namespace Options

def entryName (o : Options) : String :=
  if o.entry = "" then "main" else o.entry

end Options

/-- The functions that generated code calls and a program cannot define. -/
def builtins : List String :=
  ["exit", "printf"]

namespace Module

/-- The first clash of the entry name or of a function with a builtin. -/
def clash? (functions : List Function) (entry : String) : List String → Option Construct
  | [] => none
  | builtin :: rest =>
    if entry = builtin then some (.builtinEntry builtin)
    else if functions.any (fun f => f.name = builtin) then some (.builtinFunction builtin)
    else clash? functions entry rest

/-- A module needs at least one function, and no function may take the place of a builtin. -/
def check (m : Module) (options : Options) : Except Error Unit :=
  if m.members.isEmpty then .error (.unsupported .emptyModule)
  else
    match clash? m.members options.entryName builtins with
    | some construct => .error (.unsupported construct)
    | none => .ok ()

end Module

end DeltaLang
