import DeltaLang.Text.Quoted

/-!
How programs fail that the compiler calls.
-/

namespace DeltaLang

/-- Why a program did not do its work. -/
inductive ToolCause where
  | notFound (name : String)
  | missingFile (path : String)
  | notExecutable (path : String)
  | status (code : Nat)
  | other (text : String)
  deriving DecidableEq, Repr

namespace ToolCause

def message : ToolCause → String
  | .notFound name => "exec: " ++ Quoted.quote name ++ ": executable file not found in $PATH"
  | .missingFile path => "fork/exec " ++ path ++ ": no such file or directory"
  | .notExecutable path => "fork/exec " ++ path ++ ": permission denied"
  | .status code => "exit status " ++ toString code
  | .other text => text

end ToolCause

/-- A program that was called in vain, and what it said. -/
structure ToolFailure where
  tool : String
  arguments : List String
  output : String
  cause : ToolCause
  deriving DecidableEq, Repr

namespace ToolFailure

def message (f : ToolFailure) : String :=
  let call := f.tool ++ " " ++ " ".intercalate f.arguments ++ ": " ++ f.cause.message
  if f.output.isEmpty then call else call ++ "\n" ++ f.output

end ToolFailure

end DeltaLang
