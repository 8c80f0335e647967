/-!
What code is generated for.
-/

namespace DeltaLang

inductive Backend where
  | assembly
  | llvm
  deriving DecidableEq, Repr

namespace Backend

def name : Backend → String
  | .assembly => "asm"
  | .llvm => "llvm"

/-- The backend with a given name. -/
def ofName? (name : String) : Option Backend :=
  if name = "asm" then some .assembly
  else if name = "llvm" then some .llvm
  else none

/-- The ending of the files that hold code for a backend. -/
def extension : Backend → String
  | .assembly => ".s"
  | .llvm => ".ll"

end Backend

end DeltaLang
