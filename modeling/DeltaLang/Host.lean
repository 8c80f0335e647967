import DeltaLang.Log
import DeltaLang.Toolchain

/-!
What the command line asks of the system it runs on, and a system that is a value: files by name,
and tools as functions.
-/

namespace DeltaLang

/-- A line for the person at the terminal, beside the output. -/
inductive Report where
  | logged (entry : Log.Entry)
  | text (line : String)
  deriving DecidableEq, Repr

/-- What a tool said, and how it ended. -/
structure ToolResult where
  output : String
  failure : Option ToolCause
  deriving DecidableEq, Repr

/-- A system with files and programs. -/
class MonadHost (m : Type → Type) where
  read? : String → m (Option (List UInt8))
  write : String → List UInt8 → m Unit
  /-- Makes a file of a new name with a given ending. -/
  createTemporary : String → List UInt8 → m String
  remove : String → m Unit
  /-- Calls a tool with arguments, and waits for its end. -/
  callTool : String → List String → m ToolResult
  /-- Runs a program, and gives the status that it exits with. -/
  runProgram : String → m (Except ToolCause Nat)
  print : String → m Unit
  report : Report → m Unit

/-- A file. A program has the status that it exits with. -/
structure File where
  bytes : List UInt8
  execution : Option Nat := none
  deriving DecidableEq, Repr

/-- Files by their names. -/
abbrev Files :=
  List (String × File)

namespace Files

/-- A name without the steps in it that lead nowhere. -/
def normalName (name : String) : String :=
  let steps := name.splitOn "/"
  "/".intercalate (steps.take 1 |>.filter (· ≠ ".") |>.append
    ((steps.drop 1).filter fun step => step ≠ "." && step ≠ ""))

def find? (files : Files) (name : String) : Option File :=
  files.lookup (normalName name)

def erase (files : Files) (name : String) : Files :=
  files.filter (·.1 ≠ normalName name)

def insert (files : Files) (name : String) (file : File) : Files :=
  files.erase name ++ [(normalName name, file)]

end Files

/-- How a tool ends that is called with arguments: what it says, its status, and the files that it
writes. -/
structure ToolRun where
  output : String
  status : Nat
  products : Files
  deriving DecidableEq, Repr

abbrev Tool :=
  List String → Files → ToolRun

/-- A system that is a value. -/
structure Host where
  files : Files
  tools : List (String × Tool)
  /-- The name of a new file with a given ending. -/
  temporaryName : String → String
  /-- The temporary files that are not removed yet. -/
  temporaries : List String := []
  printed : String := ""
  reports : List Report := []

namespace Host

/-- Calls a tool. A name with a directory in it is not looked for among the tools. -/
def callTool (h : Host) (name : String) (arguments : List String) : ToolResult × Host :=
  if name.contains '/' then
    let cause :=
      if (h.files.find? name).isSome then ToolCause.notExecutable name else .missingFile name
    (⟨"", some cause⟩, h)
  else
    match h.tools.lookup name with
    | none => (⟨"", some (.notFound name)⟩, h)
    | some tool =>
      let run := tool arguments h.files
      let files := run.products.foldl (fun files (name, file) => files.insert name file) h.files
      (⟨run.output, if run.status = 0 then none else some (.status run.status)⟩, { h with files })

/-- How a program ends that is run. -/
def runProgram (h : Host) (path : String) : Except ToolCause Nat :=
  match h.files.find? path with
  | none => .error (.missingFile path)
  | some file =>
    match file.execution with
    | none => .error (.notExecutable path)
    | some status => .ok status

def createTemporary (h : Host) (extension : String) (bytes : List UInt8) : String × Host :=
  let name := h.temporaryName extension
  (name,
    { h with files := h.files.insert name { bytes }, temporaries := name :: h.temporaries })

instance : MonadHost (StateM Host) where
  read? name := return ((← get).files.find? name).map File.bytes
  write name bytes := modify fun h => { h with files := h.files.insert name { bytes } }
  createTemporary extension bytes := modifyGet (createTemporary · extension bytes)
  remove name := modify fun h =>
    { h with files := h.files.erase name, temporaries := h.temporaries.erase name }
  callTool name arguments := modifyGet (callTool · name arguments)
  runProgram path := return runProgram (← get) path
  print text := modify fun h => { h with printed := h.printed ++ text }
  report line := modify fun h => { h with reports := h.reports ++ [line] }

end Host

end DeltaLang
