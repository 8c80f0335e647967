import DeltaLang.Cli.Flag

/-!
The commands of the compiler and the flags they take.
-/

namespace DeltaLang.Cli

def programName : String :=
  "deltac"

namespace Flag

def help : Flag :=
  { names := ["help", "h"], kind := .switch, usage := "show help" }

def logLevel : Flag :=
  { names := ["log-level"], kind := .text, usage := "", default := "NOTICE" }

def trace : Flag :=
  { names := ["trace"], kind := .switch
    usage := "print errors with the source of their stack trace" }

def output : Flag :=
  { names := ["output"], kind := .text, usage := "" }

def dump : Flag :=
  { names := ["dump"], kind := .switch
    usage := "print the generated code instead of linking it" }

def emit : Flag :=
  { names := ["emit"], kind := .text, usage := "backend to generate code with: asm or llvm" }

def entry : Flag :=
  { names := ["entry"], kind := .text, usage := "function that terminates the program" }

def exitCode : Flag :=
  { names := ["exit-code"], kind := .number, usage := "status the entry function exits with" }

def dumpLocals : Flag :=
  { names := ["dump-locals"], kind := .switch
    usage := "print every local of the entry function before exiting" }

/-- The flags before the name of the command. -/
def globals : List Flag :=
  [logLevel, trace, help]

/-- The flags that say what code is generated. -/
def generation : List Flag :=
  [emit, entry, exitCode, dumpLocals]

end Flag

inductive Command where
  | init
  | tokens
  | ast
  | typeInfo
  | build
  | run
  | help
  deriving DecidableEq, Repr

namespace Command

def all : List Command :=
  [.init, .tokens, .ast, .typeInfo, .build, .run, .help]

def names : Command → List String
  | .init => ["init"]
  | .tokens => ["tokens"]
  | .ast => ["ast"]
  | .typeInfo => ["typeinfo"]
  | .build => ["build"]
  | .run => ["run"]
  | .help => ["help", "h"]

def usage : Command → String
  | .init => "init a directory"
  | .tokens => "print the tokens of a file"
  | .ast => "print the syntax tree of a file"
  | .typeInfo => "dump typeinfo from a module of LLVM IR"
  | .build => "build a file"
  | .run => "build a file and run it, exiting with its status"
  | .help => "Shows a list of commands or help for one command"

/-- The arguments of a command. -/
def arguments : Command → String
  | .init => "<name>"
  | .typeInfo => "<file.ll>"
  | .help => "[command]"
  | _ => "[file]"

/-- The flags of a command but for `help`, which every command has. -/
def flags : Command → List Flag
  | .build => [Flag.output, Flag.dump] ++ Flag.generation
  | .run => Flag.generation
  | _ => []

def ofName? (name : String) : Option Command :=
  all.find? (·.names.contains name)

end Command

end DeltaLang.Cli
