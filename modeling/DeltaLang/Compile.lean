import DeltaLang.Assembly.Lowering
import DeltaLang.Backend
import DeltaLang.Ir.Lowering
import DeltaLang.Ir.Printer
import DeltaLang.Text.Quoted
import DeltaLang.Token.Lexer
import DeltaLang.Tree.Parser

/-!
From source text to the text that a toolchain takes.
-/

namespace DeltaLang

/-- The tree of a source. Nothing is parsed unless every character belongs to a token. -/
def parseSource (source : List UInt8) : Except Error Module :=
  match Lexer.invalids source with
  | [] => (Parser.parse source (Lexer.tokens source)).mapError .unexpectedToken
  | places => .error (.invalidCharacters places)

namespace Compile

/-- Why a source cannot be compiled. -/
inductive Fault where
  | refused (error : Error)
  | unknownBackend (name : String)
  deriving DecidableEq, Repr

namespace Fault

def message : Fault → String
  | .refused error => error.message
  | .unknownBackend name => "unknown backend " ++ Quoted.quote name

end Fault

/-- The text that a backend makes of a module. -/
def generate (backend : Backend) (options : Options) (m : Module) : Except Error String :=
  match backend with
  | .assembly => (Assembly.generate options m).map Assembly.Program.text
  | .llvm => (Ir.generate options m).map Ir.Module.text

/-- The backend of a given name. No name stands for assembly. -/
def selectBackend (name : String) : Option Backend :=
  if name = "" then some .assembly else Backend.ofName? name

/-- A source is parsed before the name of the backend is looked at. -/
def compile (backend : String) (options : Options) (source : List UInt8) : Except Fault String := do
  let m ← (parseSource source).mapError .refused
  match selectBackend backend with
  | some backend => (generate backend options m).mapError .refused
  | none => .error (.unknownBackend backend)

/-- What is logged while a source is compiled. -/
def log (backend : String) (options : Options) (source : List UInt8) : List Log.Entry :=
  match parseSource source, selectBackend backend with
  | .ok m, some .assembly => Assembly.log options m
  | .ok m, some .llvm => Ir.log options m
  | _, _ => []

end Compile

end DeltaLang
