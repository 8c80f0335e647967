import DeltaLang.Cli.Help
import DeltaLang.Compile
import DeltaLang.Host
import DeltaLang.Ir.TypeInfo
import DeltaLang.Manifest
import DeltaLang.Outline
import DeltaLang.Text.Case
import DeltaLang.Text.Lines

/-!
What the commands do.
-/

namespace DeltaLang.Cli

/-- Why a command did not do its work. -/
inductive Failure where
  | noName
  | manifestExists
  | unreadable (path : String)
  | badManifest (fault : Manifest.Fault)
  | refused (error : Error)
  | notCompiled (fault : Compile.Fault)
  | noTypeInfo (fault : TypeInfo.Fault)
  | toolFailed (failure : ToolFailure)
  | unknownLogLevel (name : String)
  /-- The command ends with a status, and has no more to say. -/
  | exit (status : Nat)
  deriving DecidableEq, Repr

namespace Failure

def message : Failure → Option String
  | .noName => some "no module name provided"
  | .manifestExists => some (Manifest.fileName ++ " already exists")
  | .unreadable path => some ("open " ++ path ++ ": no such file or directory")
  | .badManifest fault => some fault.message
  | .refused error => some error.message
  | .notCompiled fault => some fault.message
  | .noTypeInfo fault => some fault.message
  | .toolFailed failure => some failure.message
  | .unknownLogLevel name => some ("couldn't parse log level " ++ name)
  | .exit _ => none

def status : Failure → Nat
  | .exit status => status
  | _ => 1

end Failure

/-- What a command knows of its call. -/
structure Context where
  level : Log.Level
  call : Flag.Call

/-- Work on a system that may fail. -/
abbrev Action (m : Type → Type) :=
  ReaderT Context (ExceptT Failure m)

section Actions

variable {m : Type → Type} [Monad m] [MonadHost m]

def liftExcept {ε α : Type} (wrap : ε → Failure) (result : Except ε α) : Action m α :=
  match result with
  | .ok a => pure a
  | .error e => throw (wrap e)

/-- Work on the system that cannot fail. -/
def onHost {α : Type} (work : m α) : Action m α :=
  fun _ => ExceptT.lift work

def print (text : String) : Action m Unit :=
  onHost (MonadHost.print text)

/-- Shows the entries that the level of the call asks for. -/
def log (entries : List Log.Entry) : Action m Unit := do
  let level := (← read).level
  for entry in entries.filter (·.shownAt level) do
    onHost (MonadHost.report (.logged entry))

/-- The first argument of a call, empty if there is none. -/
def firstArgument : Action m String :=
  return (← read).call.arguments.headD ""

def readFile (path : String) : Action m (List UInt8) := do
  match ← onHost (MonadHost.read? path) with
  | some bytes => pure bytes
  | none => throw (.unreadable path)

/-- A manifest, and the source that it names. -/
structure Project where
  manifest : Manifest
  source : List UInt8

/-- The project of a call: the manifest of the directory, if there is one, with what the call says
in place of it. -/
def loadProject : Action m Project := do
  let call := (← read).call
  let manifest ←
    match ← onHost (MonadHost.read? Manifest.fileName) with
    | some bytes => liftExcept .badManifest (Manifest.parse bytes)
    | none => pure (Manifest.ofPackage "a.out")
  let or (text other : String) := if text.isEmpty then other else text
  let path := or (← firstArgument) manifest.source
  let source ← readFile path
  return {
    source
    manifest := { manifest with
      source := path
      backend := or (call.text Flag.emit) manifest.backend
      entry := or (call.text Flag.entry) manifest.entry } }

/-- The code of a project. -/
def compileProject (p : Project) : Action m String := do
  let call := (← read).call
  let options : Options :=
    { entry := p.manifest.entry, exitCode := call.number Flag.exitCode
      dumpLocals := call.switch Flag.dumpLocals }
  log (Compile.log p.manifest.backend options p.source)
  liftExcept .notCompiled (Compile.compile p.manifest.backend options p.source)

/-- The program that makes an executable of code. What usually is behind `cc` cannot read the code
of the other backend. -/
def compilerOf (m : Manifest) : String :=
  if m.backend = Backend.llvm.name ∧ m.compiler = "cc" then "clang" else m.compiler

def extensionOf (m : Manifest) : String :=
  ((Backend.ofName? m.backend).getD .assembly).extension

/-- Makes an executable of code, at `output` or, if that is empty, in a temporary file. The code is
handed over in a temporary file, which is removed again, and so is the output if nothing comes of
it. -/
def link (p : Project) (output code : String) : Action m String := do
  let compiler := compilerOf p.manifest
  let input ← onHost (MonadHost.createTemporary (extensionOf p.manifest) (Utf8.encode code))
  let target ←
    if output.isEmpty then onHost (MonadHost.createTemporary ".out" []) else pure output
  let arguments := ["-o", target] ++ p.manifest.flags ++ [input]
  log [⟨.debug, "toolchain", compiler ++ " " ++ " ".intercalate arguments⟩]
  let result ← onHost (MonadHost.callTool compiler arguments)
  onHost (MonadHost.remove input)
  match result.failure with
  | none => pure target
  | some cause => do
    if output.isEmpty then onHost (MonadHost.remove target)
    throw (.toolFailed ⟨compiler, arguments, result.output, cause⟩)

def init : Action m Unit := do
  let name ← firstArgument
  if name.isEmpty then throw .noName
  if (← onHost (MonadHost.read? Manifest.fileName)).isSome then throw .manifestExists
  onHost (MonadHost.write Manifest.fileName (Utf8.encode (Manifest.ofPackage name).render))

/-- Prints the place and the description of each token, also where invalid characters stand between
them. -/
def tokens : Action m Unit := do
  let p ← loadProject
  for token in Lexer.tokens p.source do
    print ("\t".intercalate [token.location.text, token.span.text, token.describe p.source] ++ "\n")
  match Lexer.invalids p.source with
  | [] => pure ()
  | places => throw (.refused (.invalidCharacters places))

def ast : Action m Unit := do
  let p ← loadProject
  let tree ← liftExcept .refused (parseSource p.source)
  print (Lines.text tree.outline)

def typeInfo : Action m Unit := do
  let bytes ← readFile (← firstArgument)
  let info ← liftExcept .noTypeInfo (TypeInfo.ofText bytes)
  print (Lines.text info.outline)

def build : Action m Unit := do
  let call := (← read).call
  let p ← loadProject
  let code ← compileProject p
  if call.switch Flag.dump then print code
  else
    let output := call.text Flag.output
    let path ← link p (if output.isEmpty then p.manifest.package else output) code
    log [⟨.info, programName, "wrote " ++ path⟩]

/-- Builds a program in a temporary file, runs it, and ends with its status. -/
def run : Action m Unit := do
  let p ← loadProject
  let code ← compileProject p
  let path ← link p "" code
  log [⟨.debug, "toolchain", "running " ++ path⟩]
  let result ← onHost (MonadHost.runProgram path)
  onHost (MonadHost.remove path)
  match result with
  | .error cause => throw (.toolFailed ⟨path, [], "", cause⟩)
  | .ok status => do
    log [⟨.info, programName, p.manifest.source ++ " exited with status " ++ toString status⟩]
    if status ≠ 0 then throw (.exit status)

/-- Help for a command by its name, as it is without being called. -/
def helpFor (name : String) : Action m Unit :=
  if name.isEmpty then print Help.commands
  else
    match Command.ofName? name with
    | some .help => print (Help.command .help [Flag.help])
    | some c => print (Help.command c c.flags)
    | none => throw (.exit 3)

def help : Action m Unit := do
  match (← read).call.arguments with
  | [] => print Help.program
  | name :: _ => helpFor name

def perform (c : Command) : Action m Unit :=
  match c with
  | .init => init
  | .tokens => tokens
  | .ast => ast
  | .typeInfo => typeInfo
  | .build => build
  | .run => run
  | .help => help

end Actions

end DeltaLang.Cli
