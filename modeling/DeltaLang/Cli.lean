import DeltaLang.Cli.Action

/-!
The command line.
-/

namespace DeltaLang.Cli

section Run

variable {m : Type → Type} [Monad m] [MonadHost m]

/-- Reads the flags behind the name of a command, and does what it says. -/
def callCommand (level : Log.Level) (c : Command) (arguments : List String) :
    ExceptT Failure m Unit := do
  let flags := c.flags ++ [Flag.help]
  let call := Flag.read flags arguments
  let usage := Help.command c flags
  match call.fault <|> call.twoForms? flags with
  | some fault =>
    ExceptT.lift (MonadHost.print ("Incorrect Usage: " ++ fault.message ++ "\n\n" ++ usage))
  | none =>
    if call.switch Flag.help then ExceptT.lift (MonadHost.print usage)
    else (perform c : Action m Unit) ⟨level, call⟩

/-- Reads the flags before the command, and calls it. A call without command shows how the program
is used. -/
def callProgram (arguments : List String) : ExceptT Failure m Unit := do
  let call := Flag.read Flag.globals arguments
  match call.twoForms? Flag.globals, call.fault with
  | some fault, _ => ExceptT.lift (MonadHost.print (fault.message ++ "\n" ++ Help.program))
  | none, some fault =>
    ExceptT.lift
      (MonadHost.print ("Incorrect Usage. " ++ fault.message ++ "\n\n" ++ Help.program))
  | none, none =>
    if call.switch Flag.help then ExceptT.lift (MonadHost.print Help.program)
    else
      let name := Case.upperText (call.text Flag.logLevel)
      match Log.Level.ofName? name with
      | none => throw (.unknownLogLevel name)
      | some level =>
        match call.arguments with
        | [] => ExceptT.lift (MonadHost.print Help.program)
        | command :: rest =>
          match Command.ofName? command with
          | some c => callCommand level c rest
          | none => (helpFor command : Action m Unit) ⟨level, call⟩

/-- Does what a call says, and gives the status to exit with. -/
def execute (arguments : List String) : m Nat := do
  match ← (callProgram arguments : ExceptT Failure m Unit).run with
  | .ok () => pure 0
  | .error failure => do
    match failure.message with
    | some message =>
      MonadHost.report (.text ("error with " ++ programName ++ ": " ++ message))
    | none => pure ()
    pure failure.status

end Run

end DeltaLang.Cli
