import DeltaLang.Cli.Command
import DeltaLang.Text.Lines

/-!
Texts that say how the command line is used.
-/

namespace DeltaLang.Cli

namespace Help

/-- Lines of two columns, indented. The right one begins two columns behind the longest entry of the
left one. -/
def columns (rows : List (String × String)) : List String :=
  let width := (rows.map fun row => row.1.length).foldl max 0 + 2
  rows.map fun (left, right) => "   " ++ String.ofList (left.toList.rightpad width ' ') ++ right

/-- The names of a flag, each with its dashes and with the place of its value. -/
def flagNames (flag : Flag) : String :=
  let value := if flag.kind = .switch then "" else " value"
  ", ".intercalate
    (flag.names.map fun name => (if name.length = 1 then "-" else "--") ++ name ++ value)

/-- What a flag is for, and its default. -/
def flagUsage (flag : Flag) : String :=
  let default :=
    match flag.kind with
    | .text => if flag.default.isEmpty then "" else Quoted.quote flag.default
    | .number => "0"
    | .switch => "false"
  let remark := if default.isEmpty then "" else "(default: " ++ default ++ ")"
  " ".intercalate ([flag.usage, remark].filter (!·.isEmpty))

def flagLines (flags : List Flag) : List String :=
  columns (flags.map fun flag => (flagNames flag, flagUsage flag))

def commandLines : List String :=
  columns (Command.all.map fun c => (", ".intercalate c.names, c.usage))

/-- The options of a command, with an indented line behind them. -/
def options (flags : List Flag) : List String :=
  if flags.isEmpty then [] else ["", "OPTIONS:"] ++ flagLines flags ++ ["   "]

/-- The help for the program. -/
def program : String :=
  Lines.text
    (["NAME:", "   " ++ programName ++ " - delta compiler", "", "USAGE:",
      "   " ++ programName ++ " [global options] command [command options] [arguments...]", "",
      "COMMANDS:"] ++ commandLines ++ ["", "GLOBAL OPTIONS:"] ++ flagLines Flag.globals)

/-- The help for no command in particular. -/
def commands : String :=
  Lines.text
    (["NAME:", "   " ++ programName ++ " - delta compiler", "", "USAGE:",
      "   " ++ programName ++ " command [command options] [arguments...]", "", "COMMANDS:"] ++
      commandLines ++ options Flag.globals)

/-- The help for a command that is shown with some flags. The help command goes without a name. -/
def command (c : Command) (flags : List Flag) : String :=
  let name := if c = .help then "" else programName ++ " " ++ c.names.headD ""
  let place := if flags.isEmpty then "" else " [command options]"
  Lines.text
    (["NAME:", "   " ++ name ++ " - " ++ c.usage, "", "USAGE:",
      "   " ++ name ++ place ++ " " ++ c.arguments] ++ options flags)

end Help

end DeltaLang.Cli
