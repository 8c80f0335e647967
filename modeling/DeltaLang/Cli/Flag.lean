import DeltaLang.Literal
import DeltaLang.Text.Integer
import DeltaLang.Text.Quoted

/-!
Flags on the command line. A flag is written with one dash or two. Its value follows behind `=` or
as the next argument, and a switch needs none. The first argument that is no flag ends them, and so
does `--`.
-/

namespace DeltaLang.Cli

inductive FlagKind where
  | text
  | number
  | switch
  deriving DecidableEq, Repr

structure Flag where
  names : List String
  kind : FlagKind
  usage : String
  /-- The value of a text flag that is not given. -/
  default : String := ""
  deriving DecidableEq, Repr

inductive Value where
  | text (value : String)
  | number (value : Int)
  | switch (value : Bool)
  deriving DecidableEq, Repr

namespace Flag

/-- Why the flags of a call cannot be read. -/
inductive Fault where
  | badSyntax (argument : String)
  | undefined (name : String)
  | needsArgument (name : String)
  | badValue (value name reason : String)
  | badSwitch (value name : String)
  | twoForms (second first : String)
  deriving DecidableEq, Repr

namespace Fault

def message : Fault → String
  | .badSyntax argument => "bad flag syntax: " ++ argument
  | .undefined name => "flag provided but not defined: -" ++ name
  | .needsArgument name => "flag needs an argument: -" ++ name
  | .badValue value name reason =>
    "invalid value " ++ Quoted.quote value ++ " for flag -" ++ name ++ ": " ++ reason
  | .badSwitch value name =>
    "invalid boolean value " ++ Quoted.quote value ++ " for -" ++ name ++ ": parse error"
  | .twoForms second first =>
    "Cannot use two forms of the same flag: " ++ second ++ " " ++ first

end Fault

/-- The flags of a call by the names they were given with, the arguments behind them, and what was
wrong. -/
structure Call where
  values : List (String × Value)
  arguments : List String
  fault : Option Fault
  deriving DecidableEq, Repr

namespace Call

/-- The last value that was given for one of the names. -/
def value? (call : Call) (names : List String) : Option Value :=
  (call.values.filter (names.contains ·.1)).getLast?.map Prod.snd

def text (call : Call) (flag : Flag) : String :=
  match call.value? flag.names with
  | some (.text value) => value
  | _ => flag.default

def number (call : Call) (flag : Flag) : Int :=
  match call.value? flag.names with
  | some (.number value) => value
  | _ => 0

def switch (call : Call) (flag : Flag) : Bool :=
  match call.value? flag.names with
  | some (.switch value) => value
  | _ => false

/-- A flag that was given under two of its names. -/
def twoForms? (call : Call) (flags : List Flag) : Option Fault :=
  flags.findSome? fun flag =>
    match flag.names.filter fun name => call.values.any (·.1 == name) with
    | first :: second :: _ => some (.twoForms second first)
    | _ => none

end Call

/-- An argument that is a flag: its name, and the value behind `=`. -/
inductive Argument where
  | flag (name : String) (value : Option String)
  | endMark
  | other
  | malformed
  deriving DecidableEq, Repr

/-- What an argument is, and the name that it gives. The name has at least one character, and `=`
is not the first. -/
def argument (text : String) : Argument :=
  match text.toList with
  | ['-', '-'] => .endMark
  | '-' :: '-' :: name => named name
  | '-' :: c :: name => named (c :: name)
  | _ => .other
where
  named (name : List Char) : Argument :=
    match name with
    | '-' :: _ | '=' :: _ | [] => .malformed
    | c :: rest =>
      let more := rest.takeWhile (· ≠ '=')
      match rest.drop more.length with
      | [] => .flag (String.ofList (c :: more)) none
      | _ :: value => .flag (String.ofList (c :: more)) (some (String.ofList value))

/-- The value that a flag with a value is given. -/
def valueOf (kind : FlagKind) (name value : String) : Except Fault Value :=
  match kind with
  | .text => .ok (.text value)
  | .number =>
    match Integer.signed value.toList with
    | .ok n => .ok (.number n)
    | .error .malformed => .error (.badValue value name "parse error")
    | .error .outOfRange => .error (.badValue value name "value out of range")
  | .switch =>
    match Literal.boolean? value with
    | some b => .ok (.switch b)
    | none => .error (.badSwitch value name)

/-- Reads flags up to the first argument that is none. -/
def read (flags : List Flag) (arguments : List String) : Call :=
  match arguments with
  | [] => ⟨[], [], none⟩
  | text :: rest =>
    match argument text with
    | .other => ⟨[], text :: rest, none⟩
    | .endMark => ⟨[], rest, none⟩
    | .malformed => ⟨[], text :: rest, some (.badSyntax text)⟩
    | .flag name given =>
      match flags.find? (·.names.contains name) with
      | none => ⟨[], rest, some (.undefined name)⟩
      | some flag =>
        match given, flag.kind, rest with
        | some value, kind, rest => store name (valueOf kind name value) (read flags rest)
        | none, .switch, rest => store name (.ok (.switch true)) (read flags rest)
        | none, kind, value :: rest => store name (valueOf kind name value) (read flags rest)
        | none, _, [] => ⟨[], [], some (.needsArgument name)⟩
where
  /-- One more flag before those of a call. -/
  store (name : String) (value : Except Fault Value) (others : Call) : Call :=
    match value with
    | .ok value => { others with values := (name, value) :: others.values }
    | .error fault => ⟨[], others.arguments, some fault⟩

end Flag

end DeltaLang.Cli
