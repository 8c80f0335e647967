import DeltaLang.Ir.Token

/-!
Reading IR text. Of a module only its globals are kept; its functions are checked for their
grammar, for names that are taken twice or belong to nothing, and for the order of their numbers.
-/

namespace DeltaLang.Ir.Reader

/-- A reader takes tokens from the front of a list, and may refuse. -/
abbrev Read := StateT (List Token) Option

def refuse {α : Type} : Read α :=
  fun _ => none

def token : Read Token := do
  match ← get with
  | [] => refuse
  | t :: rest =>
    set rest
    pure t

def peek : Read (Option Token) := do
  return (← get).head?

def expect (t : Token) : Read Unit := do
  if (← token) = t then pure () else refuse

/-- Takes a token if it is the next one. -/
def accept (t : Token) : Read Bool := do
  if (← peek) = some t then
    discard token
    pure true
  else pure false

def punct (c : Char) : Read Unit :=
  expect (.punctuation c)

def acceptPunct (c : Char) : Read Bool :=
  accept (.punctuation c)

/-- Takes the next token if it is one of the given words. -/
def acceptWord (words : List String) : Read (Option String) := do
  match ← peek with
  | some (.word w) =>
    if w ∈ words then
      discard token
      pure (some w)
    else pure none
  | _ => pure none

/-- Takes one of the given words if it is the next token. -/
def optionalWord (words : List String) : Read Unit :=
  discard (acceptWord words)

def quotation : Read (List UInt8) := do
  match ← token with
  | .string bytes => pure bytes
  | _ => refuse

/-- Takes words as long as they are among the given ones. -/
def skipWords (words : List String) : Read Unit :=
  modify fun tokens => tokens.dropWhile fun t =>
    match t with
    | .word w => w ∈ words
    | _ => false

/-- The types of IR text. -/
inductive Ty where
  | void
  | int (bits : Nat)
  | float (name : String)
  | label
  | pointer (target : Ty)
  | array (length : Nat) (element : Ty)
  | function (result : Ty)
  deriving DecidableEq, Repr, Inhabited

def namedType? (word : String) : Option Ty :=
  if word = "void" then some .void
  else if word ∈ ["half", "float", "double", "fp128", "x86_fp80", "ppc_fp128"] then
    some (.float word)
  else (intBits? word.toList).map .int

mutual

/-- A type with all that may follow it: stars, and the parameters of a function type. -/
def type (fuel : Nat) : Read Ty :=
  match fuel with
  | 0 => refuse
  | fuel + 1 => do
    match ← token with
    | .word w =>
      match namedType? w with
      | some t => typeSuffix fuel t
      | none => refuse
    | .punctuation '[' =>
      match ← token with
      | .count length =>
        expect (.word "x")
        let element ← type fuel
        punct ']'
        typeSuffix fuel (.array length element)
      | _ => refuse
    | _ => refuse

def typeSuffix (fuel : Nat) (t : Ty) : Read Ty :=
  match fuel with
  | 0 => refuse
  | fuel + 1 => do
    match ← peek with
    | some (.punctuation '*') =>
      discard token
      typeSuffix fuel (.pointer t)
    | some (.punctuation '(') =>
      discard token
      paramTypes fuel
      typeSuffix fuel (.function t)
    | _ => pure t

/-- The parameters of a function type, up to the closing parenthesis. -/
def paramTypes (fuel : Nat) : Read Unit :=
  match fuel with
  | 0 => refuse
  | fuel + 1 => do
    match ← peek with
    | some (.punctuation ')') => discard token
    | some .ellipsis =>
      discard token
      punct ')'
    | _ =>
      discard (type fuel)
      if ← acceptPunct ',' then paramTypes fuel else punct ')'

end

/-- A type that is no function type, as the result of a function has it: the parenthesis after it
belongs to the function. -/
def resultType (fuel : Nat) : Read Ty := do
  match ← token with
  | .word w =>
    match namedType? w with
    | some t => stars fuel t
    | none => refuse
  | .punctuation '[' =>
    match ← token with
    | .count length =>
      expect (.word "x")
      let element ← type fuel
      punct ']'
      stars fuel (.array length element)
    | _ => refuse
  | _ => refuse
where
  stars : Nat → Ty → Read Ty
    | 0, _ => refuse
    | fuel + 1, t => do
      if ← acceptPunct '*' then stars fuel (.pointer t) else pure t

/-- What a constant tells about the global that it is the value of: its bytes if it is a character
array, or else the globals it refers to. -/
inductive Init where
  | chars (bytes : List UInt8)
  | other (uses : List Ident)
  deriving DecidableEq, Repr

def Init.uses : Init → List Ident
  | .chars _ => []
  | .other uses => uses

mutual

/-- A constant of the given type. -/
def constant (fuel : Nat) (t : Ty) : Read Init :=
  match fuel with
  | 0 => refuse
  | fuel + 1 => do
    match ← token, t with
    | .count _, .int _ | .integer, .int _ | .float, .float _ | .word "null", .pointer _ =>
      pure (.other [])
    | .word "true", .int 1 | .word "false", .int 1 => pure (.other [])
    | .word "zeroinitializer", _ | .word "undef", _ => pure (.other [])
    | .globalIdent ident, .pointer _ => pure (.other [ident])
    | .word "c", .array length (.int 8) =>
      let bytes ← quotation
      if bytes.length = length then pure (.chars bytes) else refuse
    | .punctuation '[', .array _ _ =>
      if ← acceptPunct ']' then pure (.other []) else return .other (← elements fuel)
    | _, _ => refuse

/-- The elements of an array, up to the closing bracket, with the globals they refer to. -/
def elements (fuel : Nat) : Read (List Ident) :=
  match fuel with
  | 0 => refuse
  | fuel + 1 => do
    let t ← type fuel
    let first ← constant fuel t
    if ← acceptPunct ',' then
      let rest ← elements fuel
      pure (first.uses ++ rest)
    else
      punct ']'
      pure first.uses

end

/-- What a function body says about names: the values it defines, in order, with none for a value
without name and number, and the names it uses. -/
structure Names where
  defined : List (Option Ident) := []
  locals : List Ident := []
  globals : List Ident := []

instance : Append Names :=
  ⟨fun a b => ⟨a.defined ++ b.defined, a.locals ++ b.locals, a.globals ++ b.globals⟩⟩

/-- A value of the given type. -/
def value (fuel : Nat) (t : Ty) : Read Names := do
  match ← peek with
  | some (.localIdent ident) =>
    discard token
    pure ⟨[], [ident], []⟩
  | some (.globalIdent ident) =>
    discard token
    pure ⟨[], [], [ident]⟩
  | _ =>
    let constant ← constant fuel t
    pure ⟨[], [], constant.uses⟩

def typedValue (fuel : Nat) : Read Names := do
  let t ← type fuel
  value fuel t

def blockName : Read Names := do
  expect (.word "label")
  match ← token with
  | .localIdent ident => pure ⟨[], [ident], []⟩
  | _ => refuse

/-- The arguments of a call, up to the closing parenthesis. -/
def arguments (fuel : Nat) : Read Names :=
  match fuel with
  | 0 => refuse
  | fuel + 1 => do
    if ← acceptPunct ')' then pure ⟨[], [], []⟩
    else
      let first ← typedValue (fuel + 1)
      if ← acceptPunct ',' then
        let rest ← arguments fuel
        pure (first ++ rest)
      else
        punct ')'
        pure first

def binaryOperators : List String :=
  ["add", "sub", "mul", "udiv", "sdiv", "urem", "srem", "shl", "lshr", "ashr", "and", "or", "xor",
    "fadd", "fsub", "fmul", "fdiv", "frem"]

def conversions : List String :=
  ["trunc", "zext", "sext", "bitcast", "ptrtoint", "inttoptr", "fptrunc", "fpext", "fptoui",
    "fptosi", "uitofp", "sitofp"]

def predicates : List String :=
  ["eq", "ne", "ugt", "uge", "ult", "ule", "sgt", "sge", "slt", "sle"]

/-- The end of an instruction, an alignment if there is one. -/
def alignment : Read Unit := do
  if (← get).take 2 = [.punctuation ',', .word "align"] then
    discard token
    discard token
    match ← token with
    | .count _ => pure ()
    | _ => refuse

/-- An instruction from its name on, with whether it has a value. -/
def operation (fuel : Nat) (name : String) : Read (Names × Bool) := do
  if name = "alloca" then
    discard (type fuel)
    alignment
    pure (⟨[], [], []⟩, true)
  else if name = "load" then
    discard (type fuel)
    punct ','
    let source ← typedValue fuel
    alignment
    pure (source, true)
  else if name = "store" then
    let stored ← typedValue fuel
    punct ','
    let target ← typedValue fuel
    alignment
    pure (stored ++ target, false)
  else if name = "icmp" then
    match ← acceptWord predicates with
    | none => refuse
    | some _ =>
      let t ← type fuel
      let left ← value fuel t
      punct ','
      let right ← value fuel t
      pure (left ++ right, true)
  else if name ∈ binaryOperators then
    skipWords ["nuw", "nsw", "exact"]
    let t ← type fuel
    let left ← value fuel t
    punct ','
    let right ← value fuel t
    pure (left ++ right, true)
  else if name ∈ conversions then
    let source ← typedValue fuel
    expect (.word "to")
    discard (type fuel)
    pure (source, true)
  else if name = "call" then
    let t ← type fuel
    match ← token with
    | .globalIdent callee =>
      punct '('
      let given ← arguments fuel
      let result := match t with
        | .function result => result
        | t => t
      pure (⟨[], [], [callee]⟩ ++ given, result != .void)
    | _ => refuse
  else refuse

/-- The last instruction of a block, from its name on. -/
def terminator (fuel : Nat) (name : String) : Read Names := do
  if name = "ret" then
    let t ← type fuel
    if t = .void then pure ⟨[], [], []⟩ else value fuel t
  else if name = "br" then
    if (← peek) = some (.word "label") then blockName
    else
      let condition ← typedValue fuel
      punct ','
      let first ← blockName
      punct ','
      let second ← blockName
      pure (condition ++ first ++ second)
  else if name = "unreachable" then pure ⟨[], [], []⟩
  else refuse

def terminators : List String :=
  ["ret", "br", "unreachable"]

/-- The instructions of a block, up to its terminator. -/
def instructions (fuel : Nat) : Read Names :=
  match fuel with
  | 0 => refuse
  | fuel + 1 => do
    match ← token with
    | .localIdent ident =>
      punct '='
      match ← token with
      | .word name =>
        let (used, hasValue) ← operation (fuel + 1) name
        if hasValue then
          let rest ← instructions fuel
          pure (used ++ ⟨[some ident], [], []⟩ ++ rest)
        else refuse
      | _ => refuse
    | .word name =>
      if name ∈ terminators then terminator (fuel + 1) name
      else
        let (used, hasValue) ← operation (fuel + 1) name
        let rest ← instructions fuel
        pure (used ++ ⟨if hasValue then [none] else [], [], []⟩ ++ rest)
    | _ => refuse

/-- The blocks of a function, up to the closing brace. A function has at least one. -/
def blocks (fuel : Nat) : Read Names :=
  match fuel with
  | 0 => refuse
  | fuel + 1 => do
    let label ← peek
    let name : Option Ident ← match label with
      | some (.label ident) => do
        discard token
        pure (some ident)
      | _ => pure none
    let names ← instructions (fuel + 1)
    let block : Names := ⟨[name], [], []⟩ ++ names
    if ← acceptPunct '\x7d' then pure block
    else
      let rest ← blocks fuel
      pure (block ++ rest)

/-- The parameters of a function, up to the closing parenthesis. -/
def parameters (fuel : Nat) : Read (List (Option Ident)) :=
  match fuel with
  | 0 => refuse
  | fuel + 1 => do
    if ← acceptPunct ')' then pure []
    else if ← accept .ellipsis then
      punct ')'
      pure []
    else
      discard (type (fuel + 1))
      skipWords parameterAttributes
      let name : Option Ident ← match ← peek with
        | some (.localIdent ident) => do
          discard token
          pure (some ident)
        | _ => pure none
      if ← acceptPunct ',' then
        let rest ← parameters fuel
        pure (name :: rest)
      else
        punct ')'
        pure [name]

/-- The names of the values of a function, in order. A value without a name takes the next number,
and a number that is written out has to be that one. -/
def number : Nat → List (Option Ident) → Option (List Ident)
  | _, [] => some []
  | next, none :: rest => do
    let others ← number (next + 1) rest
    some (.numbered next :: others)
  | next, some (.numbered n) :: rest => do
    if n = next then
      let others ← number (next + 1) rest
      some (.numbered n :: others)
    else none
  | next, some ident :: rest => do
    let others ← number next rest
    some (ident :: others)

def noRepeats : List Ident → Bool
  | [] => true
  | ident :: rest => !rest.contains ident && noRepeats rest

/-- Attributes that stand behind a global or the parameters of a function: words, and texts with a
value or without. -/
def attributes (fuel : Nat) : Read Unit :=
  match fuel with
  | 0 => refuse
  | fuel + 1 => do
    match ← peek with
    | some (.string _) =>
      discard token
      if ← acceptPunct '=' then discard quotation
      attributes fuel
    | some (.word w) =>
      if w ∈ functionAttributes then
        discard token
        attributes fuel
      else pure ()
    | _ => pure ()

/-- A number in parentheses. -/
def measure : Read Unit := do
  punct '('
  match ← token with
  | .count _ => punct ')'
  | _ => refuse

/-- A global or a function: its name, its value, which globals have, and the globals it uses. -/
structure Entity where
  ident : Ident
  init : Option Init
  isGlobal : Bool
  uses : List Ident

def linkages : List String :=
  ["private", "internal", "available_externally", "linkonce", "weak", "common", "appending",
    "linkonce_odr", "weak_odr"]

def externals : List String :=
  ["external", "extern_weak"]

/-- How a global or a function is linked. -/
def linking : Read Unit := do
  optionalWord ["dso_local", "dso_preemptable"]
  optionalWord ["default", "hidden", "protected"]
  optionalWord ["dllexport", "dllimport"]

/-- Whether each thread has its own copy of a global, and how it is found. -/
def threadLocal : Read Unit := do
  if (← acceptWord ["thread_local"]).isSome then
    if ← acceptPunct '(' then
      match ← acceptWord ["localdynamic", "initialexec", "localexec"] with
      | some _ => punct ')'
      | none => refuse

def addressSpace : Read Unit := do
  if (← acceptWord ["addrspace"]).isSome then measure

/-- Where a global is placed. -/
def placement (fuel : Nat) : Read Unit :=
  match fuel with
  | 0 => refuse
  | fuel + 1 => do
    if ← acceptPunct ',' then
      match ← token with
      | .word "section" | .word "partition" => discard quotation
      | .word "align" =>
        match ← token with
        | .count _ => pure ()
        | _ => refuse
      | _ => refuse
      placement fuel

/-- A global, from behind its name. -/
def globalEntity (fuel : Nat) (ident : Ident) : Read Entity := do
  punct '='
  let isExternal := (← acceptWord externals).isSome
  if !isExternal then optionalWord linkages
  linking
  threadLocal
  optionalWord ["unnamed_addr", "local_unnamed_addr"]
  addressSpace
  optionalWord ["externally_initialized"]
  match ← acceptWord ["global", "constant"] with
  | none => refuse
  | some _ =>
    let t ← type fuel
    let init ← if isExternal then pure none else do
      let init ← constant fuel t
      pure (some init)
    placement fuel
    attributes fuel
    pure ⟨ident, init, true, (init.map Init.uses).getD []⟩

/-- The head of a function: its name and its parameters. -/
def header (fuel : Nat) : Read (Ident × List (Option Ident)) := do
  optionalWord (linkages ++ externals)
  linking
  optionalWord conventions
  skipWords parameterAttributes
  discard (resultType fuel)
  match ← token with
  | .globalIdent ident =>
    punct '('
    let params ← parameters fuel
    optionalWord ["unnamed_addr", "local_unnamed_addr"]
    addressSpace
    attributes fuel
    pure (ident, params)
  | _ => refuse

def declareEntity (fuel : Nat) : Read Entity := do
  let (ident, _) ← header fuel
  pure ⟨ident, none, false, []⟩

/-- A function definition. Its names are used for one value each, and every name that it uses is
defined. -/
def defineEntity (fuel : Nat) : Read Entity := do
  let (ident, params) ← header fuel
  punct '\x7b'
  let body ← blocks fuel
  match number 0 (params ++ body.defined) with
  | none => refuse
  | some idents =>
    if noRepeats idents && body.locals.all idents.contains then
      pure ⟨ident, none, false, body.globals⟩
    else refuse

/-- A line that says something about the module as a whole. -/
def property : Read Unit := do
  punct '='
  discard quotation

/-- The globals and functions of a module, up to the end. -/
def entities (fuel : Nat) : Read (List Entity) :=
  match fuel with
  | 0 => refuse
  | fuel + 1 => do
    if (← get).isEmpty then pure []
    else
      match ← token with
      | .globalIdent ident =>
        let first ← globalEntity (fuel + 1) ident
        let rest ← entities fuel
        pure (first :: rest)
      | .word "declare" =>
        let first ← declareEntity (fuel + 1)
        let rest ← entities fuel
        pure (first :: rest)
      | .word "define" =>
        let first ← defineEntity (fuel + 1)
        let rest ← entities fuel
        pure (first :: rest)
      | .word "source_filename" =>
        property
        entities fuel
      | .word "target" =>
        match ← acceptWord ["datalayout", "triple"] with
        | some _ =>
          property
          entities fuel
        | none => refuse
      | _ => refuse

/-- A global as it was read: its name, and its bytes if its value is a character array. -/
structure ReadGlobal where
  ident : Ident
  chars : Option (List UInt8)
  deriving DecidableEq, Repr

def Entity.global? (e : Entity) : Option ReadGlobal :=
  if e.isGlobal then
    match e.init with
    | some (.chars bytes) => some ⟨e.ident, some bytes⟩
    | _ => some ⟨e.ident, none⟩
  else none

/-- The globals of a module. No name may be taken twice, and every global that is used must
exist. -/
def globals? (text : List UInt8) : Option (List ReadGlobal) := do
  let tokens := Token.ofBytes text
  let (found, _) ← (entities (tokens.length + 1)).run tokens
  let idents := found.map Entity.ident
  if noRepeats idents && found.all (fun e => e.uses.all idents.contains) then
    some (found.filterMap Entity.global?)
  else none

end DeltaLang.Ir.Reader
