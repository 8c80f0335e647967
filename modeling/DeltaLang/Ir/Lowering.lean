import DeltaLang.Ir.Module
import DeltaLang.Log
import DeltaLang.Options
import DeltaLang.TypeInfo
import DeltaLang.Typing

/-!
Functions as LLVM IR. Every cell is allocated in the entry block. A branch ends the block at hand
and opens two more: one for its body, and one for all that follows it.
-/

namespace DeltaLang.Ir

/-- The cells of the variables declared so far, the latest first. -/
abbrev Bindings := List (String × Cell)

namespace Bindings

def env (bound : Bindings) : Env :=
  fun name => (bound.lookup name).map Cell.kind

def cellOf (bound : Bindings) (name : String) : Except Error Cell :=
  match bound.lookup name with
  | some cell => .ok cell
  | none => .error (.unknownVariable name)

end Bindings

/-- A function under construction: the blocks that are finished, the block at hand, the cells in
the order of their declarations, how often each name was declared, and how many temporaries and
branches there are so far. -/
structure State where
  blocks : List Block
  name : BlockName
  instrs : List Instr
  cells : List Cell
  bound : Bindings
  names : List (String × Nat)
  temps : Nat
  labels : Nat
  deriving DecidableEq, Repr

namespace State

def start : State :=
  ⟨[], .entry, [], [], [], [], 0, 0⟩

/-- Forgets the variables of a function, and counts names and branches from the start again. -/
def clear (state : State) : State :=
  { state with cells := [], bound := [], names := [], labels := 0 }

/-- Opens a function behind the one that the state was left by. -/
def enter (state : State) : State :=
  { state.clear with blocks := [], name := .entry, instrs := [], temps := 0 }

def emit (state : State) (instr : Instr) : State :=
  { state with instrs := state.instrs ++ [instr] }

/-- Adds an instruction that defines a temporary. -/
def define (state : State) (type : Ty) (instr : Temp → Instr) : Temp × State :=
  let result : Temp := ⟨state.temps, type⟩
  (result, { state.emit (instr result) with temps := state.temps + 1 })

def load (state : State) (cell : Cell) : Temp × State :=
  state.define cell.type (.load · cell)

/-- Ends the block at hand and opens another one. -/
def finish (state : State) (terminator : Terminator) (next : BlockName) : State :=
  { state with
    blocks := state.blocks ++ [⟨state.name, state.instrs, terminator⟩], name := next, instrs := [] }

/-- How often a name was declared so far. -/
def declared (state : State) (name : String) : Nat :=
  (state.names.lookup name).getD 0

/-- Keeps a cell behind the others, and counts its name. -/
def record (state : State) (cell : Cell) : State :=
  let name := cell.variableName
  { state with
    cells := state.cells ++ [cell], names := (name, state.declared name + 1) :: state.names }

/-- Adds a cell at the end of the entry block, before its terminator. -/
def allocate (state : State) (cell : Cell) : State :=
  let state := state.record cell
  match state.blocks with
  | [] => state.emit (.alloca cell)
  | entry :: rest =>
    { state with blocks := { entry with instrs := entry.instrs ++ [.alloca cell] } :: rest }

/-- The name of the cell of a new declaration: a name that was declared before is numbered. -/
def cellName (state : State) (name : String) : String :=
  match state.declared name with
  | 0 => name
  | n => name ++ "." ++ toString n

end State

/-- Stores a value in a cell. -/
def store (state : State) (value : Expr) (target : Cell) : Except Error State :=
  match value with
  | .lit text type =>
    if type ≠ target.kind then .error (.typeMismatch target.kind type text)
    else do
      let constant ← Literal.constant text type
      .ok (state.emit (.store (.constant constant) target))
  | .var name => do
    let source ← state.bound.cellOf name
    if source.kind ≠ target.kind then .error (.typeMismatch target.kind source.kind name)
    else
      let (loaded, state) := state.load source
      .ok (state.emit (.store (.temp loaded) target))
  | other => .error (.unsupported (.valueOf other.render target.variableName))

/-- The only expression that can be a statement is an assignment to a variable. -/
def assign (state : State) (e : Expr) : Except Error State :=
  match e with
  | .binary (.var name) .assign value => do
    let target ← state.bound.cellOf name
    store state value target
  | other => .error (.unsupported (.expressionStatement other.render))

/-- The cell for a declaration, which has the type of the declared value. -/
def newCell (state : State) (name : String) (value : Expr) : Except Error Cell := do
  let kind ← value.typeOf state.bound.env
  match Ty.ofPrimitive? kind with
  | none => .error (.invalidDeclarationType name kind)
  | some type => .ok ⟨state.cells.length, name, state.cellName name, kind, type⟩

def declare (state : State) (name : String) (value : Expr) : Except Error State := do
  let cell ← newCell state name value
  let state ← store (state.allocate cell) value cell
  .ok { state with bound := (name, cell) :: state.bound }

/-- One side of a comparison, which is a number in a literal or a variable. -/
def operand (state : State) (e comparison : Expr) : Except Error (Value × State) := do
  let type ← e.typeOf state.bound.env
  if type ≠ .number then .error (.typeMismatch .number type comparison.render)
  else
    match e with
    | .lit text type => do
      let constant ← Literal.constant text type
      .ok (.constant constant, state)
    | .var name => do
      let cell ← state.bound.cellOf name
      let (loaded, state) := state.load cell
      .ok (.temp loaded, state)
    | other => .error (.unsupported (.operand other.render comparison.render))

/-- The two sides of a condition, which has to be a comparison. -/
def operands (state : State) (condition : Expr) : Except Error (Value × Value × State) := do
  let type ← condition.typeOf state.bound.env
  if type ≠ .boolean then .error (.typeMismatch .boolean type condition.render)
  else
    match condition with
    | .binary left .greater right => do
      let (leftValue, state) ← operand state left condition
      let (rightValue, state) ← operand state right condition
      .ok (leftValue, rightValue, state)
    | other => .error (.unsupported (.condition other.render))

/-- The body of a branch holds assignments only. -/
def branchBody (state : State) : List Stmt → Except Error State
  | [] => .ok state
  | .evaluate e :: rest => do
    let state ← assign state e
    branchBody state rest
  | .declare name _ :: _ => .error (.unsupported (.nestedDeclaration name))
  | _ :: _ => .error (.unsupported .nestedFlow)

def statement (state : State) : Stmt → Except Error State
  | .declare name value => declare state name value
  | .evaluate e => assign state e
  | .branch condition body => do
    let (left, right, state) ← operands state condition
    let thenName := BlockName.thenBranch state.labels
    let endName := BlockName.endif state.labels
    let state := { state with labels := state.labels + 1 }
    let (compared, state) := state.define .i1 (.icmpUgt · left right)
    let state := state.finish (.condBr compared thenName endName) thenName
    let state ← branchBody state body
    .ok (state.finish (.br endName) endName)
  | other => .error (.unsupported (.statement other.describe))

def statements : State → List Stmt → Except Error State
  | state, [] => .ok state
  | state, s :: rest => do
    let state ← statement state s
    statements state rest

def dumpGlobal (owner : String) (cell : Cell) : Global :=
  ⟨"dump." ++ owner ++ "." ++ toString cell.index,
    Utf8.encode (cell.variableName ++ " = %u\n") ++ [0]⟩

/-- Prints the variable of a cell. -/
def dumpCell (owner : String) (state : State) (cell : Cell) : State :=
  let (loaded, state) := state.load cell
  let (value, state) :=
    if cell.kind = .boolean then state.define .i32 (.zext · loaded) else (loaded, state)
  let (format, state) := state.define .pointer (.bitcast · (dumpGlobal owner cell))
  (state.define .i32 (.printf · format value)).2

def close (state : State) (terminator : Terminator) : List Block :=
  state.blocks ++ [⟨state.name, state.instrs, terminator⟩]

/-- The definition that the statements of a function end in, and the texts that it prints with. -/
def finished (options : Options) (f : Function) (state : State) : Definition × List Global :=
  if f.name ≠ options.entryName then (⟨f.name, false, close state .ret⟩, [])
  else
    let dumped := if options.dumpLocals then state.cells else []
    let state := dumped.foldl (dumpCell f.name) state
    (⟨f.name, true, close (state.emit (.exit options.exitCode)) .unreachable⟩,
      dumped.map (dumpGlobal f.name))

/-- What is handed on from function to function: the module so far, and the state that the last
function was left in. -/
structure Context where
  module : Module
  state : State
  deriving DecidableEq, Repr

namespace Context

def start : Context :=
  ⟨⟨[], []⟩, .start⟩

/-- Adds a function to the module. -/
def function (options : Options) (context : Context) (f : Function) : Except Error Context :=
  if !f.arguments.isEmpty then .error (.unsupported (.arguments f.name))
  else do
    let state ← statements context.state.enter f.body
    let (definition, globals) := finished options f state
    .ok ⟨context.module.add definition globals, state⟩

def functions (options : Options) : Context → List Function → Except Error Context
  | context, [] => .ok context
  | context, f :: rest => do
    let context ← context.function options f
    functions options context rest

end Context

/-- The type information of a module as a global of the generated one. -/
def typeGlobal (m : DeltaLang.Module) : Global :=
  ⟨TypeInfo.symbol, (TypeInfo.ofFunctions m.members).bytes⟩

def generate (options : Options) (m : DeltaLang.Module) : Except Error Module := do
  m.check options
  let context ← Context.start.functions options m.members
  .ok { context.module with globals := context.module.globals ++ [typeGlobal m] }

/-! What the generator logs on the way, up to the first fault. -/

def cellEntry (owner : String) (cell : Cell) : Log.Entry :=
  ⟨.debug, "irgen",
    owner ++ ": " ++ cell.variableName ++ " " ++ cell.kind.name ++ " as %" ++ cell.name⟩

def statementLog (owner : String) (state : State) : Stmt → List Log.Entry
  | .declare name value =>
    match newCell state name value with
    | .ok cell => [cellEntry owner cell]
    | .error _ => []
  | _ => []

def statementsLog (owner : String) : State → List Stmt → List Log.Entry
  | _, [] => []
  | state, s :: rest =>
    statementLog owner state s ++
      match statement state s with
      | .ok state => statementsLog owner state rest
      | .error _ => []

def functionsLog (options : Options) : Context → List Function → List Log.Entry
  | _, [] => []
  | context, f :: rest =>
    (if f.arguments.isEmpty then statementsLog f.name context.state.enter f.body else []) ++
      match context.function options f with
      | .ok context => functionsLog options context rest
      | .error _ => []

def log (options : Options) (m : DeltaLang.Module) : List Log.Entry :=
  match m.check options with
  | .ok _ => functionsLog options .start m.members
  | .error _ => []

end DeltaLang.Ir
