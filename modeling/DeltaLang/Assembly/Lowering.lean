import DeltaLang.Assembly.Program
import DeltaLang.Frame
import DeltaLang.Literal
import DeltaLang.Log
import DeltaLang.Options

/-!
Functions as assembly. A value is stored straight from a literal or a variable; whatever would
have to be evaluated first is refused. Nothing is generated unless every function can be.
-/

namespace DeltaLang.Assembly

/-- The slots of the variables declared so far, the latest first. -/
abbrev Bindings := List (String × Slot)

namespace Bindings

def env (bound : Bindings) : Env :=
  fun name => (bound.lookup name).map Slot.type

def slotOf (bound : Bindings) (name : String) : Except Error Slot :=
  match bound.lookup name with
  | some slot => .ok slot
  | none => .error (.unknownVariable name)

end Bindings

/-- The width of the instructions that move the value of a slot. -/
def moveWidth (s : Slot) : Width :=
  if s.width = 1 then .byte else .long

/-- Stores a value in a slot. -/
def store (bound : Bindings) (value : Expr) (target : Slot) : Except Error (List Instr) :=
  match value with
  | .lit text type =>
    if type ≠ target.type then .error (.typeMismatch target.type type text)
    else do
      let constant ← Literal.constant text type
      .ok [.mov (moveWidth target) (.immediate constant.toNat) (.frame target.offset)]
  | .var name => do
    let source ← bound.slotOf name
    if source.type ≠ target.type then .error (.typeMismatch target.type source.type name)
    else
      .ok [.mov (moveWidth target) (.frame source.offset) (.register .rax),
        .mov (moveWidth target) (.register .rax) (.frame target.offset)]
  | other => .error (.unsupported (.valueOf other.render target.name))

/-- The only expression that can be a statement is an assignment to a variable. -/
def assign (bound : Bindings) (e : Expr) : Except Error (List Instr) :=
  match e with
  | .binary (.var name) .assign value => do
    let target ← bound.slotOf name
    store bound value target
  | other => .error (.unsupported (.expressionStatement other.render))

/-- One side of a comparison, which is a number in a literal or a variable. -/
def operand (bound : Bindings) (e comparison : Expr) : Except Error Operand := do
  let type ← e.typeOf bound.env
  if type ≠ .number then .error (.typeMismatch .number type comparison.render)
  else
    match e with
    | .lit text type => do
      let constant ← Literal.constant text type
      .ok (.immediate constant.toNat)
    | .var name => do
      let slot ← bound.slotOf name
      .ok (.frame slot.offset)
    | other => .error (.unsupported (.operand other.render comparison.render))

/-- The two sides of a condition, which has to be a comparison. -/
def operands (bound : Bindings) (condition : Expr) : Except Error (Operand × Operand) := do
  let type ← condition.typeOf bound.env
  if type ≠ .boolean then .error (.typeMismatch .boolean type condition.render)
  else
    match condition with
    | .binary left .greater right => do
      let leftOperand ← operand bound left condition
      let rightOperand ← operand bound right condition
      .ok (leftOperand, rightOperand)
    | other => .error (.unsupported (.condition other.render))

/-- The body of a branch holds assignments only. -/
def branchBody (bound : Bindings) : List Stmt → Except Error (List Instr)
  | [] => .ok []
  | .evaluate e :: rest => do
    let first ← assign bound e
    let others ← branchBody bound rest
    .ok (first ++ others)
  | .declare name _ :: _ => .error (.unsupported (.nestedDeclaration name))
  | _ :: _ => .error (.unsupported .nestedFlow)

/-- `next` counts the declarations so far, and `labels` the branches. -/
structure State where
  next : Nat
  bound : Bindings
  labels : Nat
  deriving DecidableEq, Repr

namespace State

def start : State :=
  ⟨0, [], 0⟩

end State

/-- The lines of a statement of the function `owner` with the given slots, and the state after. -/
def statement (owner : String) (slots : List Slot) (state : State) :
    Stmt → Except Error (List Line × State)
  | .declare name value =>
    match slots[state.next]? with
    | none => .error (.missingSlot state.next)
    | some slot => do
      let code ← store state.bound value slot
      .ok (code.map .instr,
        { state with next := state.next + 1, bound := (name, slot) :: state.bound })
  | .evaluate e => do
    let code ← assign state.bound e
    .ok (code.map .instr, state)
  | .branch condition body => do
    let (left, right) ← operands state.bound condition
    let label := Label.endif owner state.labels
    let code ← branchBody state.bound body
    .ok ([.instr (.mov .long left (.register .rax)), .instr (.cmpl right .rax),
        .instr (.jbe label)] ++ code.map .instr ++ [.label label],
      { state with labels := state.labels + 1 })
  | other => .error (.unsupported (.statement other.describe))

def statements (owner : String) (slots : List Slot) :
    State → List Stmt → Except Error (List Line × State)
  | state, [] => .ok ([], state)
  | state, s :: rest => do
    let (first, state) ← statement owner slots state s
    let (others, state) ← statements owner slots state rest
    .ok (first ++ others, state)

/-- Prints the variable in the slot with the given index. -/
def dumpSlot (owner : String) (index : Nat) (slot : Slot) : List Instr :=
  [.lea (.dump owner index) .rdi,
    if slot.width = 1 then .movzbl (.frame slot.offset) .rsi
    else .mov .long (.frame slot.offset) (.register .rsi),
    .clear .rax, .call "printf"]

def dumpText (owner : String) (index : Nat) (slot : Slot) : Line :=
  .string (.dump owner index) (slot.name ++ " = %u\n")

def dumpCode (owner : String) (slots : List Slot) : List Instr :=
  (slots.zipIdx.map fun (slot, index) => dumpSlot owner index slot).flatten

def dumpData (owner : String) (slots : List Slot) : List Line :=
  slots.zipIdx.map fun (slot, index) => dumpText owner index slot

def prologue (name : String) (frame : Frame) : List Line :=
  [.directive (".globl " ++ name), .label (.function name), .instr (.push .rbp),
    .instr (.mov .quad (.register .rsp) (.register .rbp)), .instr (.sub frame.size .rsp)]

def function (options : Options) (f : Function) : Except Error Program :=
  if !f.arguments.isEmpty then .error (.unsupported (.arguments f.name))
  else do
    let frame ← Frame.layout f.body
    let (body, _) ← statements f.name frame.slots .start f.body
    let code := prologue f.name frame ++ body
    if f.name ≠ options.entryName then
      .ok ⟨code ++ [.instr .leave, .instr .ret], []⟩
    else
      let dumped := if options.dumpLocals then frame.slots else []
      .ok ⟨code ++ (dumpCode f.name dumped).map .instr ++ exitLines options.exitCode,
        dumpData f.name dumped⟩

def functions (options : Options) : List Function → Except Error Program
  | [] => .ok ⟨[], []⟩
  | f :: rest => do
    let first ← function options f
    let others ← functions options rest
    .ok ⟨first.code ++ others.code, first.data ++ others.data⟩

def generate (options : Options) (m : Module) : Except Error Program := do
  m.check options
  functions options m.members

/-! What the generator logs on the way, up to the first fault. -/

def slotEntry (owner : String) (slot : Slot) : Log.Entry :=
  ⟨.debug, "codegen", owner ++ ": " ++ slot.name ++ " " ++ slot.type.name ++ " at " ++ slot.operand⟩

def labelEntry (label : Label) : Log.Entry :=
  ⟨.trace, "codegen", "allocated label " ++ label.text⟩

def statementLog (owner : String) (state : State) : Stmt → List Log.Entry
  | .branch condition _ =>
    match operands state.bound condition with
    | .ok _ => [labelEntry (.endif owner state.labels)]
    | .error _ => []
  | _ => []

def statementsLog (owner : String) (slots : List Slot) : State → List Stmt → List Log.Entry
  | _, [] => []
  | state, s :: rest =>
    statementLog owner state s ++
      match statement owner slots state s with
      | .ok (_, state) => statementsLog owner slots state rest
      | .error _ => []

def functionLog (f : Function) : List Log.Entry :=
  if !f.arguments.isEmpty then []
  else
    (Frame.placed f.body).map (slotEntry f.name) ++
      match Frame.layout f.body with
      | .ok frame => statementsLog f.name frame.slots .start f.body
      | .error _ => []

def functionsLog (options : Options) : List Function → List Log.Entry
  | [] => []
  | f :: rest =>
    functionLog f ++
      match function options f with
      | .ok _ => functionsLog options rest
      | .error _ => []

def log (options : Options) (m : Module) : List Log.Entry :=
  match m.check options with
  | .ok _ => functionsLog options m.members
  | .error _ => []

end DeltaLang.Assembly
