import DeltaLang.Primitive

/-!
Syntax trees. A tree that some tool has built may lack a node; a hole stands in its place. The
parser makes no holes.
-/

namespace DeltaLang

/-- The operators of binary expressions. `other` holds a code that names no operator. -/
inductive Operator where
  | add
  | greater
  | assign
  | other (code : Int)
  deriving DecidableEq, Repr

namespace Operator

def ofCode (code : Int) : Operator :=
  if code = 0 then .add
  else if code = 1 then .greater
  else if code = 2 then .assign
  else .other code

def code : Operator → Int
  | .add => 0
  | .greater => 1
  | .assign => 2
  | .other code => code

end Operator

/-- An expression. A literal keeps the text it was written with; the text is given a value only
when code is generated. -/
inductive Expr where
  | hole
  | var (name : String)
  | lit (value : String) (type : Primitive)
  | binary (left : Expr) (op : Operator) (right : Expr)
  deriving DecidableEq, Inhabited, Repr

namespace Expr

/-- The expression of a statement `name = value;`. -/
def assignTo (name : String) (value : Expr) : Expr :=
  .binary (.var name) .assign value

/-- The variable that an assignment writes to. -/
def target? : Expr → Option String
  | .binary (.var name) .assign _ => some name
  | _ => none

end Expr

/-- A statement. `flowHole` is a statement for control flow that says no more. -/
inductive Stmt where
  | hole
  | declare (name : String) (value : Expr)
  | evaluate (expr : Expr)
  | branch (condition : Expr) (body : List Stmt)
  | flowHole
  deriving Inhabited, Repr

structure Function where
  name : String
  arguments : List String
  result : Option String
  body : List Stmt
  deriving Repr

inductive Module where
  | hole
  | functions (members : List Function)
  deriving Repr

namespace Module

/-- The functions of a module, none for a hole. -/
def members : Module → List Function
  | .hole => []
  | .functions members => members

end Module

end DeltaLang
