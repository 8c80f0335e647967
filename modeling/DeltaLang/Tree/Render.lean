import DeltaLang.Tree

/-!
Trees as source text. A hole of an expression or of control flow is written `<nil>`; a hole of a
statement is left out of the body it belongs to.
-/

namespace DeltaLang

def Operator.spelling : Operator → String
  | .add => "+"
  | .greater => ">"
  | .assign => "="
  | .other code => "BinaryOperator(" ++ toString code ++ ")"

def Expr.render : Expr → String
  | .hole => "<nil>"
  | .var name => name
  | .lit value _ => value
  | .binary left op right => left.render ++ " " ++ op.spelling ++ " " ++ right.render

mutual

/-- The text of a statement, none for a hole. -/
def Stmt.render? : Stmt → Option String
  | .hole => none
  | .declare name value => some ("let " ++ name ++ " = " ++ value.render ++ ";")
  | .evaluate expr => some (expr.render ++ ";")
  | .branch condition body =>
    some ("if " ++ condition.render ++ " \x7b " ++ " ".intercalate (renderAll body) ++ " \x7d")
  | .flowHole => some "<nil>"

/-- The texts of the statements of a body, without its holes. -/
def Stmt.renderAll : List Stmt → List String
  | [] => []
  | s :: rest => s.render?.toList ++ renderAll rest

end

namespace Stmt

def renderBody (body : List Stmt) : String :=
  " ".intercalate (renderAll body)

/-- The text of a statement in a diagnostic. -/
def describe (s : Stmt) : String :=
  s.render?.getD "%!s(<nil>)"

end Stmt

namespace Function

def render (f : Function) : String :=
  "fn " ++ f.name ++ "()" ++ (f.result.map (" -> " ++ ·)).getD "" ++
    " \x7b " ++ Stmt.renderBody f.body ++ " \x7d"

end Function

end DeltaLang
