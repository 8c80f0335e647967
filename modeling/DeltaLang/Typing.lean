import DeltaLang.Error
import DeltaLang.Tree.Render

/-!
The type of an expression. A comparison is a Boolean and an assignment is void whatever their
operands are; only the operands of an addition matter, and they must agree.
-/

namespace DeltaLang

/-- The declared type of each variable in scope. -/
abbrev Env := String → Option Primitive

namespace Expr

def typeOf (env : Env) : Expr → Except Error Primitive
  | .var name =>
    match env name with
    | some type => .ok type
    | none => .error (.unknownVariable name)
  | .lit _ type => .ok type
  | .binary _ .greater _ => .ok .boolean
  | .binary _ .assign _ => .ok .void
  | .binary left .add right => do
    let leftType ← typeOf env left
    let rightType ← typeOf env right
    let text := (Expr.binary left .add right).render
    if leftType ≠ rightType then
      .error (.typeMismatch leftType rightType text)
    else if leftType = .void then
      .error (.typeMismatch .number .void text)
    else
      .ok leftType
  | .binary left (.other code) right =>
    .error (.unsupported (.expression (Expr.binary left (.other code) right).render))
  | .hole => .error (.unsupported (.expression Expr.hole.render))

end Expr

end DeltaLang
