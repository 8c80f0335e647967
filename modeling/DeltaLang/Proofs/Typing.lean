import DeltaLang.Proofs.Acceptance
import DeltaLang.Typing

namespace DeltaLang.Expr

def isSum : Expr → Bool
  | .binary _ .add _ => true
  | _ => false

/-- The operands of the additions at the top of an expression, from left to right. An expression
that is no addition is its own only summand. -/
def summands : Expr → List Expr
  | .binary left .add right => left.summands ++ right.summands
  | e => [e]

/-- The type of an expression that is no addition, as far as it has one. -/
def summandType? (env : Env) : Expr → Option Primitive
  | .var name => env name
  | .lit _ type => some type
  | .binary _ .greater _ => some .boolean
  | .binary _ .assign _ => some .void
  | _ => none

theorem summands_of_not_isSum {e : Expr} (single : e.isSum = false) : e.summands = [e] := by
  cases e with
  | binary left op right =>
    cases op with
    | add => cases single
    | greater | assign | other => rfl
  | hole | var | lit => rfl

theorem typeOf_sum_eq_ok {env : Env} {left right : Expr} {type : Primitive} :
    (Expr.binary left .add right).typeOf env = .ok type ↔
      left.typeOf env = .ok type ∧ right.typeOf env = .ok type ∧ type ≠ .void := by
  simp only [typeOf, bind_eq_ok]
  constructor
  · rintro ⟨leftType, isLeft, rightType, isRight, joined⟩
    split at joined
    · cases joined
    · next same =>
      split at joined
      · cases joined
      · next filled =>
        cases joined
        rw [← not_not.mp same] at isRight
        exact ⟨isLeft, isRight, filled⟩
  · rintro ⟨isLeft, isRight, filled⟩
    exact ⟨type, isLeft, type, isRight, by simp [filled]⟩

theorem typeOf_single_eq_ok {env : Env} {e : Expr} (single : e.isSum = false) {type : Primitive} :
    e.typeOf env = .ok type ↔ e.summandType? env = some type := by
  cases e with
  | hole => simp [typeOf, summandType?]
  | lit value declared => simp [typeOf, summandType?]
  | var name =>
    simp only [typeOf, summandType?]
    cases env name <;> simp
  | binary left op right =>
    cases op with
    | add => cases single
    | greater | assign | other => simp [typeOf, summandType?]

theorem typeOf_single_iff {env : Env} {e : Expr} (single : e.isSum = false) {type : Primitive} :
    e.typeOf env = .ok type ↔
      (∀ s ∈ e.summands, s.summandType? env = some type) ∧ (e.isSum = false ∨ type ≠ .void) := by
  rw [summands_of_not_isSum single, List.forall_mem_singleton, typeOf_single_eq_ok single]
  exact ⟨fun typed => ⟨typed, .inl single⟩, And.left⟩

theorem typeOf_eq_ok_iff {env : Env} {e : Expr} {type : Primitive} :
    e.typeOf env = .ok type ↔
      (∀ s ∈ e.summands, s.summandType? env = some type) ∧ (e.isSum = false ∨ type ≠ .void) := by
  induction e with
  | hole | var | lit => exact typeOf_single_iff rfl
  | binary left op right ihLeft ihRight =>
    cases op with
    | greater | assign | other => exact typeOf_single_iff rfl
    | add =>
      rw [typeOf_sum_eq_ok, ihLeft, ihRight, summands, List.forall_mem_append]
      -- the sums inside of a sum may not be void either, which the sum itself demands anyway
      constructor
      · rintro ⟨⟨inLeft, -⟩, ⟨inRight, -⟩, filled⟩
        exact ⟨⟨inLeft, inRight⟩, .inr filled⟩
      · rintro ⟨⟨inLeft, inRight⟩, contrary | filled⟩
        · cases contrary
        · exact ⟨⟨inLeft, .inr filled⟩, ⟨inRight, .inr filled⟩, filled⟩

theorem typeOf_congr {env other : Env} {e : Expr}
    (agree : ∀ name, .var name ∈ e.summands → env name = other name) :
    e.typeOf env = e.typeOf other := by
  induction e with
  | hole | lit => rfl
  | var name => simp only [typeOf, agree name (List.mem_singleton.mpr rfl)]
  | binary left op right ihLeft ihRight =>
    cases op with
    | greater | assign | other => rfl
    | add =>
      have inLeft := ihLeft fun name member => agree name (List.mem_append_left _ member)
      have inRight := ihRight fun name member => agree name (List.mem_append_right _ member)
      simp only [typeOf, inLeft, inRight]

/-- An expression has a type exactly if its summands all have this type, and it is not void where
there is something to add. The answer, also a refusal, depends on the types of those variables only
that are summands themselves. -/
theorem typeOf_by_summands (e : Expr) (env : Env) :
    (∀ type, e.typeOf env = .ok type ↔
      (∀ s ∈ e.summands, s.summandType? env = some type) ∧ (e.isSum = false ∨ type ≠ .void)) ∧
    ∀ other : Env, (∀ name, .var name ∈ e.summands → env name = other name) →
      e.typeOf env = e.typeOf other :=
  ⟨fun _ => typeOf_eq_ok_iff, fun _ => typeOf_congr⟩

end DeltaLang.Expr
