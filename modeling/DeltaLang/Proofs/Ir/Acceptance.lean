import DeltaLang.Ir.Lowering
import DeltaLang.Proofs.Acceptance

namespace DeltaLang.Ir

namespace Bindings

def scope (bound : Bindings) : Scope :=
  bound.map fun entry => (entry.1, entry.2.kind)

theorem lookup_scope (bound : Bindings) (name : String) :
    bound.scope.lookup name = (bound.lookup name).map Cell.kind :=
  lookup_map_snd bound Cell.kind name

theorem env_scope (bound : Bindings) : bound.env = bound.scope.env := by
  funext name
  exact (bound.lookup_scope name).symm

theorem cellOf_follows {bound : Bindings} (named : Named Cell.variableName bound) (name : String) :
    Follows (fun cell type => cell.kind = type ∧ cell.variableName = name)
      (bound.cellOf name) (bound.scope.typeOf name) := by
  unfold cellOf Scope.typeOf
  rw [lookup_scope]
  cases found : bound.lookup name with
  | none => exact .error _
  | some cell => exact .ok ⟨rfl, named name cell found⟩

end Bindings

theorem store_follows (state : State) (named : Named Cell.variableName state.bound)
    (value : Expr) (target : Cell) :
    Follows (fun after _ => after.bound = state.bound) (store state value target)
      (state.bound.scope.checkStore value target.variableName target.kind) := by
  cases value with
  | lit text type =>
    refine .ite (.error _) ?_
    exact (Follows.refl _).bind fun _ _ _ => .ok rfl
  | var name =>
    refine (Bindings.cellOf_follows named name).bind ?_
    rintro source type ⟨rfl, -⟩
    exact .ite (.error _) (.ok rfl)
  | hole => exact .error _
  | binary => exact .error _

theorem assign_follows (state : State) (named : Named Cell.variableName state.bound) (e : Expr) :
    Follows (fun after _ => after.bound = state.bound) (assign state e)
      (state.bound.scope.checkAssign e) := by
  cases e with
  | binary left op value =>
    cases left with
    | var name =>
      cases op with
      | assign =>
        refine (Bindings.cellOf_follows named name).bind ?_
        rintro target type ⟨rfl, own⟩
        rw [← own]
        exact store_follows state named value target
      | _ => exact .error _
    | _ => exact .error _
  | _ => exact .error _

theorem operand_follows (state : State) (named : Named Cell.variableName state.bound)
    (e comparison : Expr) :
    Follows (fun after _ => after.2.bound = state.bound) (operand state e comparison)
      (state.bound.scope.checkOperand e comparison) := by
  unfold operand Scope.checkOperand
  rw [Bindings.env_scope]
  refine (Follows.refl _).bind ?_
  rintro type _ rfl
  refine .ite (.error _) ?_
  cases e with
  | lit text type => exact (Follows.refl _).bind fun _ _ _ => .ok rfl
  | var name => exact (Bindings.cellOf_follows named name).bind fun _ _ _ => .ok rfl
  | hole => exact .error _
  | binary => exact .error _

theorem operands_follows (state : State) (named : Named Cell.variableName state.bound)
    (condition : Expr) :
    Follows (fun after _ => after.2.2.bound = state.bound) (operands state condition)
      (state.bound.scope.checkCondition condition) := by
  unfold operands Scope.checkCondition
  rw [Bindings.env_scope]
  refine (Follows.refl _).bind ?_
  rintro type _ rfl
  refine .ite (.error _) ?_
  cases condition with
  | binary left op right =>
    cases op with
    | greater =>
      refine (operand_follows state named left (.binary left .greater right)).bind ?_
      rintro ⟨leftValue, middle⟩ _ kept
      change middle.bound = state.bound at kept
      rw [← kept] at named ⊢
      exact (operand_follows middle named right (.binary left .greater right)).andThen
        fun _ _ same => same
    | _ => exact .error _
  | _ => exact .error _

theorem branchBody_follows (state : State) (named : Named Cell.variableName state.bound)
    (body : List Stmt) :
    Follows (fun after _ => after.bound = state.bound) (branchBody state body)
      (state.bound.scope.checkBranch body) := by
  induction body generalizing state with
  | nil => exact .ok rfl
  | cons s rest ih =>
    cases s with
    | evaluate e =>
      refine (assign_follows state named e).bind ?_
      intro middle _ kept
      rw [← kept] at named ⊢
      exact ih _ named
    | declare => exact .error _
    | branch => exact .error _
    | hole => exact .error _
    | flowHole => exact .error _

theorem newCell_follows (state : State) (name : String) (value : Expr) :
    Follows (fun cell type => cell.variableName = name ∧ cell.kind = type)
      (newCell state name value) (state.bound.scope.declared name value) := by
  unfold newCell Scope.declared
  rw [Bindings.env_scope]
  refine (Follows.refl _).bind ?_
  rintro type _ rfl
  cases type with
  | number => exact .ok ⟨rfl, rfl⟩
  | boolean => exact .ok ⟨rfl, rfl⟩
  | void => exact .error _
  | other => exact .error _

theorem allocate_bound (state : State) (cell : Cell) :
    (state.allocate cell).bound = state.bound := by
  simp only [State.allocate, State.record]
  split <;> rfl

/-- The state after a statement has the variables that the rules give it. -/
theorem statement_follows (state : State) (named : Named Cell.variableName state.bound) (s : Stmt) :
    Follows (fun after scope => after.bound.scope = scope ∧ Named Cell.variableName after.bound)
      (statement state s)
      (state.bound.scope.checkStatement s) := by
  cases s with
  | declare name value =>
    refine (newCell_follows state name value).bind ?_
    rintro cell type ⟨rfl, rfl⟩
    have stored := store_follows (state.allocate cell)
      (by rwa [allocate_bound]) value cell
    rw [allocate_bound] at stored
    refine stored.bind ?_
    intro after _ kept
    refine .ok ⟨?_, ?_⟩
    · simp only [kept, Bindings.scope, List.map_cons]
    · rw [kept]
      exact named.cons cell
  | evaluate e =>
    refine (assign_follows state named e).andThen_model ?_
    intro after _ kept
    exact ⟨by rw [kept], by rwa [kept]⟩
  | branch condition body =>
    refine (operands_follows state named condition).bind ?_
    rintro ⟨left, right, middle⟩ _ kept
    change middle.bound = state.bound at kept
    let opened := ({ middle with labels := middle.labels + 1 }.define .i1
      (.icmpUgt · left right)).2.finish
        (.condBr ⟨middle.temps, .i1⟩ (.thenBranch middle.labels) (.endif middle.labels))
        (.thenBranch middle.labels)
    have inner := branchBody_follows opened (by rw [← kept] at named; exact named) body
    change Follows _ _ (middle.bound.scope.checkBranch body) at inner
    rw [kept] at inner
    refine inner.bind ?_
    intro after _ same
    have same : after.bound = state.bound := same.trans kept
    exact .ok ⟨congrArg Bindings.scope same, by rw [← same] at named; exact named⟩
  | hole => exact .error _
  | flowHole => exact .error _

theorem statements_follows (state : State) (named : Named Cell.variableName state.bound)
    (body : List Stmt) :
    Follows (fun after scope => after.bound.scope = scope) (statements state body)
      (state.bound.scope.checkBody body) := by
  induction body generalizing state with
  | nil => exact .ok rfl
  | cons s rest ih =>
    refine (statement_follows state named s).bind ?_
    rintro after scope ⟨rfl, named⟩
    exact ih _ named

/-- A function by itself: its definition, and the texts that it prints with. -/
def function (options : Options) (f : Function) : Except Error (Definition × List Global) :=
  if !f.arguments.isEmpty then .error (.unsupported (.arguments f.name))
  else do
    let state ← statements .start f.body
    .ok (finished options f state)

theorem function_eq (options : Options) {f : Function} (plain : f.arguments = []) :
    function options f =
      statements .start f.body >>= fun state => .ok (finished options f state) := by
  simp only [function, plain, List.isEmpty_nil, Bool.not_true, Bool.false_eq_true, ↓reduceIte]

/-- Nothing of one function is left when the next one is entered. -/
theorem State.enter_eq_start (state : State) : state.enter = .start := rfl

/-- What a function adds to a module depends on the function alone. -/
theorem Context.function_module (options : Options) (context : Context) (f : Function) :
    module <$> context.function options f =
      (fun part => context.module.add part.1 part.2) <$> Ir.function options f := by
  unfold Context.function Ir.function
  split
  · rfl
  · rw [State.enter_eq_start]
    cases statements .start f.body <;> rfl

theorem function_follows (options : Options) {f : Function} (plain : f.arguments = []) :
    Follows (fun _ _ => True) (function options f) (Scope.checkBody [] f.body) := by
  rw [function_eq options plain]
  exact (statements_follows .start (Named.nil _) f.body).andThen
    fun _ _ _ => trivial

end DeltaLang.Ir
