import DeltaLang.Proofs.Assembly.Label
import DeltaLang.Proofs.Functions
import DeltaLang.Proofs.Literal

namespace DeltaLang

namespace Scope

/-- A value that a variable of the given type can be set to: a literal of that type whose text is
valid, or a variable of that type. -/
inductive Storable (scope : Scope) (type : Primitive) : Expr → Prop
  | literal {text : String} (valid : Literal.Valid text type) : Storable scope type (.lit text type)
  | name {name : String} (typed : scope.lookup name = some type) :
      Storable scope type (.var name)

/-- An expression that sets a variable in scope. -/
inductive Assignment (scope : Scope) : Expr → Prop
  | assign {name : String} {type : Primitive} {value : Expr}
      (target : scope.lookup name = some type) (stored : scope.Storable type value) :
      Assignment scope (.binary (.var name) .assign value)

inductive Comparison (scope : Scope) : Expr → Prop
  | greater {left right : Expr} (first : scope.Storable .number left)
      (second : scope.Storable .number right) : Comparison scope (.binary left .greater right)

/-- A body that code can be generated for, in the scope of the declarations in front of it. The
latest declaration of a name stands first in a scope, so it is the one that is found. -/
inductive Supports : Scope → List Stmt → Prop
  | done {scope : Scope} : Supports scope []
  | declare {scope : Scope} {name : String} {type : Primitive} {value : Expr} {rest : List Stmt}
      (stored : scope.Storable type value) (others : Supports ((name, type) :: scope) rest) :
      Supports scope (.declare name value :: rest)
  | evaluate {scope : Scope} {e : Expr} {rest : List Stmt} (assigned : scope.Assignment e)
      (others : Supports scope rest) : Supports scope (.evaluate e :: rest)
  | branch {scope : Scope} {condition : Expr} {body rest : List Stmt}
      (compared : scope.Comparison condition)
      (inner : ∀ s ∈ body, ∃ e, s = .evaluate e ∧ scope.Assignment e)
      (others : Supports scope rest) : Supports scope (.branch condition body :: rest)

/-- All variables of a scope are of types that have values. -/
def Valued (scope : Scope) : Prop :=
  ∀ name type, scope.lookup name = some type → ∃ width, type.width? = some width

theorem Valued.nil : Valued [] := by
  intro name type found
  cases found

theorem Storable.width {scope : Scope} {type : Primitive} {value : Expr} (valued : scope.Valued)
    (stored : scope.Storable type value) : ∃ width, type.width? = some width := by
  cases stored with
  | literal valid => exact valid.width
  | name typed => exact valued _ type typed

theorem Valued.declare {scope : Scope} {type : Primitive} {value : Expr} (valued : scope.Valued)
    (stored : scope.Storable type value) (name : String) : Valued ((name, type) :: scope) := by
  intro other found present
  rw [List.lookup_cons] at present
  split at present
  · cases present
    exact stored.width valued
  · exact valued other found present

/-- An expression of a type is stored where it is a valid literal or a variable. -/
theorem checkStore_ok_iff {scope : Scope} {value : Expr} {name : String} {type : Primitive} :
    scope.checkStore value name type = .ok () ↔ scope.Storable type value := by
  constructor
  · intro checked
    cases value with
    | lit text found =>
      simp only [checkStore] at checked
      split at checked
      · cases checked
      · rename_i same
        obtain ⟨constant, read, -⟩ := bind_eq_ok.mp checked
        have same : found = type := not_not.mp same
        subst same
        exact .literal (Literal.constant_ok_iff.mp ⟨constant, read⟩)
    | var source =>
      obtain ⟨found, typed, rest⟩ := bind_eq_ok.mp checked
      split at rest
      · cases rest
      · rename_i same
        have same : found = type := not_not.mp same
        subst same
        exact .name (typeOf_eq_ok.mp typed)
    | hole => cases checked
    | binary left op right => cases checked
  · intro stored
    cases stored with
    | @literal text valid =>
      obtain ⟨constant, read⟩ := Literal.constant_ok_iff.mpr valid
      simp only [checkStore, ne_eq, not_true_eq_false, ↓reduceIte]
      exact bind_eq_ok.mpr ⟨constant, read, rfl⟩
    | name typed => exact bind_eq_ok.mpr ⟨type, typeOf_eq_ok.mpr typed, by simp⟩

/-- A declaration takes the type of its value. -/
theorem declared_of_storable {scope : Scope} {type : Primitive} {value : Expr}
    (valued : scope.Valued) (stored : scope.Storable type value) (name : String) :
    scope.declared name value = .ok type := by
  obtain ⟨width, wide⟩ := stored.width valued
  have typed : value.typeOf scope.env = .ok type := by
    cases stored with
    | literal valid => rfl
    | name typed => simp only [Expr.typeOf, env, typed]
  exact bind_eq_ok.mpr ⟨type, typed, by simp only [wide]⟩

theorem checkAssign_ok_iff {scope : Scope} {e : Expr} :
    scope.checkAssign e = .ok () ↔ scope.Assignment e := by
  constructor
  · intro checked
    unfold checkAssign at checked
    split at checked
    · obtain ⟨type, typed, stored⟩ := bind_eq_ok.mp checked
      exact .assign (typeOf_eq_ok.mp typed) (checkStore_ok_iff.mp stored)
    · cases checked
  · intro assigned
    cases assigned with
    | assign target stored =>
      exact bind_eq_ok.mpr ⟨_, typeOf_eq_ok.mpr target, checkStore_ok_iff.mpr stored⟩

theorem checkOperand_ok_iff {scope : Scope} {e comparison : Expr} :
    scope.checkOperand e comparison = .ok () ↔ scope.Storable .number e := by
  constructor
  · intro checked
    obtain ⟨type, typed, rest⟩ := bind_eq_ok.mp checked
    split at rest
    · cases rest
    · rename_i isNumber
      have isNumber : type = .number := not_not.mp isNumber
      subst isNumber
      cases e with
      | lit text found =>
        cases typed
        obtain ⟨constant, read, -⟩ := bind_eq_ok.mp rest
        exact .literal (Literal.constant_ok_iff.mp ⟨constant, read⟩)
      | var name => exact .name (typeOf_eq_ok.mp typed)
      | hole => cases rest
      | binary left op right => cases rest
  · intro stored
    cases stored with
    | literal valid =>
      obtain ⟨constant, read⟩ := Literal.constant_ok_iff.mpr valid
      refine bind_eq_ok.mpr ⟨.number, rfl, ?_⟩
      exact bind_eq_ok.mpr ⟨constant, read, rfl⟩
    | name typed =>
      have found := typeOf_eq_ok.mpr typed
      exact bind_eq_ok.mpr ⟨.number, found, bind_eq_ok.mpr ⟨.number, found, rfl⟩⟩

theorem checkCondition_ok_iff {scope : Scope} {condition : Expr} :
    scope.checkCondition condition = .ok () ↔ scope.Comparison condition := by
  constructor
  · intro checked
    obtain ⟨type, -, rest⟩ := bind_eq_ok.mp checked
    split at rest
    · cases rest
    · split at rest
      · obtain ⟨_, first, second⟩ := bind_eq_ok.mp rest
        exact .greater (checkOperand_ok_iff.mp first) (checkOperand_ok_iff.mp second)
      · cases rest
  · intro compared
    cases compared with
    | greater first second =>
      refine bind_eq_ok.mpr ⟨.boolean, rfl, ?_⟩
      exact bind_eq_ok.mpr ⟨(), checkOperand_ok_iff.mpr first, checkOperand_ok_iff.mpr second⟩

theorem checkBranch_ok_iff {scope : Scope} {body : List Stmt} :
    scope.checkBranch body = .ok () ↔ ∀ s ∈ body, ∃ e, s = .evaluate e ∧ scope.Assignment e := by
  induction body with
  | nil => simp [checkBranch]
  | cons s rest ih =>
    rw [List.forall_mem_cons, ← ih]
    cases s with
    | evaluate e =>
      have unfolded : scope.checkBranch (.evaluate e :: rest) = .ok () ↔
          ∃ _ : Unit, scope.checkAssign e = .ok () ∧ scope.checkBranch rest = .ok () := bind_eq_ok
      simp only [unfolded, checkAssign_ok_iff, Stmt.evaluate.injEq, exists_eq_left']
      exact ⟨fun ⟨_, both⟩ => both, fun both => ⟨(), both⟩⟩
    | declare name value => simp [checkBranch]
    | branch condition inner => simp [checkBranch]
    | hole => simp [checkBranch]
    | flowHole => simp [checkBranch]

/-- The rules for a body accept exactly what is supported. The induction is on the body: each
declaration hands the scope that it has made to the rest. -/
theorem checkBody_ok_iff {scope : Scope} (valued : scope.Valued) (body : List Stmt) :
    (∃ after, scope.checkBody body = .ok after) ↔ scope.Supports body := by
  induction body generalizing scope with
  | nil => exact ⟨fun _ => .done, fun _ => ⟨scope, rfl⟩⟩
  | cons s rest ih =>
    constructor
    · rintro ⟨after, checked⟩
      obtain ⟨middle, first, others⟩ := bind_eq_ok.mp checked
      cases s with
      | declare name value =>
        obtain ⟨type, -, inner⟩ := bind_eq_ok.mp first
        obtain ⟨_, accepted, same⟩ := bind_eq_ok.mp inner
        cases same
        -- the type that the layout found is the type of the value, as the store was accepted
        have stored := checkStore_ok_iff.mp accepted
        exact .declare stored ((ih (valued.declare stored name)).mp ⟨after, others⟩)
      | evaluate e =>
        obtain ⟨_, assigned, same⟩ := bind_eq_ok.mp first
        cases same
        exact .evaluate (checkAssign_ok_iff.mp assigned) ((ih valued).mp ⟨after, others⟩)
      | branch condition body =>
        obtain ⟨_, compared, inner⟩ := bind_eq_ok.mp first
        obtain ⟨_, inside, same⟩ := bind_eq_ok.mp inner
        cases same
        exact .branch (checkCondition_ok_iff.mp compared) (checkBranch_ok_iff.mp inside)
          ((ih valued).mp ⟨after, others⟩)
      | hole => cases first
      | flowHole => cases first
    · intro supported
      cases supported with
      | @declare _ name type value _ stored others =>
        obtain ⟨after, accepted⟩ := (ih (valued.declare stored name)).mpr others
        refine ⟨after, bind_eq_ok.mpr ⟨(name, type) :: scope, ?_, accepted⟩⟩
        refine bind_eq_ok.mpr ⟨type, declared_of_storable valued stored name, ?_⟩
        exact bind_eq_ok.mpr ⟨(), checkStore_ok_iff.mpr stored, rfl⟩
      | evaluate assigned others =>
        obtain ⟨after, accepted⟩ := (ih valued).mpr others
        refine ⟨after, bind_eq_ok.mpr ⟨scope, ?_, accepted⟩⟩
        exact bind_eq_ok.mpr ⟨(), checkAssign_ok_iff.mpr assigned, rfl⟩
      | branch compared inner others =>
        obtain ⟨after, accepted⟩ := (ih valued).mpr others
        refine ⟨after, bind_eq_ok.mpr ⟨scope, ?_, accepted⟩⟩
        refine bind_eq_ok.mpr ⟨(), checkCondition_ok_iff.mpr compared, ?_⟩
        exact bind_eq_ok.mpr ⟨(), checkBranch_ok_iff.mpr inner, rfl⟩

end Scope

namespace Module

structure Supported (options : Options) (m : Module) : Prop where
  filled : m.members ≠ []
  entry : options.entryName ≠ "exit" ∧ options.entryName ≠ "printf"
  names : ∀ f ∈ m.members, f.name ≠ "exit" ∧ f.name ≠ "printf"
  plain : ∀ f ∈ m.members, f.arguments = []
  bodies : ∀ f ∈ m.members, Scope.Supports [] f.body

end Module

namespace Assembly

theorem function_ok_iff (options : Options) (f : Function) :
    (∃ p, function options f = .ok p) ↔ f.arguments = [] ∧ Scope.Supports [] f.body := by
  rw [← Scope.checkBody_ok_iff Scope.Valued.nil]
  constructor
  · rintro ⟨p, lowered⟩
    obtain ⟨plain, frame, -, -, laid, -, -⟩ := function_eq_ok lowered
    exact ⟨plain, (function_follows options plain laid).ok_iff.mp ⟨p, lowered⟩⟩
  · rintro ⟨plain, after, checked⟩
    -- a body that the rules accept has a layout, so the rules decide alone
    have placed := (Frame.checkBody_placed Frame.returnSlot checked).1
    obtain ⟨frame, laid⟩ := layout_eq_ok.mpr placed
    exact (function_follows options plain laid).ok_iff.mpr ⟨after, checked⟩

end Assembly

/-- Assembly is generated for exactly the supported modules. -/
theorem generate_accepts_supported (options : Options) (m : Module) :
    (∃ program, Assembly.generate options m = .ok program) ↔ m.Supported options := by
  constructor
  · rintro ⟨program, generated⟩
    obtain ⟨checked, lowered⟩ := Assembly.generate_eq_ok generated
    obtain ⟨filled, clear⟩ := Module.check_eq_ok checked
    have accepted := Assembly.functions_ok_iff.mp ⟨program, lowered⟩
    have exit := clear "exit" (by decide)
    have printf := clear "printf" (by decide)
    refine ⟨filled, ⟨exit.1, printf.1⟩, ?_, ?_, ?_⟩
    · intro f member
      exact ⟨exit.2 f member, printf.2 f member⟩
    · intro f member
      exact ((Assembly.function_ok_iff options f).mp (accepted f member)).1
    · intro f member
      exact ((Assembly.function_ok_iff options f).mp (accepted f member)).2
  · intro supported
    have checked : m.check options = .ok () := by
      refine Module.check_ok_iff.mpr ⟨supported.filled, ?_⟩
      intro name builtin
      simp only [builtins, List.mem_cons, List.not_mem_nil, or_false] at builtin
      rcases builtin with rfl | rfl
      · exact ⟨supported.entry.1, fun f member => (supported.names f member).1⟩
      · exact ⟨supported.entry.2, fun f member => (supported.names f member).2⟩
    obtain ⟨program, lowered⟩ := Assembly.functions_ok_iff.mpr fun f member =>
      (Assembly.function_ok_iff options f).mpr ⟨supported.plain f member, supported.bodies f member⟩
    exact ⟨program, bind_eq_ok.mpr ⟨(), checked, lowered⟩⟩

end DeltaLang
