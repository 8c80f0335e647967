import DeltaLang.Frame
import DeltaLang.Options
import DeltaLang.Proofs.Meaning

namespace DeltaLang

theorem bind_eq_ok {α β : Type} {first : Except Error α} {next : α → Except Error β} {result : β} :
    (first >>= next) = .ok result ↔ ∃ value, first = .ok value ∧ next value = .ok result := by
  cases first <;> simp [bind, Except.bind]

namespace Module

theorem clash?_eq_none {members : List Function} {entry : String} {names : List String}
    (clear : clash? members entry names = none) :
    ∀ name ∈ names, entry ≠ name ∧ ∀ f ∈ members, f.name ≠ name := by
  induction names with
  | nil => simp
  | cons first rest ih =>
    rw [clash?] at clear
    split at clear
    · cases clear
    · rename_i otherEntry
      split at clear
      · cases clear
      · rename_i otherMembers
        intro name member
        rcases List.mem_cons.mp member with rfl | inRest
        · exact ⟨otherEntry, by simpa using otherMembers⟩
        · exact ih clear name inRest

theorem check_eq_ok {m : Module} {options : Options} (checked : m.check options = .ok ()) :
    m.members ≠ [] ∧ ∀ name ∈ builtins,
      options.entryName ≠ name ∧ ∀ f ∈ m.members, f.name ≠ name := by
  unfold check at checked
  split at checked
  · cases checked
  · rename_i filled
    split at checked
    · cases checked
    · rename_i clear
      exact ⟨by simpa using filled, clash?_eq_none clear⟩

theorem clash?_of_clear {members : List Function} {entry : String} {names : List String}
    (clear : ∀ name ∈ names, entry ≠ name ∧ ∀ f ∈ members, f.name ≠ name) :
    clash? members entry names = none := by
  induction names with
  | nil => rfl
  | cons first rest ih =>
    have here := clear first (by simp)
    have unused : members.any (fun f => f.name = first) = false := by simpa using here.2
    have later := ih fun name member => clear name (by simp [member])
    rw [clash?, if_neg here.1, unused, if_neg Bool.false_ne_true, later]

theorem check_ok_iff {options : Options} {m : Module} :
    m.check options = .ok () ↔ m.members ≠ [] ∧
      ∀ name ∈ builtins, options.entryName ≠ name ∧ ∀ f ∈ m.members, f.name ≠ name := by
  constructor
  · exact check_eq_ok
  · rintro ⟨filled, clear⟩
    have some : m.members.isEmpty = false := by simpa using filled
    rw [check, some, if_neg Bool.false_ne_true, clash?_of_clear clear]

end Module

/-- A name of letters, digits and underscores that does not start with a digit. -/
def isIdentifier (name : String) : Bool :=
  match name.toList with
  | [] => false
  | first :: rest =>
    (first.isAlpha || first = '_') && rest.all fun c => c.isAlphanum || c = '_'

/-- What is asked of the names of functions, so that they can be told apart. -/
structure Distinct (members : List Function) : Prop where
  identifiers : ∀ f ∈ members, isIdentifier f.name = true
  once : (members.map Function.name).Nodup

/-- A computation that fails exactly where another one does, with the same fault, and whose results
are related to those of the other one. -/
inductive Follows {α β : Type} (related : α → β → Prop) : Except Error α → Except Error β → Prop
  | ok {result : α} {model : β} (holds : related result model) :
      Follows related (.ok result) (.ok model)
  | error (fault : Error) : Follows related (.error fault) (.error fault)

namespace Follows

variable {α β γ δ : Type} {related : α → β → Prop} {next : γ → δ → Prop}

theorem refl (computation : Except Error α) : Follows Eq computation computation := by
  cases computation with
  | ok => exact .ok rfl
  | error fault => exact .error fault

theorem bind {first : Except Error α} {model : Except Error β} {rest : α → Except Error γ}
    {modelRest : β → Except Error δ} (follows : Follows related first model)
    (others : ∀ a b, related a b → Follows next (rest a) (modelRest b)) :
    Follows next (first >>= rest) (model >>= modelRest) := by
  cases follows with
  | ok holds => exact others _ _ holds
  | error fault => exact .error fault

theorem ite {condition : Prop} [Decidable condition] {first second : Except Error α}
    {model other : Except Error β} (yes : Follows related first model)
    (no : Follows related second other) :
    Follows related (if condition then first else second) (if condition then model else other) := by
  split
  · exact yes
  · exact no

/-- The results of a computation may be put into another form. -/
theorem andThen {first : Except Error α} {model : Except Error β} {form : α → γ}
    {following : γ → β → Prop} (follows : Follows related first model)
    (holds : ∀ a b, related a b → following (form a) b) :
    Follows following (first >>= fun a => .ok (form a)) model := by
  cases follows with
  | ok found => exact .ok (holds _ _ found)
  | error fault => exact .error fault

theorem andThen_model {first : Except Error α} {model : Except Error β} {form : β → δ}
    {following : α → δ → Prop} (follows : Follows related first model)
    (holds : ∀ a b, related a b → following a (form b)) :
    Follows following first (model >>= fun b => .ok (form b)) := by
  cases follows with
  | ok found => exact .ok (holds _ _ found)
  | error fault => exact .error fault

theorem ok_iff {first : Except Error α} {model : Except Error β}
    (follows : Follows related first model) :
    (∃ result, first = .ok result) ↔ ∃ result, model = .ok result := by
  cases follows <;> simp

theorem error_iff {first : Except Error α} {model : Except Error β} {fault : Error}
    (follows : Follows related first model) : first = .error fault ↔ model = .error fault := by
  cases follows <;> simp

end Follows

/-- The types of the variables declared so far, the latest first. -/
abbrev Scope := List (String × Primitive)

theorem lookup_map_snd {α β : Type} (entries : List (String × α)) (view : α → β) (name : String) :
    (entries.map fun entry => (entry.1, view entry.2)).lookup name =
      (entries.lookup name).map view := by
  induction entries with
  | nil => rfl
  | cons entry rest ih =>
    obtain ⟨first, thing⟩ := entry
    simp only [List.map_cons, List.lookup_cons, ih]
    cases name == first <;> rfl

/-- Every entry of a list of bindings remembers the name that it is bound to. -/
def Named {α : Type} (key : α → String) (bound : List (String × α)) : Prop :=
  ∀ name thing, bound.lookup name = some thing → key thing = name

theorem Named.nil {α : Type} (key : α → String) : Named key [] := by
  intro name thing found
  cases found

theorem Named.cons {α : Type} {key : α → String} {bound : List (String × α)}
    (named : Named key bound) (thing : α) : Named key ((key thing, thing) :: bound) := by
  intro name found present
  rw [List.lookup_cons] at present
  split at present
  · rename_i same
    cases present
    exact (beq_iff_eq.mp same).symm
  · exact named name found present

namespace Scope

def env (scope : Scope) : Env :=
  (scope.lookup ·)

def typeOf (scope : Scope) (name : String) : Except Error Primitive :=
  match scope.lookup name with
  | some type => .ok type
  | none => .error (.unknownVariable name)

theorem typeOf_eq_ok {scope : Scope} {name : String} {type : Primitive} :
    scope.typeOf name = .ok type ↔ scope.lookup name = some type := by
  unfold typeOf
  cases scope.lookup name <;> simp

/-- A value for a variable of the given name and type. -/
def checkStore (scope : Scope) (value : Expr) (name : String) (type : Primitive) :
    Except Error Unit :=
  match value with
  | .lit text found =>
    if found ≠ type then .error (.typeMismatch type found text)
    else do
      let _ ← Literal.constant text found
      .ok ()
  | .var source => do
    let found ← scope.typeOf source
    if found ≠ type then .error (.typeMismatch type found source) else .ok ()
  | other => .error (.unsupported (.valueOf other.render name))

def checkAssign (scope : Scope) (e : Expr) : Except Error Unit :=
  match e with
  | .binary (.var name) .assign value => do
    let type ← scope.typeOf name
    scope.checkStore value name type
  | other => .error (.unsupported (.expressionStatement other.render))

def checkOperand (scope : Scope) (e comparison : Expr) : Except Error Unit := do
  let type ← e.typeOf scope.env
  if type ≠ .number then .error (.typeMismatch .number type comparison.render)
  else
    match e with
    | .lit text type => do
      let _ ← Literal.constant text type
      .ok ()
    | .var name => do
      let _ ← scope.typeOf name
      .ok ()
    | other => .error (.unsupported (.operand other.render comparison.render))

def checkCondition (scope : Scope) (condition : Expr) : Except Error Unit := do
  let type ← condition.typeOf scope.env
  if type ≠ .boolean then .error (.typeMismatch .boolean type condition.render)
  else
    match condition with
    | .binary left .greater right => do
      scope.checkOperand left condition
      scope.checkOperand right condition
    | other => .error (.unsupported (.condition other.render))

def checkBranch (scope : Scope) : List Stmt → Except Error Unit
  | [] => .ok ()
  | .evaluate e :: rest => do
    scope.checkAssign e
    checkBranch scope rest
  | .declare name _ :: _ => .error (.unsupported (.nestedDeclaration name))
  | _ :: _ => .error (.unsupported .nestedFlow)

/-- The type of a new variable, which must be one that has values. -/
def declared (scope : Scope) (name : String) (value : Expr) : Except Error Primitive := do
  let type ← value.typeOf scope.env
  match type.width? with
  | none => .error (.invalidDeclarationType name type)
  | some _ => .ok type

/-- The scope after a statement. -/
def checkStatement (scope : Scope) : Stmt → Except Error Scope
  | .declare name value => do
    let type ← scope.declared name value
    scope.checkStore value name type
    .ok ((name, type) :: scope)
  | .evaluate e => do
    scope.checkAssign e
    .ok scope
  | .branch condition body => do
    scope.checkCondition condition
    scope.checkBranch body
    .ok scope
  | other => .error (.unsupported (.statement other.describe))

def checkBody (scope : Scope) : List Stmt → Except Error Scope
  | [] => .ok scope
  | s :: rest => do
    let scope ← scope.checkStatement s
    checkBody scope rest

end Scope

theorem Literal.constant_eq_ok {text : String} {type : Primitive} {value : Constant} :
    Literal.constant text type = .ok value ↔ Literal.constant? text type = some value := by
  unfold Literal.constant
  split <;> simp_all

theorem Literal.constant?_type {text : String} {type : Primitive} {value : Constant}
    (read : Literal.constant? text type = some value) : value.type = type := by
  cases type with
  | number =>
    obtain ⟨n, -, rfl⟩ := Option.map_eq_some_iff.mp read
    rfl
  | boolean =>
    obtain ⟨b, -, rfl⟩ := Option.map_eq_some_iff.mp read
    rfl
  | void => cases read
  | other => cases read

/-- The value of a literal fits into the bytes of its type. -/
theorem Literal.constant?_lt {text : String} {type : Primitive} {value : Constant}
    (read : Literal.constant? text type = some value) :
    value.toNat < 256 ^ (type.width?.getD 0) := by
  cases type with
  | number =>
    obtain ⟨n, number, rfl⟩ := Option.map_eq_some_iff.mp read
    exact (number?_eq_some_iff_numeral.mp number).2
  | boolean =>
    obtain ⟨b, -, rfl⟩ := Option.map_eq_some_iff.mp read
    cases b <;> decide
  | void => cases read
  | other => cases read

namespace Store

def scope (store : Store) : Scope :=
  (store.map fun v => (v.1, v.2.type)).reverse

theorem lookup_scope (store : Store) (name : String) :
    store.scope.lookup name = (store.value? name).map Constant.type := by
  rw [scope, lookup_reverse_named, value?, latest?, names]
  cases lastIndex? name (store.map Prod.fst) <;> simp [Option.map_map, Function.comp_def]

theorem scope_declare (store : Store) (name : String) (value : Constant) :
    (store.declare name value).scope = (name, value.type) :: store.scope := by
  simp [scope, declare]

/-- A variable keeps its type when it is overwritten by a value of that type. -/
theorem scope_assign {store after : Store} {name : String} {value old : Constant}
    (before : store.value? name = some old) (same : value.type = old.type)
    (assigned : store.assign? name value = some after) : after.scope = store.scope := by
  obtain ⟨index, found, rfl⟩ := Option.map_eq_some_iff.mp assigned
  have named := lastIndex?_found found
  simp only [value?, found, Option.bind_eq_bind, Option.bind_some, Option.map_eq_some_iff] at before
  obtain ⟨⟨first, second⟩, here, rfl⟩ := before
  have owner : first = name := by
    simpa [names, here] using named
  obtain ⟨inside, read⟩ := List.getElem?_eq_some_iff.mp here
  simp only [scope, List.map_set, same]
  congr 1
  apply List.ext_getElem (by simp)
  intro place first' second'
  by_cases at_index : index = place
  · subst at_index
    simp [read, owner]
  · simp [List.getElem_set_ne at_index]

end Store

open Store

theorem typeOf_scope {store : Store} {name : String} {type : Primitive} :
    store.scope.typeOf name = .ok type ↔ ∃ c, store.value? name = some c ∧ c.type = type := by
  simp only [Scope.typeOf, lookup_scope]
  cases store.value? name <;> simp

theorem value_of_checkStore {store : Store} {value : Expr} {name : String} {type : Primitive}
    (checked : store.scope.checkStore value name type = .ok ()) :
    ∃ c, value.value? store = some c ∧ c.type = type := by
  cases value with
  | lit text found =>
    simp only [Scope.checkStore] at checked
    split at checked
    · cases checked
    · rename_i same
      obtain ⟨c, read, -⟩ := bind_eq_ok.mp checked
      have value := Literal.constant_eq_ok.mp read
      exact ⟨c, Literal.meaning?_of_constant? value,
        (Literal.constant?_type value).trans (not_not.mp same)⟩
  | var source =>
    obtain ⟨found, typed, rest⟩ := bind_eq_ok.mp checked
    split at rest
    · cases rest
    · rename_i same
      obtain ⟨c, read, typed⟩ := typeOf_scope.mp typed
      exact ⟨c, read, typed.trans (not_not.mp same)⟩
  | hole => cases checked
  | binary => cases checked

/-- An accepted assignment can be carried out, and no variable changes its type. -/
theorem run_of_checkAssign {store : Store} {e : Expr}
    (checked : store.scope.checkAssign e = .ok ()) :
    ∃ after, Stmt.run? store (.evaluate e) = some after ∧ after.scope = store.scope := by
  unfold Scope.checkAssign at checked
  split at checked
  · rename_i name value
    obtain ⟨type, typed, rest⟩ := bind_eq_ok.mp checked
    obtain ⟨old, before, rfl⟩ := typeOf_scope.mp typed
    obtain ⟨c, read, same⟩ := value_of_checkStore rest
    obtain ⟨index, found, -⟩ := Option.bind_eq_some_iff.mp before
    have assigned : store.assign? name c = some (store.set index (name, c)) := by
      rw [assign?, found, Option.map_some]
    exact ⟨_, by simp only [Stmt.run?, read, Option.bind_eq_bind, Option.bind_some, assigned],
      scope_assign before same assigned⟩
  · cases checked

theorem number_of_checkOperand {store : Store} {e comparison : Expr}
    (checked : store.scope.checkOperand e comparison = .ok ()) :
    ∃ n, e.value? store = some (.number n) := by
  obtain ⟨type, typed, rest⟩ := bind_eq_ok.mp checked
  split at rest
  · cases rest
  · rename_i isNumber
    have number : type = .number := not_not.mp isNumber
    subst number
    have value : ∃ c, e.value? store = some c ∧ c.type = .number := by
      cases e with
      | lit text found =>
        cases typed
        obtain ⟨c, read, -⟩ := bind_eq_ok.mp rest
        have value := Literal.constant_eq_ok.mp read
        exact ⟨c, Literal.meaning?_of_constant? value, Literal.constant?_type value⟩
      | var name => exact typeOf_scope.mp typed
      | hole => cases rest
      | binary => cases rest
    obtain ⟨c, read, isNumber⟩ := value
    cases c with
    | number n => exact ⟨n, read⟩
    | boolean b => cases isNumber

theorem holds_of_checkCondition {store : Store} {condition : Expr}
    (checked : store.scope.checkCondition condition = .ok ()) :
    ∃ b, condition.holds? store = some b := by
  obtain ⟨type, -, rest⟩ := bind_eq_ok.mp checked
  split at rest
  · cases rest
  · split at rest
    · obtain ⟨_, left, right⟩ := bind_eq_ok.mp rest
      obtain ⟨l, leftValue⟩ := number_of_checkOperand left
      obtain ⟨r, rightValue⟩ := number_of_checkOperand right
      exact ⟨decide (r < l), by simp only [Expr.holds?, leftValue, rightValue]⟩
    · cases rest

theorem run_of_checkBranch {store : Store} {body : List Stmt}
    (checked : store.scope.checkBranch body = .ok ()) :
    ∃ after, Stmt.runAll? store body = some after ∧ after.scope = store.scope := by
  induction body generalizing store with
  | nil => exact ⟨store, rfl, rfl⟩
  | cons s rest ih =>
    cases s with
    | evaluate e =>
      obtain ⟨_, first, others⟩ := bind_eq_ok.mp checked
      obtain ⟨middle, ran, kept⟩ := run_of_checkAssign first
      rw [← kept] at others
      obtain ⟨after, ranRest, keptRest⟩ := ih others
      refine ⟨after, ?_, keptRest.trans kept⟩
      simp only [Stmt.runAll?, ran, Option.bind_eq_bind, Option.bind_some, ranRest]
    | declare => cases checked
    | branch => cases checked
    | hole => cases checked
    | flowHole => cases checked

theorem run_of_checkStatement {store : Store} {s : Stmt} {scope : Scope}
    (checked : store.scope.checkStatement s = .ok scope) :
    ∃ after, Stmt.run? store s = some after ∧ after.scope = scope := by
  cases s with
  | declare name value =>
    obtain ⟨type, -, rest⟩ := bind_eq_ok.mp checked
    obtain ⟨_, stored, rest⟩ := bind_eq_ok.mp rest
    cases rest
    obtain ⟨c, read, rfl⟩ := value_of_checkStore stored
    exact ⟨store.declare name c, by simp only [Stmt.run?, read, Option.map_some],
      scope_declare store name c⟩
  | evaluate e =>
    obtain ⟨_, assigned, rest⟩ := bind_eq_ok.mp checked
    cases rest
    exact run_of_checkAssign assigned
  | branch condition body =>
    obtain ⟨_, compared, rest⟩ := bind_eq_ok.mp checked
    obtain ⟨_, inner, rest⟩ := bind_eq_ok.mp rest
    cases rest
    obtain ⟨holds, decided⟩ := holds_of_checkCondition compared
    simp only [Stmt.run?, decided, Option.bind_eq_bind, Option.bind_some]
    cases holds with
    | true => exact run_of_checkBranch inner
    | false => exact ⟨store, rfl, rfl⟩
  | hole => cases checked
  | flowHole => cases checked

/-- An accepted body has a meaning, and its variables have the types that were found for them. -/
theorem run_of_checkBody {store : Store} {body : List Stmt} {scope : Scope}
    (checked : store.scope.checkBody body = .ok scope) :
    ∃ after, Stmt.runAll? store body = some after ∧ after.scope = scope := by
  induction body generalizing store with
  | nil =>
    cases checked
    exact ⟨store, rfl, rfl⟩
  | cons s rest ih =>
    obtain ⟨middle, first, others⟩ := bind_eq_ok.mp checked
    obtain ⟨between, ran, rfl⟩ := run_of_checkStatement first
    obtain ⟨after, ranRest, typed⟩ := ih others
    exact ⟨after, by simp only [Stmt.runAll?, ran, Option.bind_eq_bind, Option.bind_some, ranRest],
      typed⟩

/-- What is accepted by the rules for a body has a meaning. -/
theorem run_of_follows {α : Type} {related : α → Scope → Prop} {lowering : Except Error α}
    {body : List Stmt} (follows : Follows related lowering (Scope.checkBody [] body)) {result : α}
    (accepted : lowering = .ok result) : ∃ store, Stmt.runAll? [] body = some store := by
  obtain ⟨scope, checked⟩ := follows.ok_iff.mp ⟨result, accepted⟩
  have empty : Store.scope [] = [] := rfl
  rw [← empty] at checked
  obtain ⟨store, ran, -⟩ := run_of_checkBody checked
  exact ⟨store, ran⟩

end DeltaLang
