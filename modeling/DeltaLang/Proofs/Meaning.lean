import DeltaLang.Proofs.Numeral
import DeltaLang.Tree
import Mathlib.Data.List.Induction

/-!
What a function body means: the variables that it leaves behind. No frame, block or instruction
is mentioned here.
-/

namespace DeltaLang

def Constant.type : Constant → Primitive
  | .number _ => .number
  | .boolean _ => .boolean

namespace Literal

/-- The spellings of truth values: as a word, a letter or a digit. -/
def truth? : String → Option Bool
  | "true" | "True" | "TRUE" | "t" | "T" | "1" => some true
  | "false" | "False" | "FALSE" | "f" | "F" | "0" => some false
  | _ => none

/-- What a literal of a type means. A number may be of any size. -/
def meaning? (text : String) : Primitive → Option Constant
  | .number => (numeral? text).map .number
  | .boolean => (truth? text).map .boolean
  | .void => none
  | .other _ => none

theorem boolean?_eq_truth? (text : String) : boolean? text = truth? text := by
  fun_cases truth? text <;> simp_all [boolean?, truths, falsehoods]

/-- An accepted literal is taken for what it means. -/
theorem meaning?_of_constant? {text : String} {type : Primitive} {value : Constant}
    (read : constant? text type = some value) : meaning? text type = some value := by
  cases type with
  | number =>
    obtain ⟨n, number, rfl⟩ := Option.map_eq_some_iff.mp read
    rw [meaning?, numeral?_eq_some_iff.mpr (number?_eq_some_iff_numeral.mp number).1]
    rfl
  | boolean => rwa [meaning?, ← boolean?_eq_truth?]
  | void => cases read
  | other => cases read

end Literal

def lastIndex? (name : String) : List String → Option Nat
  | [] => none
  | first :: rest =>
    match lastIndex? name rest with
    | some index => some (index + 1)
    | none => if first = name then some 0 else none

theorem lastIndex?_concat (name last : String) (names : List String) :
    lastIndex? name (names ++ [last]) =
      if last = name then some names.length else lastIndex? name names := by
  induction names with
  | nil => rfl
  | cons first rest ih =>
    simp only [List.cons_append, lastIndex?, ih, List.length_cons]
    by_cases same : last = name <;> simp [same]

theorem lastIndex?_found {name : String} {names : List String} {index : Nat}
    (found : lastIndex? name names = some index) : names[index]? = some name := by
  induction names generalizing index with
  | nil => cases found
  | cons first rest ih =>
    unfold lastIndex? at found
    split at found
    · rename_i later behind
      cases found
      exact ih behind
    · split at found
      · rename_i same
        cases found
        simp [same]
      · cases found

theorem lastIndex?_lt {name : String} {names : List String} {index : Nat}
    (found : lastIndex? name names = some index) : index < names.length :=
  (List.getElem?_eq_some_iff.mp (lastIndex?_found found)).1

/-- The latest entry of a list of named things, kept with the latest in front, is the one at the
last occurrence of its name. -/
theorem lookup_reverse_named {α β : Type} (key : α → String) (entry : α → β) (name : String)
    (things : List α) :
    (things.map fun thing => (key thing, entry thing)).reverse.lookup name =
      (lastIndex? name (things.map key)).bind fun index => things[index]?.map entry := by
  -- Declarations come at the end of `things`, so the induction removes the last one.
  induction things using List.reverseRecOn with
  | nil => rfl
  | append_singleton things last ih =>
    simp only [List.map_append, List.map_cons, List.map_nil, List.reverse_append,
      List.reverse_cons, List.reverse_nil, List.nil_append, List.cons_append,
      lastIndex?_concat, List.length_map]
    by_cases same : key last = name
    · rw [if_pos same, same, List.lookup_cons_self]
      simp
    · have other : (name == key last) = false := by
        simpa using fun equal : name = key last => same equal.symm
      rw [List.lookup_cons, other, if_neg same]
      refine ih.trans ?_
      cases found : lastIndex? name (things.map key) with
      | none => rfl
      | some index =>
        have inside : index < things.length := by
          simpa using lastIndex?_lt found
        simp [List.getElem?_append_left inside]

/-- The variables of a function with their values, in the order of their declarations. -/
abbrev Store := List (String × Constant)

namespace Store

def names (store : Store) : List String :=
  store.map Prod.fst

/-- The most recently declared variable of a name, as its place among the declarations. -/
def latest? (store : Store) (name : String) : Option Nat :=
  lastIndex? name store.names

/-- The value of the most recently declared variable of a name. -/
def value? (store : Store) (name : String) : Option Constant := do
  let index ← store.latest? name
  store[index]?.map Prod.snd

/-- Overwrites the most recently declared variable of a name. -/
def assign? (store : Store) (name : String) (value : Constant) : Option Store :=
  (store.latest? name).map fun index => store.set index (name, value)

def declare (store : Store) (name : String) (value : Constant) : Store :=
  store ++ [(name, value)]

theorem names_eq {α : Type} {key : α → String} {things : List α} {store : Store}
    (length : things.length = store.length)
    (same : ∀ (i : Nat) (thing : α) (v : String × Constant),
      things[i]? = some thing → store[i]? = some v → key thing = v.1) :
    things.map key = store.names := by
  apply List.ext_getElem
  · simp only [List.length_map, names, length]
  · intro i inThings inStore
    simp only [List.length_map, names] at inThings inStore
    simpa [names] using same i _ _ (List.getElem?_eq_getElem inThings)
      (List.getElem?_eq_getElem inStore)

/-- Where every variable has a thing of its own, a name leads to the thing of the variable that it
stands for. -/
theorem latest?_of_lookup {α : Type} {key : α → String} {things : List α} {store : Store}
    (same : things.map key = store.names) {name : String} {thing : α}
    (found : (things.map fun thing => (key thing, thing)).reverse.lookup name = some thing) :
    ∃ index value, store.latest? name = some index ∧ things[index]? = some thing ∧
      store[index]? = some (name, value) := by
  have located := (lookup_reverse_named key id name things).symm.trans found
  rw [same] at located
  obtain ⟨index, latest, there⟩ := Option.bind_eq_some_iff.mp located
  obtain ⟨⟨owner, value⟩, here, rfl⟩ : ∃ v, store[index]? = some v ∧ v.1 = name := by
    simpa [names] using lastIndex?_found latest
  exact ⟨index, value, latest, by simpa using there, here⟩

end Store

/-- The value of a literal or of a variable. No other expression is evaluated. -/
def Expr.value? (store : Store) : Expr → Option Constant
  | .lit text type => Literal.meaning? text type
  | .var name => store.value? name
  | _ => none

/-- Whether a comparison of numbers holds. -/
def Expr.holds? (store : Store) : Expr → Option Bool
  | .binary left .greater right =>
    match left.value? store, right.value? store with
    | some (.number l), some (.number r) => some (decide (r < l))
    | _, _ => none
  | _ => none

mutual

/-- The variables after a statement, none for a statement without a meaning. -/
def Stmt.run? (store : Store) : Stmt → Option Store
  | .declare name value => (value.value? store).map fun v => store.declare name v
  | .evaluate (.binary (.var name) .assign value) => do
    let v ← value.value? store
    store.assign? name v
  | .branch condition body => do
    let holds ← condition.holds? store
    if holds then runAll? store body else some store
  | _ => none

def Stmt.runAll? (store : Store) : List Stmt → Option Store
  | [] => some store
  | s :: rest => do
    let store ← run? store s
    runAll? store rest

end

theorem Expr.holds?_greater {store : Store} {l r : Expr} {holds : Bool}
    (decided : (Expr.binary l .greater r).holds? store = some holds) :
    ∃ m n, l.value? store = some (.number m) ∧ r.value? store = some (.number n) ∧
      holds = decide (n < m) := by
  rw [Expr.holds?] at decided
  split at decided
  · rename_i m n left right
    cases decided
    exact ⟨m, n, left, right, rfl⟩
  · cases decided

/-- The only expression that can be a statement is an assignment to a variable. -/
theorem Stmt.run?_evaluate {store after : Store} {e : Expr}
    (ran : Stmt.run? store (.evaluate e) = some after) :
    ∃ name value v index, e = .binary (.var name) .assign value ∧ value.value? store = some v ∧
      store.latest? name = some index ∧ after = store.set index (name, v) := by
  unfold Stmt.run? at ran
  split at ran
  · contradiction
  · rename_i name value shape
    obtain ⟨v, read, assigned⟩ := Option.bind_eq_some_iff.mp ran
    obtain ⟨index, latest, rfl⟩ := Option.map_eq_some_iff.mp assigned
    exact ⟨name, value, v, index, Stmt.evaluate.inj shape, read, latest, rfl⟩
  · contradiction
  · cases ran

/-- A function with a variable that is declared again and changed in a branch. -/
def shadowing : Function :=
  ⟨"main", [], none, [.declare "a" (.lit "7" .number), .declare "b" (.lit "true" .boolean),
    .declare "a" (.var "a"), .branch (.binary (.var "a") .greater (.lit "3" .number))
      [.evaluate (.assignTo "a" (.lit "1" .number))]]⟩

theorem shadowing_runs : Stmt.runAll? [] shadowing.body =
    some [("a", .number 7), ("b", .boolean true), ("a", .number 1)] := by
  decide +kernel

end DeltaLang
