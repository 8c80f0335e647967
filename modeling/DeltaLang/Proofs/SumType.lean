import DeltaLang.SumType.Expansion
import Mathlib.Data.List.Lattice
import Mathlib.Data.List.Nodup
import Mathlib.Data.List.Pairwise

namespace DeltaLang.SumType

def Definition.variants : Definition → List Variant
  | .plain _ => []
  | .sum variants => variants

/-- The types that declarations introduce, in their order. -/
def typeNames (declarations : List Declaration) : List String :=
  declarations.flatMap fun d => d.name :: d.definition.variants.map Variant.name

namespace Output

def typeName? : Output → Option String
  | .named name _ => some name
  | .interface name _ => some name
  | .struct name _ => some name
  | .method _ _ => none

def receiver? : Output → Option String
  | .method receiver _ => some receiver
  | _ => none

end Output

/-- The type of a name is an interface of the file, by its own declaration or by those of the types
that it is declared as. `names` tells the name that a type expression is, if it is one. -/
inductive IsInterface (names : String → Option String) (outputs : List Output) : String → Prop
  | declared {name marker : String} (here : .interface name marker ∈ outputs) :
      IsInterface names outputs name
  | named {name type next : String} (here : .named name type ∈ outputs)
      (means : names type = some next) (rest : IsInterface names outputs next) :
      IsInterface names outputs name

/-- A type expression is a sum type, by its name or by those of plain types. -/
inductive LeadsToSum (names : String → Option String) (declarations : List Declaration) :
    String → Prop
  | sum {type name : String} (means : names type = some name)
      (found : isSumType declarations name = true) : LeadsToSum names declarations type
  | plain {type kind : String} {d : Declaration} (means : names type = some d.name)
      (member : d ∈ declarations) (isPlain : d.definition = .plain kind)
      (rest : LeadsToSum names declarations (typeOf kind)) : LeadsToSum names declarations type

section Members

variable {declarations : List Declaration}

theorem isSumType_iff {name : String} :
    isSumType declarations name = true ↔
      ∃ d ∈ declarations, d.name = name ∧ ∃ variants, d.definition = .sum variants := by
  simp only [isSumType, List.any_eq_true, Bool.and_eq_true, beq_iff_eq]
  refine exists_congr fun d => and_congr_right fun _ => and_congr_right fun _ => ?_
  cases d.definition <;> simp [Definition.isSum]

def variantType (declarations : List Declaration) (v : Variant) : Output :=
  if isSumType declarations (typeOf v.kind) then .struct v.name (typeOf v.kind)
  else .named v.name (typeOf v.kind)

theorem variantType_typeName? (v : Variant) :
    (variantType declarations v).typeName? = some v.name := by
  unfold variantType
  split <;> rfl

/-- Where an output comes from. -/
theorem mem_expand_iff {o : Output} :
    o ∈ expand declarations ↔ ∃ d ∈ declarations,
      (∃ kind, d.definition = .plain kind ∧ o = .named d.name (typeOf kind)) ∨
      (∃ variants, d.definition = .sum variants ∧ o = .interface d.name (marker d.name)) ∨
      ∃ v ∈ d.definition.variants,
        o = variantType declarations v ∨ o = .method v.name (marker d.name) := by
  simp only [expand, List.mem_flatMap]
  refine exists_congr fun d => and_congr_right fun _ => ?_
  cases shape : d.definition with
  | plain kind => simp [expandDeclaration, shape, Definition.variants]
  | sum variants =>
    simp [expandDeclaration, shape, Definition.variants, expandVariant, variantType]

theorem interface_mem {name found : String} (here : .interface name found ∈ expand declarations) :
    isSumType declarations name = true := by
  obtain ⟨d, member, ⟨kind, -, other⟩ | ⟨variants, isSum, same⟩ | ⟨v, -, other | other⟩⟩ :=
    mem_expand_iff.mp here
  · cases other
  · cases same
    exact isSumType_iff.mpr ⟨d, member, rfl, variants, isSum⟩
  · unfold variantType at other
    split at other <;> cases other
  · cases other

theorem interface_of_isSumType {name : String} (found : isSumType declarations name = true) :
    .interface name (marker name) ∈ expand declarations := by
  obtain ⟨d, member, rfl, variants, isSum⟩ := isSumType_iff.mp found
  exact mem_expand_iff.mpr ⟨d, member, .inr (.inl ⟨variants, isSum, rfl⟩)⟩

/-- A name for another type is a plain type, or a variant that is not wrapped. -/
theorem named_mem {name type : String} (here : .named name type ∈ expand declarations) :
    (∃ d ∈ declarations, ∃ kind, d.name = name ∧ d.definition = .plain kind ∧ type = typeOf kind) ∨
      ∃ d ∈ declarations, ∃ v ∈ d.definition.variants, type = typeOf v.kind ∧
        isSumType declarations (typeOf v.kind) = false := by
  obtain ⟨d, member, ⟨kind, isPlain, same⟩ | ⟨variants, -, other⟩ | ⟨v, inside, same | other⟩⟩ :=
    mem_expand_iff.mp here
  · cases same
    exact .inl ⟨d, member, kind, rfl, isPlain, rfl⟩
  · cases other
  · unfold variantType at same
    split at same
    · cases same
    · next unwrapped =>
      cases same
      exact .inr ⟨d, member, v, inside, rfl, by simpa using unwrapped⟩
  · cases other

theorem method_mem {receiver found : String}
    (here : .method receiver found ∈ expand declarations) :
    ∃ d ∈ declarations, ∃ v ∈ d.definition.variants, v.name = receiver := by
  obtain ⟨d, member, ⟨kind, -, other⟩ | ⟨variants, -, other⟩ | ⟨v, inside, other | same⟩⟩ :=
    mem_expand_iff.mp here
  · cases other
  · cases other
  · unfold variantType at other
    split at other <;> cases other
  · cases same
    exact ⟨d, member, v, inside, rfl⟩

end Members

section Interfaces

variable {names : String → Option String} {declarations : List Declaration}

/-- Some variant holds a sum type under another name. -/
def Hidden (names : String → Option String) (declarations : List Declaration) : Prop :=
  ∃ d ∈ declarations, ∃ v ∈ d.definition.variants,
    LeadsToSum names declarations (typeOf v.kind) ∧ isSumType declarations (typeOf v.kind) = false

theorem isInterface_of_leads {type : String} (leads : LeadsToSum names declarations type) :
    ∃ name, names type = some name ∧ IsInterface names (expand declarations) name := by
  induction leads with
  | sum means found => exact ⟨_, means, .declared (interface_of_isSumType found)⟩
  | @plain type kind d means member isPlain rest ih =>
    obtain ⟨next, meansNext, isInterface⟩ := ih
    have here : .named d.name (typeOf kind) ∈ expand declarations :=
      mem_expand_iff.mpr ⟨d, member, .inl ⟨kind, isPlain, rfl⟩⟩
    exact ⟨d.name, means, .named here meansNext isInterface⟩

/-- The declarations behind an interface pass a variant only if that variant is not wrapped and
holds a sum type. -/
theorem origin_of_isInterface {name : String}
    (isInterface : IsInterface names (expand declarations) name) :
    (∃ d ∈ declarations, d.name = name ∧
      ∀ type, names type = some name → LeadsToSum names declarations type) ∨
      Hidden names declarations := by
  induction isInterface with
  | declared here =>
    have found := interface_mem here
    obtain ⟨d, member, same, -⟩ := isSumType_iff.mp found
    exact .inl ⟨d, member, same, fun type means => .sum means found⟩
  | @named name type next here means rest ih =>
    obtain ⟨-, -, -, leads⟩ | hidden := ih
    · obtain ⟨d, member, kind, rfl, isPlain, rfl⟩ | ⟨d, member, v, inside, rfl, unwrapped⟩ :=
        named_mem here
      · exact .inl ⟨d, member, rfl, fun other same => .plain same member isPlain (leads _ means)⟩
      · exact .inr ⟨d, member, v, inside, leads _ means, unwrapped⟩
    · exact .inr hidden

end Interfaces

section Distinct

variable {declarations : List Declaration}

/-- The only element that goes by a name. -/
theorem filter_name_eq {α : Type} {name? : α → Option String} {l : List α}
    (distinct : (l.filterMap name?).Nodup) {a : α} {name : String} (member : a ∈ l)
    (named : name? a = some name) : l.filter (name? · = some name) = [a] := by
  induction l with
  | nil => cases member
  | cons b rest ih =>
    have later : (rest.filterMap name?).Nodup :=
      distinct.sublist ((List.sublist_cons_self b rest).filterMap name?)
    rcases List.mem_cons.mp member with rfl | inRest
    · have alone : ∀ c ∈ rest, name? c ≠ some name := by
        intro c inside same
        rw [List.filterMap_cons_some named, List.nodup_cons] at distinct
        exact distinct.1 (List.mem_filterMap.mpr ⟨c, inside, same⟩)
      rw [List.filter_cons_of_pos (by simpa using named),
        List.filter_eq_nil_iff.mpr (by simpa using alone)]
    · have other : name? b ≠ some name := by
        intro same
        rw [List.filterMap_cons_some same, List.nodup_cons] at distinct
        exact distinct.1 (List.mem_filterMap.mpr ⟨a, inRest, named⟩)
      rw [List.filter_cons_of_neg (by simpa using other), ih later inRest]

theorem expandVariant_eq (owner : String) (v : Variant) :
    expandVariant declarations owner v =
      [variantType declarations v, .method v.name (marker owner)] :=
  rfl

theorem expandVariant_receiver? (owner : String) (v : Variant) :
    (expandVariant declarations owner v).filterMap Output.receiver? = [v.name] := by
  rw [expandVariant_eq, variantType]
  split <;> rfl

theorem expandVariant_typeName? (owner : String) (v : Variant) :
    (expandVariant declarations owner v).filterMap Output.typeName? = [v.name] := by
  rw [expandVariant_eq, List.filterMap_cons_some (variantType_typeName? v)]
  rfl

theorem variants_names {name? : Output → Option String} {owner : String}
    (once : ∀ v, (expandVariant declarations owner v).filterMap name? = [v.name])
    (variants : List Variant) :
    (variants.flatMap (expandVariant declarations owner)).filterMap name? =
      variants.map Variant.name := by
  rw [List.filterMap_flatMap, List.map_eq_flatMap]
  congr 1
  funext v
  exact once v

/-- Each type is declared once, in the order of the file. -/
theorem expand_typeName? (declarations : List Declaration) :
    (expand declarations).filterMap Output.typeName? = typeNames declarations := by
  rw [expand, typeNames, List.filterMap_flatMap]
  congr 1
  funext d
  cases shape : d.definition with
  | plain kind => simp [expandDeclaration, shape, Output.typeName?, Definition.variants]
  | sum variants =>
    have others := variants_names (@expandVariant_typeName? declarations d.name)
    have named : Output.typeName? (.interface d.name (marker d.name)) = some d.name := rfl
    simp only [expandDeclaration, shape, Definition.variants]
    rw [List.filterMap_cons_some named, others]

/-- Each variant gets a method once. -/
theorem expand_receiver? (declarations : List Declaration) :
    (expand declarations).filterMap Output.receiver? =
      declarations.flatMap fun d => d.definition.variants.map Variant.name := by
  rw [expand, List.filterMap_flatMap]
  congr 1
  funext d
  cases shape : d.definition with
  | plain kind => simp [expandDeclaration, shape, Output.receiver?, Definition.variants]
  | sum variants =>
    have others := variants_names (@expandVariant_receiver? declarations d.name)
    simp only [expandDeclaration, shape, Definition.variants]
    rw [List.filterMap_cons_none rfl, others]

theorem variants_sublist (declarations : List Declaration) :
    (declarations.flatMap fun d => d.definition.variants.map Variant.name).Sublist
      (typeNames declarations) := by
  induction declarations with
  | nil => exact .slnil
  | cons d rest ih =>
    rw [typeNames, List.flatMap_cons, List.flatMap_cons]
    exact (List.sublist_cons_self _ _).append ih

theorem receivers_nodup (distinct : (typeNames declarations).Nodup) :
    ((expand declarations).filterMap Output.receiver?).Nodup := by
  rw [expand_receiver?]
  exact distinct.sublist (variants_sublist declarations)

/-- No declaration has the name of a variant. -/
theorem variant_name_ne (distinct : (typeNames declarations).Nodup) {d other : Declaration}
    {v : Variant} (member : d ∈ declarations) (inside : v ∈ d.definition.variants)
    (member' : other ∈ declarations) : other.name ≠ v.name := by
  intro same
  have named : v.name ∈ d.definition.variants.map Variant.name := List.mem_map_of_mem inside
  obtain ⟨each, apart⟩ := List.nodup_flatMap.mp distinct
  by_cases here : other = d
  · subst here
    rw [← same] at named
    exact (List.nodup_cons.mp (each other member')).1 named
  · have symm : Std.Symm (Function.onFun List.Disjoint fun d : Declaration =>
        d.name :: d.definition.variants.map Variant.name) := ⟨fun _ _ disjoint => disjoint.symm⟩
    have disjoint := apart.forall member' member here
    exact disjoint List.mem_cons_self (same ▸ List.mem_cons_of_mem _ named)

end Distinct

/-- In a file of distinct types no method is put on an interface exactly if no variant holds a sum
type under another name. Every variant is declared once, and has one method, which is the one of its
sum type. -/
theorem methods_avoid_interfaces_iff (names : String → Option String)
    {declarations : List Declaration} (distinct : (typeNames declarations).Nodup) :
    ((∀ receiver found, .method receiver found ∈ expand declarations →
        ¬IsInterface names (expand declarations) receiver) ↔ ¬Hidden names declarations) ∧
      ∀ d ∈ declarations, ∀ v ∈ d.definition.variants,
        (expand declarations).filter (·.typeName? = some v.name) = [variantType declarations v] ∧
        (expand declarations).filter (·.receiver? = some v.name) =
          [.method v.name (marker d.name)] := by
  refine ⟨⟨?_, ?_⟩, ?_⟩
  · rintro avoids ⟨d, member, v, inside, leads, unwrapped⟩
    obtain ⟨next, means, isInterface⟩ := isInterface_of_leads leads
    have here : .named v.name (typeOf v.kind) ∈ expand declarations :=
      mem_expand_iff.mpr
        ⟨d, member, .inr (.inr ⟨v, inside, .inl (by simp [variantType, unwrapped])⟩)⟩
    have method : .method v.name (marker d.name) ∈ expand declarations :=
      mem_expand_iff.mpr ⟨d, member, .inr (.inr ⟨v, inside, .inr rfl⟩)⟩
    exact avoids v.name (marker d.name) method (.named here means isInterface)
  · intro seen receiver found method isInterface
    obtain ⟨d, member, v, inside, rfl⟩ := method_mem method
    obtain ⟨other, member', same, -⟩ | hidden := origin_of_isInterface isInterface
    · exact variant_name_ne distinct member inside member' same
    · exact seen hidden
  · intro d member v inside
    have declared : variantType declarations v ∈ expand declarations :=
      mem_expand_iff.mpr ⟨d, member, .inr (.inr ⟨v, inside, .inl rfl⟩)⟩
    have method : .method v.name (marker d.name) ∈ expand declarations :=
      mem_expand_iff.mpr ⟨d, member, .inr (.inr ⟨v, inside, .inr rfl⟩)⟩
    refine ⟨?_, ?_⟩
    · exact filter_name_eq (by rwa [expand_typeName?]) declared (variantType_typeName? v)
    · exact filter_name_eq (receivers_nodup distinct) method rfl

/-- In `type A = | V of string; type B = A; type C = | W of B;` the method of `W` is put on the
interface `A`. -/
theorem method_on_hidden_interface :
    let declarations : List Declaration := [⟨"A", .sum [⟨"V", "string"⟩]⟩, ⟨"B", .plain "A"⟩,
      ⟨"C", .sum [⟨"W", "B"⟩]⟩]
    (typeNames declarations).Nodup ∧ Hidden some declarations ∧
      ¬∀ receiver found, .method receiver found ∈ expand declarations →
        ¬IsInterface some (expand declarations) receiver := by
  intro declarations
  have distinct : (typeNames declarations).Nodup := by decide
  have hidden : Hidden some declarations := by
    have inner : LeadsToSum some declarations (typeOf "A") := .sum rfl (by decide)
    have outer : LeadsToSum some declarations (typeOf "B") :=
      .plain (d := ⟨"B", .plain "A"⟩) rfl (by simp [declarations]) rfl inner
    exact ⟨⟨"C", .sum [⟨"W", "B"⟩]⟩, by simp [declarations], ⟨"W", "B"⟩,
      by simp [Definition.variants], outer, by decide⟩
  exact ⟨distinct, hidden, fun avoids =>
    (methods_avoid_interfaces_iff some distinct).1.mp avoids hidden⟩

end DeltaLang.SumType
