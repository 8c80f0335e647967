import DeltaLang.Assembly.Lowering
import DeltaLang.Proofs.Ir.Acceptance
import Mathlib.Data.List.Forall2

namespace DeltaLang

section Traversal

theorem forall₂_exists_right {α β : Type} {R : α → β → Prop} {xs : List α} {ys : List β}
    (related : List.Forall₂ R xs ys) {x : α} (member : x ∈ xs) : ∃ y ∈ ys, R x y := by
  induction related with
  | nil => cases member
  | cons here later ih =>
    rcases List.mem_cons.mp member with rfl | member
    · exact ⟨_, List.mem_cons_self, here⟩
    · obtain ⟨y, found, holds⟩ := ih member
      exact ⟨y, List.mem_cons_of_mem _ found, holds⟩

theorem forall₂_exists_left {α β : Type} {R : α → β → Prop} {xs : List α} {ys : List β}
    (related : List.Forall₂ R xs ys) {y : β} (member : y ∈ ys) : ∃ x ∈ xs, R x y :=
  forall₂_exists_right (R := flip R) related.flip member

variable {α : Type} {one : Function → Except Error α}

theorem mapM_eq_ok {members : List Function} {parts : List α} :
    members.mapM one = .ok parts ↔ List.Forall₂ (fun f part => one f = .ok part) members parts := by
  induction members generalizing parts with
  | nil =>
    rw [List.mapM_nil, List.forall₂_nil_left_iff]
    exact ⟨fun same => (Except.ok.inj same).symm, fun same => by rw [same]; rfl⟩
  | cons f rest ih =>
    rw [List.mapM_cons, List.forall₂_cons_left_iff, bind_eq_ok]
    constructor
    · rintro ⟨part, first, later⟩
      obtain ⟨others, lowered, same⟩ := bind_eq_ok.mp later
      exact ⟨part, others, first, ih.mp lowered, (Except.ok.inj same).symm⟩
    · rintro ⟨part, others, first, lowered, rfl⟩
      exact ⟨part, first, bind_eq_ok.mpr ⟨others, ih.mpr lowered, rfl⟩⟩

theorem split_cons {f : Function} {rest : List Function} {P : List Function → Function → Prop} :
    (∃ before g after, f :: rest = before ++ g :: after ∧ P before g) ↔
      P [] f ∨ ∃ before g after, rest = before ++ g :: after ∧ P (f :: before) g := by
  constructor
  · rintro ⟨before, g, after, shape, holds⟩
    cases before with
    | nil =>
      cases shape
      exact .inl holds
    | cons h others =>
      cases shape
      exact .inr ⟨others, g, after, rfl, holds⟩
  · rintro (holds | ⟨before, g, after, rfl, holds⟩)
    · exact ⟨[], f, rest, rfl, holds⟩
    · exact ⟨f :: before, g, after, rfl, holds⟩

/-- The functions in front of the first one that is refused are accepted, those behind it are not
looked at. -/
theorem mapM_eq_error {members : List Function} {fault : Error} :
    members.mapM one = .error fault ↔ ∃ before f after, members = before ++ f :: after ∧
      (∀ g ∈ before, ∃ part, one g = .ok part) ∧ one f = .error fault := by
  induction members with
  | nil => simp [pure, Except.pure]
  | cons f rest ih =>
    rw [List.mapM_cons, split_cons]
    cases first : one f with
    | error reason => simp [bind, Except.bind, first]
    | ok part =>
      -- an accepted function does not change the fault, it only stands in front of it
      have later : (rest.mapM one >>= fun others => pure (part :: others)) = .error fault ↔
          rest.mapM one = .error fault := by
        cases rest.mapM one <;> simp [bind, Except.bind, pure, Except.pure]
      refine later.trans (ih.trans ?_)
      simp [first]

theorem mapM_ok_iff {members : List Function} :
    (∃ parts, members.mapM one = .ok parts) ↔ ∀ f ∈ members, ∃ part, one f = .ok part := by
  constructor
  · rintro ⟨parts, lowered⟩ f member
    obtain ⟨part, -, found⟩ := forall₂_exists_right (mapM_eq_ok.mp lowered) member
    exact ⟨part, found⟩
  · intro accepted
    cases lowered : members.mapM one with
    | ok parts => exact ⟨parts, rfl⟩
    | error fault =>
      obtain ⟨before, f, after, rfl, -, refused⟩ := mapM_eq_error.mp lowered
      obtain ⟨part, contrary⟩ := accepted f (by simp)
      rw [refused] at contrary
      cases contrary

/-- A recursion that lowers the functions of a list in their order is a traversal, whose parts are
put together at its end. -/
theorem eq_mapM {β : Type} {all : List Function → Except Error β} {join : α → β → β}
    {joined : List α → β} (nil : all [] = .ok (joined []))
    (cons : ∀ f rest, all (f :: rest) = one f >>= fun part => all rest >>= fun others =>
      .ok (join part others))
    (joined_cons : ∀ part parts, joined (part :: parts) = join part (joined parts))
    (members : List Function) : all members = joined <$> members.mapM one := by
  induction members with
  | nil => exact nil
  | cons f rest ih =>
    rw [cons, ih, List.mapM_cons]
    cases one f with
    | error _ => rfl
    | ok part =>
      cases rest.mapM one with
      | error _ => rfl
      | ok parts => exact congrArg Except.ok (joined_cons part parts).symm

end Traversal

section Modules

variable {α β : Type}

/-- A module is lowered function by function. What comes out of a function alone is a part, and
`joined` puts the parts of functions together. -/
structure Modular (lower : Module → Except Error β) (joined : List Function → List α → β)
    (m : Module) : Prop where
  accepts : (∃ result, lower m = .ok result) ↔
    m.members ≠ [] ∧ ∀ f ∈ m.members, ∃ result, lower (.functions [f]) = .ok result
  refuses : ∀ fault, lower m = .error fault ↔
    m.members = [] ∧ fault = .unsupported .emptyModule ∨
    ∃ before f after, m.members = before ++ f :: after ∧
      (∀ g ∈ before, ∃ result, lower (.functions [g]) = .ok result) ∧
      lower (.functions [f]) = .error fault
  composed : ∀ result, lower m = .ok result → ∃ parts,
    List.Forall₂ (fun f part => lower (.functions [f]) = .ok (joined [f] [part])) m.members parts ∧
    result = joined m.members parts

variable {options : Options} {one : Function → Except Error α} {lower : Module → Except Error β}
  {joined : List Function → List α → β} {m : Module}

theorem map_eq_ok {join : α → β} {first : Except Error α} {result : β} :
    join <$> first = .ok result ↔ ∃ part, first = .ok part ∧ join part = result := by
  cases first <;> simp [Functor.map, Except.map]

theorem map_eq_error {join : α → β} {first : Except Error α} {fault : Error} :
    join <$> first = .error fault ↔ first = .error fault := by
  cases first <;> simp [Functor.map, Except.map]

theorem map_ok_iff {join : α → β} {first : Except Error α} :
    (∃ result, join <$> first = .ok result) ↔ ∃ part, first = .ok part := by
  cases first <;> simp [Functor.map, Except.map]

theorem Module.check_of_clear (clear : clash? m.members options.entryName builtins = none) :
    m.check options = if m.members = [] then .error (.unsupported .emptyModule) else .ok () := by
  simp only [check, clear, List.isEmpty_iff]

theorem Module.clash?_single (clear : clash? m.members options.entryName builtins = none)
    {f : Function} (member : f ∈ m.members) :
    clash? (Module.functions [f]).members options.entryName builtins = none := by
  apply clash?_of_clear
  intro name builtin
  obtain ⟨entry, names⟩ := clash?_eq_none clear name builtin
  refine ⟨entry, ?_⟩
  intro g inside
  rw [List.mem_singleton.mp inside]
  exact names f member

/-- A backend checks the names of a module and lowers its functions one after another. -/
def Traverses (options : Options) (lower : Module → Except Error β)
    (one : Function → Except Error α) (joined : List Function → List α → β) : Prop :=
  ∀ m, lower m = m.check options >>= fun _ => joined m.members <$> m.members.mapM one

namespace Traverses

variable (traverses : Traverses options lower one joined)
  (clear : Module.clash? m.members options.entryName builtins = none)

include traverses clear

theorem empty (empty : m.members = []) :
    lower m = .error (.unsupported .emptyModule) := by
  rw [traverses, Module.check_of_clear clear, if_pos empty]
  rfl

theorem filled (filled : m.members ≠ []) :
    lower m = joined m.members <$> m.members.mapM one := by
  rw [traverses, Module.check_of_clear clear, if_neg filled]
  rfl

theorem single {f : Function} (member : f ∈ m.members) :
    lower (.functions [f]) = (fun part => joined [f] [part]) <$> one f := by
  rw [traverses.filled (Module.clash?_single clear member) (by simp [Module.members])]
  simp only [Module.members, List.mapM_cons, List.mapM_nil]
  cases one f <;> rfl

theorem single_ok_iff {f : Function} (member : f ∈ m.members) :
    (∃ result, lower (.functions [f]) = .ok result) ↔ ∃ part, one f = .ok part := by
  rw [traverses.single clear member]
  exact map_ok_iff

theorem accepts (filled : m.members ≠ []) :
    (∃ result, lower m = .ok result) ↔
      ∀ f ∈ m.members, ∃ result, lower (.functions [f]) = .ok result := by
  rw [traverses.filled clear filled, map_ok_iff, mapM_ok_iff]
  exact forall₂_congr fun f member => (traverses.single_ok_iff clear member).symm

theorem refuses (filled : m.members ≠ []) (fault : Error) :
    lower m = .error fault ↔ ∃ before f after, m.members = before ++ f :: after ∧
      (∀ g ∈ before, ∃ result, lower (.functions [g]) = .ok result) ∧
      lower (.functions [f]) = .error fault := by
  rw [traverses.filled clear filled, map_eq_error, mapM_eq_error]
  refine exists_congr fun before => exists_congr fun f => exists_congr fun after =>
    and_congr_right fun shape => ?_
  have here : f ∈ m.members := by simp [shape]
  have inside : ∀ g ∈ before, g ∈ m.members := fun g member => by simp [shape, member]
  rw [traverses.single clear here, map_eq_error]
  exact and_congr_left fun _ => forall₂_congr fun g member =>
    (traverses.single_ok_iff clear (inside g member)).symm

theorem composed (filled : m.members ≠ []) {result : β} (lowered : lower m = .ok result) :
    ∃ parts, List.Forall₂ (fun f part => lower (.functions [f]) = .ok (joined [f] [part]))
      m.members parts ∧ result = joined m.members parts := by
  rw [traverses.filled clear filled] at lowered
  obtain ⟨parts, each, rfl⟩ := map_eq_ok.mp lowered
  have inside := (List.forall₂_and_left m.members parts).mpr
    ⟨fun _ member => member, mapM_eq_ok.mp each⟩
  refine ⟨parts, inside.imp ?_, rfl⟩
  rintro f part ⟨member, found⟩
  rw [traverses.single clear member, found]
  rfl

theorem modular : Modular lower joined m := by
  by_cases empty : m.members = []
  · have refused := traverses.empty clear empty
    exact ⟨by simp [refused, empty], by simp [refused, empty, eq_comm], by simp [refused]⟩
  · refine ⟨?_, ?_, fun _ => traverses.composed clear empty⟩
    · rw [and_iff_right empty]
      exact traverses.accepts clear empty
    · intro fault
      rw [or_iff_right fun contrary => empty contrary.1]
      exact traverses.refuses clear empty fault

end Traverses

end Modules

namespace Assembly

/-- The code of all parts, and behind it their texts. -/
def joined (parts : List Program) : Program :=
  ⟨(parts.map Program.code).flatten, (parts.map Program.data).flatten⟩

theorem functions_eq_mapM (options : Options) (members : List Function) :
    functions options members = joined <$> members.mapM (function options) :=
  eq_mapM rfl (fun _ _ => rfl) (fun _ _ => rfl) members

theorem joined_lines (parts : List Program) :
    (joined parts).lines = .directive ".text" :: (parts.map Program.code).flatten ++
      if ∀ part ∈ parts, part.data = [] then []
      else .blank :: .directive ".section .rodata" :: (parts.map Program.data).flatten := by
  have dataless : (joined parts).data.isEmpty = true ↔ ∀ part ∈ parts, part.data = [] := by
    simp [joined]
  simp only [Program.lines, dataless]
  rfl

theorem functions_parts {options : Options} {members : List Function} {program : Program}
    (lowered : functions options members = .ok program) :
    ∃ parts, List.Forall₂ (fun f part => function options f = .ok part) members parts ∧
      program = joined parts := by
  rw [functions_eq_mapM] at lowered
  obtain ⟨parts, each, rfl⟩ := map_eq_ok.mp lowered
  exact ⟨parts, mapM_eq_ok.mp each, rfl⟩

theorem functions_ok_iff {options : Options} {members : List Function} :
    (∃ program, functions options members = .ok program) ↔
      ∀ f ∈ members, ∃ part, function options f = .ok part := by
  rw [functions_eq_mapM, map_ok_iff, mapM_ok_iff]

theorem functions_eq_error {options : Options} {members : List Function} {fault : Error} :
    functions options members = .error fault ↔
      ∃ before f after, members = before ++ f :: after ∧
        (∀ g ∈ before, ∃ part, function options g = .ok part) ∧
        function options f = .error fault := by
  rw [functions_eq_mapM, map_eq_error, mapM_eq_error]

theorem generate_traverses (options : Options) :
    Traverses options (generate options) (function options) fun _ => joined := by
  intro m
  rw [← functions_eq_mapM]
  rfl

end Assembly

namespace Ir

/-- The definitions of the parts, and their texts with the types of all functions behind them. -/
def joined (members : List Function) (parts : List (Definition × List Global)) : Ir.Module :=
  ⟨(parts.map Prod.snd).flatten ++ [typeGlobal (.functions members)], parts.map Prod.fst⟩

def Module.addAll (m : Module) (parts : List (Definition × List Global)) : Module :=
  ⟨m.globals ++ (parts.map Prod.snd).flatten, m.definitions ++ parts.map Prod.fst⟩

theorem Module.addAll_cons (m : Module) (part : Definition × List Global)
    (parts : List (Definition × List Global)) :
    m.addAll (part :: parts) = (m.add part.1 part.2).addAll parts := by
  simp [addAll, add]

/-- However a context was left, the functions that follow are lowered one by one. -/
theorem Context.functions_module (options : Options) (context : Context)
    (members : List Function) :
    module <$> context.functions options members =
      context.module.addAll <$> members.mapM (Ir.function options) := by
  induction members generalizing context with
  | nil =>
    rw [List.mapM_nil]
    simp [functions, Module.addAll, Functor.map, Except.map, pure, Except.pure]
  | cons f rest ih =>
    have first := context.function_module options f
    rw [List.mapM_cons, functions]
    cases lowered : Ir.function options f with
    | error fault =>
      rw [lowered] at first
      rw [map_eq_error.mp first]
      rfl
    | ok part =>
      rw [lowered] at first
      obtain ⟨next, accepted, added⟩ := map_eq_ok.mp first
      have later := ih next
      rw [accepted]
      change module <$> next.functions options rest = _
      rw [later, added]
      cases rest.mapM (Ir.function options) with
      | error fault => rfl
      | ok parts => exact congrArg Except.ok (context.module.addAll_cons part parts).symm

theorem Context.functions_ok_iff {options : Options} {context : Context}
    {members : List Function} :
    (∃ last, context.functions options members = .ok last) ↔
      ∀ f ∈ members, ∃ part, Ir.function options f = .ok part := by
  rw [← @map_ok_iff _ _ module, functions_module, map_ok_iff, mapM_ok_iff]

theorem Context.functions_eq_error {options : Options} {context : Context}
    {members : List Function} {fault : Error} :
    context.functions options members = .error fault ↔
      ∃ before f after, members = before ++ f :: after ∧
        (∀ g ∈ before, ∃ part, Ir.function options g = .ok part) ∧
        Ir.function options f = .error fault := by
  rw [← @map_eq_error _ _ module, functions_module, map_eq_error, mapM_eq_error]

theorem generate_traverses (options : Options) :
    Traverses options (generate options) (function options) joined := by
  intro m
  have lowered := Context.start.functions_module options m.members
  rw [generate]
  cases m.check options with
  | error _ => rfl
  | ok _ =>
    cases each : m.members.mapM (function options) with
    | error fault =>
      rw [each] at lowered
      rw [map_eq_error.mp lowered]
      rfl
    | ok parts =>
      rw [each] at lowered
      obtain ⟨context, accepted, added⟩ := map_eq_ok.mp lowered
      rw [accepted]
      change Except.ok _ = Except.ok _
      rw [added]
      rfl

theorem generate_parts {options : Options} {m : DeltaLang.Module} {module : Module}
    (generated : generate options m = .ok module) :
    ∃ parts, List.Forall₂ (fun f part => function options f = .ok part) m.members parts ∧
      module = joined m.members parts := by
  rw [generate_traverses options m] at generated
  obtain ⟨-, -, lowered⟩ := bind_eq_ok.mp generated
  obtain ⟨parts, each, rfl⟩ := map_eq_ok.mp lowered
  exact ⟨parts, mapM_eq_ok.mp each, rfl⟩

end Ir

/-- Both backends lower a module function by function. In assembly the code of all functions comes
first, in their order, and then the texts of all functions. -/
theorem generate_modular (options : Options) (m : Module)
    (clear : Module.clash? m.members options.entryName builtins = none) :
    Modular (Assembly.generate options) (fun _ => Assembly.joined) m ∧
    (∀ parts : List Assembly.Program, (Assembly.joined parts).lines =
      .directive ".text" :: (parts.map Assembly.Program.code).flatten ++
        if ∀ part ∈ parts, part.data = [] then []
        else .blank :: .directive ".section .rodata" ::
          (parts.map Assembly.Program.data).flatten) ∧
    Modular (Ir.generate options) Ir.joined m := by
  refine ⟨?_, Assembly.joined_lines, ?_⟩
  · exact (Assembly.generate_traverses options).modular clear
  · exact (Ir.generate_traverses options).modular clear

/-- Two functions with the same variables, of which only the first prints them. -/
theorem generate_modular_shadowing :
    Module.clash? [shadowing, ⟨"helper", [], none, shadowing.body⟩] "main" builtins = none ∧
    (∃ program, Assembly.generate ⟨"", 3, true⟩ (.functions [shadowing,
      ⟨"helper", [], none, shadowing.body⟩]) = .ok program) ∧
    Modular (Assembly.generate ⟨"", 3, true⟩) (fun _ => Assembly.joined)
      (.functions [shadowing, ⟨"helper", [], none, shadowing.body⟩]) ∧
    Modular (Ir.generate ⟨"", 3, true⟩) Ir.joined
      (.functions [shadowing, ⟨"helper", [], none, shadowing.body⟩]) := by
  have clear : Module.clash? [shadowing, ⟨"helper", [], none, shadowing.body⟩] "main" builtins =
      none := by decide
  obtain ⟨assembly, -, ir⟩ := generate_modular ⟨"", 3, true⟩
    (.functions [shadowing, ⟨"helper", [], none, shadowing.body⟩]) clear
  exact ⟨clear, ⟨_, rfl⟩, assembly, ir⟩

/-- A module without functions is refused, although there is none of them that is refused alone. -/
theorem empty_refused :
    ¬∀ (options : Options) (m : Module),
      Module.clash? m.members options.entryName builtins = none →
        ((∃ program, Assembly.generate options m = .ok program) ↔ ∀ f ∈ m.members,
          ∃ program, Assembly.generate options (.functions [f]) = .ok program) := by
  intro claimed
  have accepted := (claimed ⟨"", 0, false⟩ (.functions []) (by decide)).mpr
    (fun f member => absurd member List.not_mem_nil)
  obtain ⟨program, contrary⟩ := accepted
  cases contrary

end DeltaLang
