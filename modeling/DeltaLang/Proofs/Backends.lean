import DeltaLang.Proofs.Assembly.Acceptance
import DeltaLang.Proofs.Functions
import DeltaLang.Proofs.Ir.Acceptance

namespace DeltaLang

theorem Scope.checkBody_append (scope : Scope) (front back : List Stmt) :
    scope.checkBody (front ++ back) =
      scope.checkBody front >>= fun after => after.checkBody back := by
  induction front generalizing scope with
  | nil => rfl
  | cons s rest ih =>
    simp only [List.cons_append, checkBody, ih]
    cases scope.checkStatement s <;> rfl

/-- Statements in front of a declaration that has no slot, although all declarations in front of it
have theirs. `late` is why it has none. -/
structure Unplaced (body front : List Stmt) (late : Error) : Prop where
  shape : ∃ name value back, body = front ++ .declare name value :: back ∧
    Frame.layout (front ++ [.declare name value]) = .error late
  placed : ∃ frame, Frame.layout front = .ok frame

/-- The declaration of `Unplaced`, with the reason in terms of the variables in front of it. -/
theorem Unplaced.declared {body front : List Stmt} {late : Error}
    (unplaced : Unplaced body front late) :
    ∃ name value back slots, body = front ++ .declare name value :: back ∧
      Frame.place [] Frame.returnSlot front = (slots, none) ∧
      (Frame.extended [] slots).declared name value = .error late := by
  obtain ⟨name, value, back, shape, refused⟩ := unplaced.shape
  obtain ⟨frame, laid⟩ := unplaced.placed
  have placed := Frame.layout_placed laid
  obtain ⟨reached, joined⟩ := Frame.place_append placed [.declare name value]
  rw [layout_eq_error, joined] at refused
  refine ⟨name, value, back, frame.slots, shape, placed, ?_⟩
  obtain ⟨fault, reason, stopped⟩ | ⟨type, width, -, -, accepted⟩ :=
    Frame.place_declare (Frame.extended [] frame.slots) reached name value
  · rw [stopped] at refused
    cases refused
    exact reason
  · rw [accepted] at refused
    cases refused

theorem Unplaced.layout {body front : List Stmt} {late : Error}
    (unplaced : Unplaced body front late) :
    Frame.layout body = .error late := by
  obtain ⟨name, value, back, slots, rfl, placed, reason⟩ := unplaced.declared
  obtain ⟨reached, joined⟩ := Frame.place_append placed (.declare name value :: back)
  rw [layout_eq_error, joined, Frame.place_declare_error reason]

theorem unplaced_of_layout {body : List Stmt} {late : Error}
    (refused : Frame.layout body = .error late) :
    ∃ front, Unplaced body front late := by
  obtain ⟨front, name, value, back, slots, rfl, placed, reason⟩ :=
    Frame.place_fault (layout_eq_error.mp refused)
  refine ⟨front, ⟨name, value, back, rfl, ?_⟩, layout_eq_ok.mpr (by rw [placed])⟩
  obtain ⟨reached, joined⟩ := Frame.place_append placed [.declare name value]
  rw [layout_eq_error, joined, Frame.place_declare_error reason]

/-- A body without a slot for one of its declarations breaks a rule at that declaration, unless it
breaks one in front of it. -/
theorem Unplaced.checkBody {body front : List Stmt} {late : Error}
    (unplaced : Unplaced body front late) :
    (∃ early, Scope.checkBody [] front = .error early ∧ Scope.checkBody [] body = .error early) ∨
      (∃ scope, Scope.checkBody [] front = .ok scope) ∧ Scope.checkBody [] body = .error late := by
  obtain ⟨name, value, back, slots, rfl, placed, reason⟩ := unplaced.declared
  rw [Scope.checkBody_append]
  cases checked : Scope.checkBody [] front with
  | error early => exact .inl ⟨early, rfl, rfl⟩
  | ok scope =>
    refine .inr ⟨⟨scope, rfl⟩, ?_⟩
    obtain ⟨-, same⟩ := Frame.checkBody_placed Frame.returnSlot checked
    rw [placed] at same
    subst same
    change (Scope.checkStatement _ _ >>= _) = _
    simp only [Scope.checkStatement, reason]
    rfl

/-- Both backends accept a function, or both refuse it. Their reasons differ only where a statement
in front of a declaration without a slot breaks a rule. -/
theorem function_agrees (options : Options) (f : Function) :
    (∃ program definition, Assembly.function options f = .ok program ∧
      Ir.function options f = .ok definition) ∨
    ∃ first second, Assembly.function options f = .error first ∧
      Ir.function options f = .error second ∧
      (first = second ∨ ∃ front, f.arguments = [] ∧ Unplaced f.body front first ∧
        Ir.statements .start front = .error second) := by
  by_cases plain : f.arguments = []
  · have ir := Ir.function_follows options plain
    cases laid : Frame.layout f.body with
    | ok frame =>
      have assembly := Assembly.function_follows options plain laid
      cases checked : Scope.checkBody [] f.body with
      | ok scope =>
        obtain ⟨program, accepted⟩ := assembly.ok_iff.mpr ⟨scope, checked⟩
        obtain ⟨definition, accepted'⟩ := ir.ok_iff.mpr ⟨scope, checked⟩
        exact .inl ⟨program, definition, accepted, accepted'⟩
      | error fault =>
        exact .inr ⟨fault, fault, assembly.error_iff.mpr checked, ir.error_iff.mpr checked,
          .inl rfl⟩
    | error late =>
      have assembly := Assembly.function_eq_error options plain laid
      obtain ⟨front, unplaced⟩ := unplaced_of_layout laid
      have lowered := Ir.statements_follows .start (Named.nil _) front
      obtain ⟨early, inFront, checked⟩ | ⟨-, checked⟩ := unplaced.checkBody
      · exact .inr ⟨late, early, assembly, ir.error_iff.mpr checked,
          .inr ⟨front, plain, unplaced, lowered.error_iff.mpr inFront⟩⟩
      · exact .inr ⟨late, late, assembly, ir.error_iff.mpr checked, .inl rfl⟩
  · have refused : (!f.arguments.isEmpty) = true := by simp [plain]
    exact .inr ⟨.unsupported (.arguments f.name), .unsupported (.arguments f.name),
      by rw [Assembly.function, if_pos refused], by rw [Ir.function, if_pos refused], .inl rfl⟩

theorem function_accepted_iff (options : Options) (f : Function) :
    (∃ program, Assembly.function options f = .ok program) ↔
      ∃ definition, Ir.function options f = .ok definition := by
  obtain ⟨program, definition, assembly, ir⟩ | ⟨first, second, assembly, ir, -⟩ :=
    function_agrees options f
  · exact ⟨fun _ => ⟨definition, ir⟩, fun _ => ⟨program, assembly⟩⟩
  · simp [assembly, ir]

theorem functions_agree (options : Options) (members : List Function) :
    (∃ program context, Assembly.functions options members = .ok program ∧
      Ir.Context.start.functions options members = .ok context) ∨
    ∃ accepted f rest first second, members = accepted ++ f :: rest ∧
      (∀ g ∈ accepted, ∃ result, Ir.function options g = .ok result) ∧
      Assembly.function options f = .error first ∧ Ir.function options f = .error second ∧
      Assembly.functions options members = .error first ∧
      Ir.Context.start.functions options members = .error second := by
  cases lowered : Ir.Context.start.functions options members with
  | ok context =>
    have each := Ir.Context.functions_ok_iff.mp ⟨context, lowered⟩
    obtain ⟨program, accepted⟩ := Assembly.functions_ok_iff.mpr fun f member =>
      (function_accepted_iff options f).mpr (each f member)
    exact .inl ⟨program, context, accepted, rfl⟩
  | error second =>
    obtain ⟨accepted, f, rest, shape, before, refused⟩ := Ir.Context.functions_eq_error.mp lowered
    obtain ⟨_, _, -, contrary⟩ | ⟨first, _, assembly, -⟩ := function_agrees options f
    · rw [refused] at contrary
      cases contrary
    · refine .inr ⟨accepted, f, rest, first, second, shape, before, assembly, refused, ?_, rfl⟩
      exact Assembly.functions_eq_error.mpr ⟨accepted, f, rest, shape,
        fun g member => (function_accepted_iff options g).mpr (before g member), assembly⟩

/-- The two backends accept the same modules. -/
theorem generate_accepts_same (options : Options) (m : Module) :
    (∃ program, Assembly.generate options m = .ok program) ↔
      ∃ generated, Ir.generate options m = .ok generated := by
  simp only [Assembly.generate, Ir.generate]
  cases m.check options with
  | error fault => simp [bind, Except.bind]
  | ok checked =>
    obtain ⟨program, generated, assembly, ir⟩ |
      ⟨accepted, f, rest, first, second, -, -, -, -, assembly, ir⟩ :=
        functions_agree options m.members
    · simp [bind, Except.bind, assembly, ir]
    · simp [bind, Except.bind, assembly, ir]

/-- An error as it is seen from outside: its kind and its fields, a construct by its wording. -/
def Error.seen : Error → Error
  | .unsupported construct => .unsupported (.named construct.text)
  | other => other

/-- The first function that is refused has a declaration without a slot, for the reason `late`, and
in front of it a statement that breaks a rule by itself, for the reason `early`. -/
structure Overtaken (options : Options) (m : Module) (late early : Error) : Prop where
  checked : m.check options = .ok ()
  refused : ∃ accepted f rest front, m.members = accepted ++ f :: rest ∧
    (∀ g ∈ accepted, ∃ result, Ir.function options g = .ok result) ∧ f.arguments = [] ∧
    Unplaced f.body front late ∧ Ir.statements .start front = .error early

/-- Assembly reports the declaration and IR the statement in front of it. -/
theorem Overtaken.generate {options : Options} {m : Module} {late early : Error}
    (overtaken : Overtaken options m late early) :
    Assembly.generate options m = .error late ∧ Ir.generate options m = .error early := by
  obtain ⟨accepted, f, rest, front, shape, before, plain, unplaced, inFront⟩ := overtaken.refused
  have lowered := Ir.statements_follows .start (Named.nil _) front
  have ir : Ir.function options f = .error early := by
    obtain ⟨fault, found, checked⟩ | ⟨⟨scope, found⟩, -⟩ := unplaced.checkBody
    · have same : fault = early := by
        simpa using found.symm.trans (lowered.error_iff.mp inFront)
      subst same
      exact (Ir.function_follows options plain).error_iff.mpr checked
    · have contrary := found.symm.trans (lowered.error_iff.mp inFront)
      cases contrary
  constructor
  · simp only [Assembly.generate, overtaken.checked, shape, bind, Except.bind]
    exact Assembly.functions_eq_error.mpr ⟨accepted, f, rest, rfl,
      fun g member => (function_accepted_iff options g).mpr (before g member),
      Assembly.function_eq_error options plain unplaced.layout⟩
  · have stopped : Ir.Context.start.functions options (accepted ++ f :: rest) = .error early :=
      Ir.Context.functions_eq_error.mpr ⟨accepted, f, rest, rfl, before, ir⟩
    simp only [Ir.generate, overtaken.checked, shape, stopped, bind, Except.bind]

theorem same_or_overtaken {options : Options} {m : Module} {first second : Error}
    (assembly : Assembly.generate options m = .error first)
    (ir : Ir.generate options m = .error second) :
    first = second ∨ Overtaken options m first second := by
  simp only [Assembly.generate, Ir.generate] at assembly ir
  cases checked : m.check options with
  | error fault =>
    rw [checked] at assembly ir
    cases assembly
    cases ir
    exact .inl rfl
  | ok _ =>
    obtain ⟨program, generated, accepted, accepted'⟩ |
      ⟨accepted, f, rest, fault, fault', shape, before, found, found', stopped, stopped'⟩ :=
        functions_agree options m.members
    · simp [checked, accepted, bind, Except.bind] at assembly
    · simp only [checked, stopped, stopped', bind, Except.bind, Except.error.injEq] at assembly ir
      subst assembly ir
      obtain ⟨program, definition, contrary, -⟩ |
        ⟨first, second, refused, refused', same | ⟨front, plain, unplaced, inFront⟩⟩ :=
          function_agrees options f
      · rw [found] at contrary
        cases contrary
      · rw [found] at refused
        rw [found'] at refused'
        cases refused
        cases refused'
        exact .inl same
      · rw [found] at refused
        rw [found'] at refused'
        cases refused
        cases refused'
        exact .inr ⟨checked, accepted, f, rest, front, shape, before, plain, unplaced, inFront⟩

/-- When both backends refuse a module they report the same error, unless a declaration without a
slot is overtaken by a statement that breaks a rule in another way. -/
theorem refusals_agree_iff (options : Options) (m : Module) (first second : Error)
    (assembly : Assembly.generate options m = .error first)
    (ir : Ir.generate options m = .error second) :
    first.seen = second.seen ↔
      ¬∃ late early, Overtaken options m late early ∧ late.seen ≠ early.seen := by
  constructor
  · rintro same ⟨late, early, overtaken, different⟩
    obtain ⟨assembly', ir'⟩ := overtaken.generate
    rw [assembly] at assembly'
    rw [ir] at ir'
    cases assembly'
    cases ir'
    exact different same
  · intro none
    rcases same_or_overtaken assembly ir with same | overtaken
    · rw [same]
    · by_contra different
      exact none ⟨first, second, overtaken, different⟩

/-- In `x = 1; let a = b;` assembly misses `b`, and IR misses `x`. -/
theorem refusals_differ_overtaken :
    Assembly.generate ⟨"", 0, false⟩ (.functions [⟨"main", [], none,
        [.evaluate (.assignTo "x" (.lit "1" .number)), .declare "a" (.var "b")]⟩]) =
      .error (.unknownVariable "b") ∧
    Ir.generate ⟨"", 0, false⟩ (.functions [⟨"main", [], none,
        [.evaluate (.assignTo "x" (.lit "1" .number)), .declare "a" (.var "b")]⟩]) =
      .error (.unknownVariable "x") ∧
    ∃ late early, Overtaken ⟨"", 0, false⟩ (.functions [⟨"main", [], none,
        [.evaluate (.assignTo "x" (.lit "1" .number)), .declare "a" (.var "b")]⟩]) late early ∧
      late.seen ≠ early.seen := by
  refine ⟨rfl, rfl, ?_⟩
  by_contra none
  have same := (refusals_agree_iff _ _ (.unknownVariable "b") (.unknownVariable "x")
    rfl rfl).mpr none
  exact absurd same (by decide)

end DeltaLang
