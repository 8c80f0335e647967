import DeltaLang.Proofs.Assembly.Label

namespace DeltaLang

namespace Frame

/-- How far a layout has come: the types of the variables so far, the latest first, and how far
down their slots reach. -/
structure Progress where
  scope : Scope
  offset : Nat

namespace Progress

def start : Progress :=
  ⟨[], returnSlot⟩

def pass (progress : Progress) : Stmt → Except Error Progress
  | .declare name value => do
    let type ← progress.scope.declared name value
    let width := type.width?.getD 0
    .ok ⟨(name, type) :: progress.scope, alignUp progress.offset width + width⟩
  | _ => .ok progress

def behind (progress : Progress) (front : List Stmt) : Except Error Progress :=
  front.foldlM pass progress

/-- The layout of the statements that are left. -/
def place (progress : Progress) (rest : List Stmt) : List Slot × Option Error :=
  Frame.place progress.scope progress.offset rest

theorem behind_cons_ok {progress after : Progress} {s : Stmt} {rest : List Stmt} :
    progress.behind (s :: rest) = .ok after ↔
      ∃ between, progress.pass s = .ok between ∧ between.behind rest = .ok after := by
  rw [behind, List.foldlM_cons]
  exact bind_eq_ok

/-- The layout goes on behind a statement with what it has come to there. -/
theorem place_pass {progress after : Progress} {s : Stmt} (passed : progress.pass s = .ok after)
    (rest : List Stmt) :
    progress.place (s :: rest) =
      ((progress.place [s]).1 ++ (after.place rest).1, (after.place rest).2) := by
  cases s with
  | declare name value =>
    obtain ⟨type, typed, same⟩ := bind_eq_ok.mp passed
    obtain ⟨fault, refused, -⟩ | ⟨type', width, typed', wide, placed⟩ :=
      place_declare progress.scope progress.offset name value
    · rw [typed] at refused
      cases refused
    · rw [typed] at typed'
      cases typed'
      rw [wide, Option.getD_some] at same
      cases same
      rw [place, place, placed rest, placed []]
      rfl
  | evaluate e =>
    cases passed
    rfl
  | branch condition body =>
    cases passed
    rfl
  | hole =>
    cases passed
    rfl
  | flowHole =>
    cases passed
    rfl

theorem place_behind {progress after : Progress} {front : List Stmt}
    (passed : progress.behind front = .ok after) (rest : List Stmt) :
    progress.place (front ++ rest) =
      ((progress.place front).1 ++ (after.place rest).1, (after.place rest).2) := by
  induction front generalizing progress with
  | nil =>
    cases passed
    rfl
  | cons s others ih =>
    obtain ⟨between, first, later⟩ := behind_cons_ok.mp passed
    rw [List.cons_append, place_pass first (others ++ rest), ih later, place_pass first others,
      List.append_assoc]

end Progress

end Frame

namespace Assembly

/-- Emission and layout stand at the same place of a body, with `rest` in front of them. -/
structure InStep (slots : List Slot) (state : State) (progress : Frame.Progress)
    (rest : List Stmt) : Prop where
  types : state.bound.scope = progress.scope
  later : progress.place rest = (slots.drop state.next, none)
  bounded : state.next ≤ slots.length

namespace InStep

variable {owner : String} {slots : List Slot} {state after : State} {progress : Frame.Progress}
variable {rest : List Stmt} {lines : List Line}

/-- A declaration takes the slot that the layout makes for it. -/
theorem declared {name : String} {value : Expr}
    (inStep : InStep slots state progress (.declare name value :: rest)) :
    ∃ slot between, slots[state.next]? = some slot ∧ slot.name = name ∧
      progress.scope.declared name value = .ok slot.type ∧
      progress.pass (.declare name value) = .ok between ∧
      between.scope = (name, slot.type) :: progress.scope ∧
      progress.place [.declare name value] = ([slot], none) ∧
      between.place rest = (slots.drop (state.next + 1), none) := by
  obtain ⟨fault, -, refused⟩ | ⟨type, width, typed, wide, placed⟩ :=
    Frame.place_declare progress.scope progress.offset name value
  · have contrary := inStep.later
    rw [Frame.Progress.place, refused] at contrary
    cases (Prod.mk.inj contrary).2
  · let slot : Slot := ⟨name, type, alignUp progress.offset width + width⟩
    let between : Frame.Progress := ⟨(name, type) :: progress.scope, slot.offset⟩
    have later : (slot :: (between.place rest).1, (between.place rest).2) =
        (slots.drop state.next, none) := (placed rest).symm.trans inStep.later
    obtain ⟨shape, fault⟩ := Prod.mk.inj later
    -- the slots that are left are what the layout still makes, and it makes this one first
    have here : slots[state.next]? = some slot := by
      rw [← List.head?_drop, ← shape, List.head?_cons]
    have behind : slots.drop (state.next + 1) = (between.place rest).1 := by
      rw [← List.tail_drop, ← shape, List.tail_cons]
    refine ⟨slot, between, here, rfl, typed, ?_, rfl, placed [], ?_⟩
    · refine bind_eq_ok.mpr ⟨type, typed, ?_⟩
      rw [wide, Option.getD_some]
    · rw [behind, ← fault]

/-- One statement: both go on to the same place. -/
theorem step {s : Stmt} (inStep : InStep slots state progress (s :: rest))
    (emitted : Emits owner slots state s lines after) :
    ∃ between, progress.pass s = .ok between ∧ InStep slots after between rest := by
  cases emitted with
  | @declare name value slot code there stored =>
    obtain ⟨slot', between, here, -, -, passed, scope, -, later⟩ := inStep.declared
    rw [there] at here
    cases here
    refine ⟨between, passed, ?_, later, ?_⟩
    · rw [scope, ← inStep.types]
      rfl
    · exact (List.getElem?_eq_some_iff.mp there).1
  | evaluate assigned => exact ⟨progress, rfl, inStep.types, inStep.later, inStep.bounded⟩
  | branch compared inner => exact ⟨progress, rfl, inStep.types, inStep.later, inStep.bounded⟩

/-- Any number of statements. -/
theorem run {front : List Stmt} (inStep : InStep slots state progress (front ++ rest))
    (emitted : statements owner slots state front = .ok (lines, after)) :
    ∃ reached, progress.behind front = .ok reached ∧ InStep slots after reached rest := by
  induction front generalizing state progress lines with
  | nil =>
    cases emitted
    exact ⟨progress, rfl, inStep⟩
  | cons s others ih =>
    obtain ⟨first, between, later, head, tail, rfl⟩ := statements_eq_ok emitted
    obtain ⟨middle, passed, inStep⟩ := inStep.step head
    obtain ⟨reached, behind, inStep⟩ := ih inStep tail
    exact ⟨reached, Frame.Progress.behind_cons_ok.mpr ⟨middle, passed, behind⟩, inStep⟩

theorem env (inStep : InStep slots state progress rest) (name : String) :
    state.bound.env name = progress.scope.lookup name := by
  rw [Bindings.env_scope, inStep.types]
  rfl

/-- Behind the whole body no slot is left. -/
theorem finished (inStep : InStep slots state progress []) : state.next = slots.length := by
  have none : ([], none) = (slots.drop state.next, none) := inStep.later
  have used := List.drop_eq_nil_iff.mp (Prod.mk.inj none).1.symm
  have bounded := inStep.bounded
  omega

end InStep

theorem inStep_start {body : List Stmt} {frame : Frame} (laid : Frame.layout body = .ok frame) :
    InStep frame.slots .start .start body :=
  ⟨rfl, Frame.layout_placed laid, Nat.zero_le _⟩

/-- The slots that the declarations of a body take while it is emitted, up to the first fault. -/
def taken (owner : String) (slots : List Slot) : State → List Stmt → List Slot
  | _, [] => []
  | state, s :: rest =>
    (if s.declared?.isSome then slots[state.next]?.toList else []) ++
      match statement owner slots state s with
      | .ok (_, state) => taken owner slots state rest
      | .error _ => []

theorem taken_cons {owner : String} {slots : List Slot} {state after : State} {s : Stmt}
    {rest : List Stmt} {lines : List Line}
    (emitted : statement owner slots state s = .ok (lines, after)) :
    taken owner slots state (s :: rest) =
      (if s.declared?.isSome then slots[state.next]?.toList else []) ++
        taken owner slots after rest := by
  simp only [taken, emitted]

theorem InStep.taken_eq {owner : String} {slots : List Slot} {state after : State}
    {progress : Frame.Progress} {body : List Stmt} {lines : List Line}
    (inStep : InStep slots state progress body)
    (emitted : statements owner slots state body = .ok (lines, after)) :
    taken owner slots state body = slots.drop state.next := by
  induction body generalizing state progress lines with
  | nil =>
    have used := inStep.finished
    rw [taken, used, List.drop_length]
  | cons s rest ih =>
    obtain ⟨⟨first, between⟩, head, tail⟩ := bind_eq_ok.mp emitted
    obtain ⟨⟨others, last⟩, later, same⟩ := bind_eq_ok.mp tail
    cases same
    have emits := emits_of_statement head
    obtain ⟨middle, -, next⟩ := inStep.step emits
    rw [taken_cons head, ih next later]
    cases emits with
    | @declare name value slot code there stored =>
      obtain ⟨bounded, here⟩ := List.getElem?_eq_some_iff.mp there
      rw [there, List.drop_eq_getElem_cons bounded, here]
      rfl
    | evaluate assigned => rfl
    | branch compared inner => rfl

/-- A value of the type of a slot is refused only for its form, or for a literal that cannot be
read. -/
theorem store_fault {bound : Bindings} {value : Expr} {slot : Slot} {fault : Error}
    (typed : value.typeOf bound.scope.env = .ok slot.type)
    (refused : store bound value slot = .error fault) :
    (∃ text type, fault = .invalidLiteral text type) ∨
      ∃ construct, fault = .unsupported construct := by
  cases value with
  | lit text type =>
    have same : type = slot.type := Except.ok.inj typed
    simp only [store, same, ne_eq, not_true_eq_false, ↓reduceIte, Literal.constant] at refused
    split at refused
    · cases refused
    · cases refused
      exact .inl ⟨text, slot.type, rfl⟩
  | var name =>
    have found : (bound.lookup name).map Slot.type = some slot.type := by
      rw [← Bindings.lookup_scope]
      exact Scope.typeOf_eq_ok.mp typed
    obtain ⟨source, present, same⟩ := Option.map_eq_some_iff.mp found
    simp only [store, Bindings.slotOf, present, bind, Except.bind, same, ne_eq,
      not_true_eq_false, ↓reduceIte] at refused
    cases refused
  | hole => cases typed
  | binary left op right =>
    cases refused
    exact .inr ⟨_, rfl⟩

/-- Emission of a body in step with the frame that was laid out for it. Before every statement that
it comes to, names have the types that the layout knew when it came to that statement; a declaration
finds the slot that the layout added for it, and its value is refused only for its form or for a
literal that cannot be read; and when the body is through, each slot has been taken once. -/
structure Synchronous (owner : String) (body : List Stmt) (frame : Frame) : Prop where
  types : ∀ front s back lines state, body = front ++ s :: back →
    statements owner frame.slots .start front = .ok (lines, state) →
    ∃ progress, Frame.Progress.start.behind front = .ok progress ∧
      progress.place (s :: back) = (frame.slots.drop state.next, none) ∧
      ∀ name, state.bound.env name = progress.scope.lookup name
  slots : ∀ front name value back lines state, body = front ++ .declare name value :: back →
    statements owner frame.slots .start front = .ok (lines, state) →
    ∃ slot, frame.slots[state.next]? = some slot ∧ slot.name = name ∧
      Frame.placed (front ++ [.declare name value]) = Frame.placed front ++ [slot] ∧
      ∀ fault, store state.bound value slot = .error fault →
        (∃ text type, fault = .invalidLiteral text type) ∨
          ∃ construct, fault = .unsupported construct
  complete : ∀ lines state, statements owner frame.slots .start body = .ok (lines, state) →
    state.next = frame.slots.length ∧ taken owner frame.slots .start body = frame.slots

end Assembly

open Assembly

/-- Emission keeps in step with any layout that succeeds. -/
theorem emission_synchronous {f : Function} {frame : Frame}
    (laid : Frame.layout f.body = .ok frame) : Synchronous f.name f.body frame := by
  have start := inStep_start laid
  constructor
  · intro front s back lines state shape emitted
    rw [shape] at start
    obtain ⟨progress, passed, inStep⟩ := start.run emitted
    exact ⟨progress, passed, inStep.later, inStep.env⟩
  · intro front name value back lines state shape emitted
    rw [shape] at start
    obtain ⟨progress, passed, inStep⟩ := start.run emitted
    obtain ⟨slot, between, here, named, declared, -, -, made, -⟩ := inStep.declared
    have placed := Frame.Progress.place_behind passed [.declare name value]
    refine ⟨slot, here, named, ?_, ?_⟩
    · rw [made] at placed
      exact congrArg Prod.fst placed
    · intro fault refused
      obtain ⟨type, typed, valued⟩ := bind_eq_ok.mp declared
      have same : type = slot.type := by
        split at valued
        · cases valued
        · exact Except.ok.inj valued
      rw [← inStep.types, same] at typed
      exact store_fault typed refused
  · intro lines state emitted
    have whole : InStep frame.slots .start .start (f.body ++ []) := by
      rw [List.append_nil]
      exact start
    obtain ⟨progress, -, ended⟩ := whole.run emitted
    exact ⟨ended.finished, start.taken_eq emitted⟩

/-- A variable that is declared again with its old value takes a slot of its own. -/
theorem emission_synchronous_shadowing :
    ∃ frame lines state, Frame.layout shadowing.body = .ok frame ∧
      statements "main" frame.slots .start shadowing.body = .ok (lines, state) ∧
      state.next = frame.slots.length ∧
      taken "main" frame.slots .start shadowing.body = frame.slots := by
  obtain ⟨frame, laid⟩ : ∃ frame, Frame.layout shadowing.body = .ok frame := ⟨_, rfl⟩
  obtain ⟨lines, state, emitted⟩ : ∃ lines state,
      statements "main" frame.slots .start shadowing.body = .ok (lines, state) := by
    cases laid
    exact ⟨_, _, rfl⟩
  have synchronous : Synchronous "main" shadowing.body frame := emission_synchronous laid
  exact ⟨frame, lines, state, laid, emitted, synchronous.complete lines state emitted⟩

end DeltaLang
