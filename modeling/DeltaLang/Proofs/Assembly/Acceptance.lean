import DeltaLang.Assembly.Lowering
import DeltaLang.Proofs.Frame

namespace DeltaLang.Assembly

namespace Bindings

def scope (bound : Bindings) : Scope :=
  bound.map fun entry => (entry.1, entry.2.type)

theorem lookup_scope (bound : Bindings) (name : String) :
    bound.scope.lookup name = (bound.lookup name).map Slot.type :=
  lookup_map_snd bound Slot.type name

theorem env_scope (bound : Bindings) : bound.env = bound.scope.env := by
  funext name
  exact (bound.lookup_scope name).symm

theorem slotOf_follows {bound : Bindings} (named : Named Slot.name bound) (name : String) :
    Follows (fun slot type => slot.type = type ∧ slot.name = name)
      (bound.slotOf name) (bound.scope.typeOf name) := by
  unfold slotOf Scope.typeOf
  rw [lookup_scope]
  cases found : bound.lookup name with
  | none => exact .error _
  | some slot => exact .ok ⟨rfl, named name slot found⟩

end Bindings

theorem store_follows {bound : Bindings} (named : Named Slot.name bound) (value : Expr)
    (target : Slot) :
    Follows (fun _ _ => True) (store bound value target)
      (bound.scope.checkStore value target.name target.type) := by
  cases value with
  | lit text type =>
    refine .ite (.error _) ?_
    exact (Follows.refl _).bind fun _ _ _ => .ok trivial
  | var name =>
    refine (Bindings.slotOf_follows named name).bind ?_
    rintro source type ⟨rfl, -⟩
    exact .ite (.error _) (.ok trivial)
  | hole => exact .error _
  | binary => exact .error _

theorem assign_follows {bound : Bindings} (named : Named Slot.name bound) (e : Expr) :
    Follows (fun _ _ => True) (assign bound e) (bound.scope.checkAssign e) := by
  cases e with
  | binary left op value =>
    cases left with
    | var name =>
      cases op with
      | assign =>
        refine (Bindings.slotOf_follows named name).bind ?_
        rintro target type ⟨rfl, own⟩
        rw [← own]
        exact store_follows named value target
      | _ => exact .error _
    | _ => exact .error _
  | _ => exact .error _

theorem operand_follows {bound : Bindings} (named : Named Slot.name bound) (e comparison : Expr) :
    Follows (fun _ _ => True) (operand bound e comparison)
      (bound.scope.checkOperand e comparison) := by
  unfold operand Scope.checkOperand
  rw [Bindings.env_scope]
  refine (Follows.refl _).bind ?_
  rintro type _ rfl
  refine .ite (.error _) ?_
  cases e with
  | lit text type => exact (Follows.refl _).bind fun _ _ _ => .ok trivial
  | var name => exact (Bindings.slotOf_follows named name).bind fun _ _ _ => .ok trivial
  | hole => exact .error _
  | binary => exact .error _

theorem operands_follows {bound : Bindings} (named : Named Slot.name bound) (condition : Expr) :
    Follows (fun _ _ => True) (operands bound condition)
      (bound.scope.checkCondition condition) := by
  unfold operands Scope.checkCondition
  rw [Bindings.env_scope]
  refine (Follows.refl _).bind ?_
  rintro type _ rfl
  refine .ite (.error _) ?_
  cases condition with
  | binary left op right =>
    cases op with
    | greater =>
      refine (operand_follows named left (.binary left .greater right)).bind fun _ _ _ => ?_
      exact (operand_follows named right (.binary left .greater right)).andThen
        fun _ _ _ => trivial
    | _ => exact .error _
  | _ => exact .error _

theorem branchBody_follows {bound : Bindings} (named : Named Slot.name bound) (body : List Stmt) :
    Follows (fun _ _ => True) (branchBody bound body) (bound.scope.checkBranch body) := by
  induction body with
  | nil => exact .ok trivial
  | cons s rest ih =>
    cases s with
    | evaluate e =>
      refine (assign_follows named e).bind fun _ _ _ => ?_
      exact ih.andThen fun _ _ _ => trivial
    | declare => exact .error _
    | branch => exact .error _
    | hole => exact .error _
    | flowHole => exact .error _

/-- A statement other than a declaration needs no slot. -/
theorem statement_follows_of_placed {owner : String} {slots : List Slot} {state : State}
    {offset : Nat}
    {s : Stmt} {rest : List Stmt} (named : Named Slot.name state.bound)
    (placed : Frame.place state.bound.scope offset (s :: rest) = (slots.drop state.next, none)) :
    Follows
      (fun after scope => after.2.bound.scope = scope ∧ Named Slot.name after.2.bound ∧
        ∃ offset, Frame.place after.2.bound.scope offset rest = (slots.drop after.2.next, none))
      (statement owner slots state s) (state.bound.scope.checkStatement s) := by
  cases s with
  | declare name value =>
    obtain ⟨type, width, later, declared, wide, shape, placedRest⟩ := Frame.place_declare_ok placed
    have here : slots[state.next]? = some ⟨name, type, alignUp offset width + width⟩ := by
      rw [← List.head?_drop, shape, List.head?_cons]
    have behind : slots.drop (state.next + 1) = later := by
      rw [← List.tail_drop, shape, List.tail_cons]
    simp only [statement, Scope.checkStatement, here, declared]
    refine (store_follows named value _).bind fun _ _ _ =>
      .ok ⟨rfl, named.cons ⟨name, type, alignUp offset width + width⟩, ?_⟩
    exact ⟨_, by rw [behind]; exact placedRest⟩
  | evaluate e =>
    refine (assign_follows named e).bind fun _ _ _ => .ok ⟨rfl, named, offset, placed⟩
  | branch condition body =>
    refine (operands_follows named condition).bind fun _ _ _ => ?_
    exact (branchBody_follows named body).bind fun _ _ _ => .ok ⟨rfl, named, offset, placed⟩
  | hole => exact .error _
  | flowHole => exact .error _

theorem statements_follows_of_placed {owner : String} {slots : List Slot} (state : State)
    {offset : Nat} {body : List Stmt} (named : Named Slot.name state.bound)
    (placed : Frame.place state.bound.scope offset body = (slots.drop state.next, none)) :
    Follows (fun after scope => after.2.bound.scope = scope) (statements owner slots state body)
      (state.bound.scope.checkBody body) := by
  induction body generalizing state offset with
  | nil => exact .ok rfl
  | cons s rest ih =>
    refine (statement_follows_of_placed named placed).bind ?_
    rintro ⟨first, after⟩ scope ⟨rfl, named, offset, placed⟩
    exact (ih after named placed).andThen fun _ _ same => same

/-- The lines behind the body of a function. The entry function prints its variables and ends the
program, any other one returns. -/
def trailer (options : Options) (f : Function) (frame : Frame) : List Line :=
  if f.name ≠ options.entryName then [.instr .leave, .instr .ret]
  else
    (dumpCode f.name (if options.dumpLocals then frame.slots else [])).map .instr ++
      [.instr (.mov .quad (.immediate options.exitCode) (.register .rdi)), .instr (.call "exit")]

def texts (options : Options) (f : Function) (frame : Frame) : List Line :=
  if f.name ≠ options.entryName then []
  else dumpData f.name (if options.dumpLocals then frame.slots else [])

theorem function_eq (options : Options) {f : Function} (plain : f.arguments = []) :
    function options f = Frame.layout f.body >>= fun frame =>
      statements f.name frame.slots .start f.body >>= fun result =>
        .ok ⟨prologue f.name frame ++ result.1 ++ trailer options f frame,
          texts options f frame⟩ := by
  simp only [function, plain, List.isEmpty_nil, Bool.not_true, Bool.false_eq_true, ↓reduceIte,
    trailer, texts]
  congr 1
  funext frame
  congr 1
  funext result
  split
  · rfl
  · simp only [List.append_assoc, exitLines]

/-- Where the slots can be laid out, a function is refused for the first broken rule of its body. -/
theorem function_follows (options : Options) {f : Function} (plain : f.arguments = [])
    {frame : Frame} (laid : Frame.layout f.body = .ok frame) :
    Follows (fun _ _ => True) (function options f) (Scope.checkBody [] f.body) := by
  rw [function_eq options plain, laid]
  exact (statements_follows_of_placed .start (Named.nil _) (Frame.layout_placed laid)).andThen
    fun _ _ _ => trivial

theorem function_eq_error (options : Options) {f : Function} (plain : f.arguments = [])
    {fault : Error} (refused : Frame.layout f.body = .error fault) :
    function options f = .error fault := by
  rw [function_eq options plain, refused]
  rfl

end DeltaLang.Assembly
