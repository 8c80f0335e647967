import DeltaLang.Proofs.Acceptance

namespace DeltaLang

theorem le_alignUp (n : Nat) {unit : Nat} (positive : 0 < unit) : n ≤ alignUp n unit := by
  have parts := Nat.div_add_mod (n + unit - 1) unit
  have small := Nat.mod_lt (n + unit - 1) positive
  have same : alignUp n unit = unit * ((n + unit - 1) / unit) := Nat.mul_comm _ _
  omega

theorem dvd_alignUp (n unit : Nat) : unit ∣ alignUp n unit :=
  Nat.dvd_mul_left _ _

theorem Primitive.width?_cases {type : Primitive} {width : Nat} (found : type.width? = some width) :
    type = .number ∧ width = 4 ∨ type = .boolean ∧ width = 1 := by
  cases type with
  | number =>
    cases found
    exact .inl ⟨rfl, rfl⟩
  | boolean =>
    cases found
    exact .inr ⟨rfl, rfl⟩
  | void => cases found
  | other => cases found

def Stmt.declared? : Stmt → Option String
  | .declare name _ => some name
  | _ => none

namespace Frame

/-- A declaration is refused a slot, or is given the next one, whatever comes behind it. -/
theorem place_declare (scope : Scope) (offset : Nat) (name : String) (value : Expr) :
    (∃ fault, scope.declared name value = .error fault ∧
      ∀ rest, place scope offset (.declare name value :: rest) = ([], some fault)) ∨
    ∃ type width, scope.declared name value = .ok type ∧ type.width? = some width ∧
      ∀ rest, place scope offset (.declare name value :: rest) =
        (⟨name, type, alignUp offset width + width⟩ ::
            (place ((name, type) :: scope) (alignUp offset width + width) rest).1,
          (place ((name, type) :: scope) (alignUp offset width + width) rest).2) := by
  have looked : scope.env = (scope.lookup ·) := rfl
  simp only [place, Scope.declared, looked]
  cases value.typeOf (scope.lookup ·) with
  | error fault => exact .inl ⟨fault, rfl, fun _ => rfl⟩
  | ok type =>
    cases wide : type.width? with
    | none =>
      refine .inl ⟨.invalidDeclarationType name type, ?_, ?_⟩
      · simp only [bind, Except.bind, wide]
      · simp only [wide, implies_true]
    | some width =>
      refine .inr ⟨type, width, ?_, wide, ?_⟩
      · simp only [bind, Except.bind, wide]
      · simp only [wide, implies_true]

theorem place_declare_error {scope : Scope} {name : String} {value : Expr} {fault : Error}
    (refused : scope.declared name value = .error fault) (offset : Nat) (rest : List Stmt) :
    place scope offset (.declare name value :: rest) = ([], some fault) := by
  obtain ⟨found, reason, stopped⟩ | ⟨type, width, declared, -, -⟩ :=
    place_declare scope offset name value
  · rw [refused] at reason
    cases reason
    exact stopped rest
  · rw [refused] at declared
    cases declared

theorem place_declare_ok {scope : Scope} {offset : Nat} {name : String} {value : Expr}
    {rest : List Stmt} {slots : List Slot}
    (placed : place scope offset (.declare name value :: rest) = (slots, none)) :
    ∃ type width later, scope.declared name value = .ok type ∧ type.width? = some width ∧
      slots = ⟨name, type, alignUp offset width + width⟩ :: later ∧
      place ((name, type) :: scope) (alignUp offset width + width) rest = (later, none) := by
  obtain ⟨fault, -, refused⟩ | ⟨type, width, declared, wide, accepted⟩ :=
    place_declare scope offset name value
  · rw [refused] at placed
    cases placed
  · rw [accepted] at placed
    obtain ⟨shape, fault⟩ := Prod.mk.inj placed
    exact ⟨type, width, _, declared, wide, shape.symm, Prod.ext rfl fault⟩

theorem place_names {scope : Scope} {offset : Nat} {body : List Stmt} {slots : List Slot}
    (placed : place scope offset body = (slots, none)) :
    slots.map Slot.name = body.filterMap Stmt.declared? := by
  induction body generalizing scope offset slots with
  | nil =>
    cases placed
    rfl
  | cons s rest ih =>
    cases s with
    | declare name value =>
      obtain ⟨type, width, later, -, -, rfl, placedRest⟩ := place_declare_ok placed
      exact congrArg (name :: ·) (ih placedRest)
    | evaluate e => exact ih placed
    | branch condition body => exact ih placed
    | hole => exact ih placed
    | flowHole => exact ih placed

/-- The scope with the variables of some slots added to it. -/
def extended (scope : Scope) (slots : List Slot) : Scope :=
  (slots.map fun slot => (slot.name, slot.type)).reverse ++ scope

theorem extended_cons (scope : Scope) (slot : Slot) (slots : List Slot) :
    extended scope (slot :: slots) = extended ((slot.name, slot.type) :: scope) slots := by
  simp [extended]

/-- Behind a front that has its slots the placement goes on with the variables of the front. -/
theorem place_append {scope : Scope} {offset : Nat} {front : List Stmt} {slots : List Slot}
    (placed : place scope offset front = (slots, none)) (back : List Stmt) :
    ∃ reached, place scope offset (front ++ back) =
      (slots ++ (place (extended scope slots) reached back).1,
        (place (extended scope slots) reached back).2) := by
  induction front generalizing scope offset slots with
  | nil =>
    cases placed
    exact ⟨offset, rfl⟩
  | cons s rest ih =>
    cases s with
    | declare name value =>
      obtain ⟨fault, -, refused⟩ | ⟨type, width, -, -, accepted⟩ :=
        place_declare scope offset name value
      · rw [refused] at placed
        cases placed
      · rw [accepted] at placed
        obtain ⟨rfl, fault⟩ := Prod.mk.inj placed
        obtain ⟨reached, others⟩ := ih (Prod.ext rfl fault)
        exact ⟨reached, by rw [List.cons_append, accepted, others, extended_cons]; rfl⟩
    | evaluate e => exact ih placed
    | branch condition body => exact ih placed
    | hole => exact ih placed
    | flowHole => exact ih placed

/-- A fault of the placement is that of one declaration, and all declarations in front of it have
their slots. -/
theorem place_fault {scope : Scope} {offset : Nat} {body : List Stmt} {fault : Error}
    (refused : (place scope offset body).2 = some fault) :
    ∃ front name value back slots, body = front ++ .declare name value :: back ∧
      place scope offset front = (slots, none) ∧
      (extended scope slots).declared name value = .error fault := by
  induction body generalizing scope offset with
  | nil => cases refused
  | cons s rest ih =>
    cases s with
    | declare name value =>
      obtain ⟨found, reason, stopped⟩ | ⟨type, width, -, -, accepted⟩ :=
        place_declare scope offset name value
      · rw [stopped] at refused
        cases refused
        exact ⟨[], name, value, rest, [], rfl, rfl, reason⟩
      · rw [accepted] at refused
        obtain ⟨front, name', value', back, slots, rfl, placed, reason⟩ := ih refused
        refine ⟨.declare name value :: front, name', value', back,
          ⟨name, type, alignUp offset width + width⟩ :: slots, rfl, ?_, ?_⟩
        · rw [accepted, placed]
        · rw [extended_cons]
          exact reason
    | evaluate e =>
      obtain ⟨front, name, value, back, slots, rfl, placed, reason⟩ := ih refused
      exact ⟨.evaluate e :: front, name, value, back, slots, rfl, placed, reason⟩
    | branch condition body =>
      obtain ⟨front, name, value, back, slots, rfl, placed, reason⟩ := ih refused
      exact ⟨.branch condition body :: front, name, value, back, slots, rfl, placed, reason⟩
    | hole =>
      obtain ⟨front, name, value, back, slots, rfl, placed, reason⟩ := ih refused
      exact ⟨.hole :: front, name, value, back, slots, rfl, placed, reason⟩
    | flowHole =>
      obtain ⟨front, name, value, back, slots, rfl, placed, reason⟩ := ih refused
      exact ⟨.flowHole :: front, name, value, back, slots, rfl, placed, reason⟩

/-- A body that keeps the rules has its slots, and they are the variables it adds to the scope. -/
theorem checkBody_placed {scope after : Scope} (offset : Nat) {body : List Stmt}
    (checked : scope.checkBody body = .ok after) :
    (place scope offset body).2 = none ∧ after = extended scope (place scope offset body).1 := by
  induction body generalizing scope offset with
  | nil =>
    cases checked
    exact ⟨rfl, rfl⟩
  | cons s rest ih =>
    obtain ⟨middle, first, others⟩ := bind_eq_ok.mp checked
    cases s with
    | declare name value =>
      obtain ⟨type, declared, stored⟩ := bind_eq_ok.mp first
      obtain ⟨_, -, same⟩ := bind_eq_ok.mp stored
      cases same
      obtain ⟨fault, refused, -⟩ | ⟨type', width, declared', -, accepted⟩ :=
        place_declare scope offset name value
      · rw [declared] at refused
        cases refused
      · rw [declared] at declared'
        cases declared'
        rw [accepted, extended_cons]
        exact ih _ others
    | evaluate e =>
      obtain ⟨_, -, same⟩ := bind_eq_ok.mp first
      cases same
      exact ih offset others
    | branch condition body =>
      obtain ⟨_, -, inner⟩ := bind_eq_ok.mp first
      obtain ⟨_, -, same⟩ := bind_eq_ok.mp inner
      cases same
      exact ih offset others
    | hole => cases first
    | flowHole => cases first

/-- Slots that follow each other from `offset` downwards. -/
def Stacked : Nat → List Slot → Prop
  | _, [] => True
  | offset, slot :: rest =>
    (slot.type = .number ∨ slot.type = .boolean) ∧
      slot.offset = alignUp offset slot.width + slot.width ∧ Stacked slot.offset rest

theorem place_stacked (scope : Scope) (offset : Nat) (body : List Stmt) :
    Stacked offset (place scope offset body).1 := by
  fun_induction place scope offset body with
  | case1 => trivial
  | case2 => trivial
  | case3 => trivial
  | case4 scope offset name value rest type typed width wide offset' slots fault later ih =>
    rw [later] at ih
    obtain ⟨rfl, rfl⟩ | ⟨rfl, rfl⟩ := Primitive.width?_cases wide
    · exact ⟨.inl rfl, rfl, ih⟩
    · exact ⟨.inr rfl, rfl, ih⟩
  | case5 scope offset s rest other ih => exact ih

end Frame

theorem Slot.width_cases {slot : Slot} (valued : slot.type = .number ∨ slot.type = .boolean) :
    slot.type = .number ∧ slot.width = 4 ∨ slot.type = .boolean ∧ slot.width = 1 := by
  rcases valued with number | boolean
  · exact .inl ⟨number, by simp [width, number, Primitive.width?]⟩
  · exact .inr ⟨boolean, by simp [width, boolean, Primitive.width?]⟩

namespace Frame

theorem Stacked.below {offset : Nat} {slots : List Slot} (stacked : Stacked offset slots) :
    ∀ slot ∈ slots, (slot.type = .number ∨ slot.type = .boolean) ∧
      offset + slot.width ≤ slot.offset := by
  induction slots generalizing offset with
  | nil => simp
  | cons first rest ih =>
    obtain ⟨valued, place, later⟩ := stacked
    have wide : 0 < first.width := by
      obtain ⟨-, four⟩ | ⟨-, one⟩ := Slot.width_cases valued <;> omega
    have aligned := le_alignUp offset wide
    intro slot member
    rcases List.mem_cons.mp member with rfl | member
    · exact ⟨valued, by omega⟩
    · obtain ⟨valued, under⟩ := ih later slot member
      exact ⟨valued, by omega⟩

/-- Of two slots the later one ends where the earlier one begins, or further down. -/
theorem Stacked.pairwise {offset : Nat} {slots : List Slot} (stacked : Stacked offset slots) :
    slots.Pairwise fun earlier later => earlier.offset + later.width ≤ later.offset := by
  induction slots generalizing offset with
  | nil => exact .nil
  | cons first rest ih =>
    obtain ⟨-, -, later⟩ := stacked
    exact .cons (fun slot member => (later.below slot member).2) (ih later)

theorem Stacked.le_depth {slots : List Slot} (stacked : Stacked returnSlot slots) :
    ∀ slot ∈ slots, slot.offset ≤ depth slots := by
  intro slot member
  obtain ⟨front, last, rfl⟩ :=
    List.eq_nil_or_concat slots |>.resolve_left (List.ne_nil_of_mem member)
  have ordered := stacked.pairwise
  rw [List.concat_eq_append] at *
  simp only [depth, List.getLast?_append, List.getLast?_singleton, Option.some_or, Option.map_some,
    Option.getD_some]
  rcases List.mem_append.mp member with inFront | isLast
  · have := (List.pairwise_append.mp ordered).2.2 slot inFront last (by simp)
    omega
  · cases List.mem_singleton.mp isLast
    exact Nat.le_refl _

/-- What a layout says about its slots. -/
structure WellFormed (frame : Frame) : Prop where
  stacked : Stacked returnSlot frame.slots
  size : frame.size = alignUp (depth frame.slots) stackAlignment

theorem layout_wellFormed {body : List Stmt} {frame : Frame} (laid : layout body = .ok frame) :
    frame.WellFormed := by
  unfold layout at laid
  split at laid
  · rename_i slots placed
    cases laid
    exact ⟨by simpa [placed] using place_stacked [] returnSlot body, rfl⟩
  · cases laid

theorem layout_placed {body : List Stmt} {frame : Frame} (laid : layout body = .ok frame) :
    place [] returnSlot body = (frame.slots, none) := by
  unfold layout at laid
  split at laid
  · rename_i slots placed
    cases laid
    exact placed
  · cases laid

namespace WellFormed

variable {frame : Frame} (wellFormed : frame.WellFormed)
include wellFormed

theorem offset_le_size {slot : Slot} (member : slot ∈ frame.slots) : slot.offset ≤ frame.size := by
  have inside := wellFormed.stacked.le_depth slot member
  have rounded := le_alignUp (depth frame.slots) (show 0 < stackAlignment by decide)
  rw [← wellFormed.size] at rounded
  omega

theorem aligned : 16 ∣ frame.size := by
  rw [wellFormed.size]
  exact dvd_alignUp _ stackAlignment

end WellFormed

end Frame

theorem layout_eq_error {body : List Stmt} {fault : Error} :
    Frame.layout body = .error fault ↔ (Frame.place [] Frame.returnSlot body).2 = some fault := by
  unfold Frame.layout
  split <;> simp_all

theorem layout_eq_ok {body : List Stmt} :
    (∃ frame, Frame.layout body = .ok frame) ↔ (Frame.place [] Frame.returnSlot body).2 = none := by
  unfold Frame.layout
  split <;> simp_all

end DeltaLang
