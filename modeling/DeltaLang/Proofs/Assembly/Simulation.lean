import DeltaLang.Proofs.Assembly.Label

namespace DeltaLang

namespace Assembly

/-- The bindings after the declarations that some slots belong to. -/
def bindings (slots : List Slot) : Bindings :=
  (slots.map fun slot => (slot.name, slot)).reverse

theorem bindings_concat (slots : List Slot) (slot : Slot) :
    bindings (slots ++ [slot]) = (slot.name, slot) :: bindings slots := by
  simp [bindings]

namespace Holds

variable {slots : List Slot} {base : Word} {memory : Memory} {store : Store}
variable (held : Holds slots base memory store)
include held

theorem names : (slots.take store.length).map Slot.name = store.names := by
  apply Store.names_eq (List.length_take_of_le held.length)
  intro i slot v there here
  have before := (List.getElem?_eq_some_iff.mp here).1
  rw [List.getElem?_take_of_lt before] at there
  exact (held.entry i slot v there here).1.symm

/-- The slot of a name is that of the variable that the name stands for. -/
theorem slotOf_eq_ok {name : String} {slot : Slot}
    (found : (bindings (slots.take store.length)).slotOf name = .ok slot) :
    ∃ index value, store.latest? name = some index ∧ slots[index]? = some slot ∧
      store[index]? = some (name, value) ∧ slot.name = name ∧ value.type = slot.type ∧
      memory.read (base - BitVec.ofNat 64 slot.offset) slot.width = value.toNat := by
  unfold Bindings.slotOf at found
  split at found
  · rename_i bound present
    cases found
    obtain ⟨index, value, latest, there, here⟩ := Store.latest?_of_lookup held.names present
    have there : slots[index]? = some slot := by
      rwa [List.getElem?_take_of_lt (List.getElem?_eq_some_iff.mp here).1] at there
    obtain ⟨own, typed, read⟩ := held.entry index slot _ there here
    exact ⟨index, value, latest, there, here, own.symm, typed, read⟩
  · cases found

end Holds

/-- The declarations so far are those of the first slots, and the rest of the slots is for the rest
of the body. -/
structure Lockstep (slots : List Slot) (state : State) (store : Store) (rest : List Stmt) :
    Prop where
  next : state.next = store.length
  bound : state.bound = bindings (slots.take store.length)
  names : (slots.drop store.length).map Slot.name = rest.filterMap Stmt.declared?

theorem branchBody_eq_ok {bound : Bindings} {s : Stmt} {rest : List Stmt} {code : List Instr}
    (lowered : branchBody bound (s :: rest) = .ok code) :
    ∃ e first others, s = .evaluate e ∧ assign bound e = .ok first ∧
      branchBody bound rest = .ok others ∧ code = first ++ others := by
  cases s with
  | evaluate e =>
    obtain ⟨first, assigned, tail⟩ := bind_eq_ok.mp lowered
    obtain ⟨others, later, same⟩ := bind_eq_ok.mp tail
    cases same
    exact ⟨e, first, others, rfl, assigned, later, rfl⟩
  | declare => cases lowered
  | branch => cases lowered
  | hole => cases lowered
  | flowHole => cases lowered

/-- A move that leaves the stack pointer alone. -/
def Instr.IsMove : Instr → Prop
  | .mov _ _ target => target ≠ .register .rsp
  | _ => False

theorem store_moves {bound : Bindings} {value : Expr} {target : Slot} {code : List Instr}
    (lowered : Assembly.store bound value target = .ok code) : ∀ i ∈ code, i.IsMove := by
  cases value with
  | lit text type =>
    simp only [Assembly.store] at lowered
    split at lowered
    · cases lowered
    · obtain ⟨constant, -, same⟩ := bind_eq_ok.mp lowered
      cases same
      simp [Instr.IsMove]
  | var name =>
    obtain ⟨source, -, rest⟩ := bind_eq_ok.mp lowered
    split at rest
    · cases rest
    · cases rest
      simp [Instr.IsMove]
  | hole => cases lowered
  | binary left op right => cases lowered

theorem assign_moves {bound : Bindings} {e : Expr} {code : List Instr}
    (lowered : assign bound e = .ok code) : ∀ i ∈ code, i.IsMove := by
  unfold assign at lowered
  split at lowered
  · obtain ⟨target, -, stored⟩ := bind_eq_ok.mp lowered
    exact store_moves stored
  · cases lowered

/-- The body of a branch becomes moves only. -/
theorem branchBody_moves {bound : Bindings} {body : List Stmt} {code : List Instr}
    (lowered : branchBody bound body = .ok code) : ∀ i ∈ code, i.IsMove := by
  induction body generalizing code with
  | nil =>
    cases lowered
    simp
  | cons s rest ih =>
    obtain ⟨e, first, others, -, assigned, later, rfl⟩ := branchBody_eq_ok lowered
    intro i member
    rcases List.mem_append.mp member with inFirst | inOthers
    · exact assign_moves assigned i inFirst
    · exact ih later i inOthers

inductive BodyLine (owner : String) : Line → Prop
  | move {i : Instr} (move : i.IsMove) : BodyLine owner (.instr i)
  | compare (source : Operand) (target : Register) : BodyLine owner (.instr (.cmpl source target))
  | jump (index : Nat) : BodyLine owner (.instr (.jbe (.endif owner index)))
  | label (index : Nat) : BodyLine owner (.label (.endif owner index))

theorem bodyLine_of_moves {code : List Instr} (moves : ∀ i ∈ code, i.IsMove) (owner : String) :
    ∀ line ∈ code.map Line.instr, BodyLine owner line := by
  intro line member
  obtain ⟨i, inCode, rfl⟩ := List.mem_map.mp member
  exact .move (moves i inCode)

theorem Emits.bodyLine {owner : String} {slots : List Slot} {state next : State} {s : Stmt}
    {lines : List Line} (emitted : Emits owner slots state s lines next) :
    ∀ line ∈ lines, BodyLine owner line := by
  cases emitted with
  | declare there stored => exact bodyLine_of_moves (store_moves stored) owner
  | evaluate assigned => exact bodyLine_of_moves (assign_moves assigned) owner
  | branch compared lowered =>
    intro line member
    rw [branchLines, List.mem_append, List.mem_append] at member
    rcases member with (comparison | body) | label
    · simp only [List.mem_cons, List.not_mem_nil, or_false] at comparison
      rcases comparison with rfl | rfl | rfl
      · exact .move (by simp [Instr.IsMove])
      · exact .compare _ _
      · exact .jump _
    · exact bodyLine_of_moves (branchBody_moves lowered) owner line body
    · rw [List.mem_singleton.mp label]
      exact .label _

theorem statements_bodyLine {owner : String} {slots : List Slot} {state last : State}
    {body : List Stmt} {lines : List Line}
    (emitted : statements owner slots state body = .ok (lines, last)) :
    ∀ line ∈ lines, BodyLine owner line := by
  induction body generalizing state lines with
  | nil =>
    cases emitted
    simp
  | cons s rest ih =>
    obtain ⟨first, between, others, head, tail, rfl⟩ := statements_eq_ok emitted
    intro line member
    rcases List.mem_append.mp member with inFirst | inOthers
    · exact head.bodyLine line inFirst
    · exact ih tail line inOthers

theorem branchBody_length {bound : Bindings} {body : List Stmt} {code : List Instr}
    {store after : Store} (lowered : branchBody bound body = .ok code)
    (ran : Stmt.runAll? store body = some after) : after.length = store.length := by
  induction body generalizing store code with
  | nil =>
    rw [Stmt.runAll?] at ran
    cases ran
    rfl
  | cons s rest ih =>
    obtain ⟨e, first, others, rfl, -, later, -⟩ := branchBody_eq_ok lowered
    rw [Stmt.runAll?] at ran
    obtain ⟨between, head, tail⟩ := Option.bind_eq_some_iff.mp ran
    obtain ⟨name, value, v, index, -, -, -, rfl⟩ := Stmt.run?_evaluate head
    rw [ih later tail, List.length_set]

/-- A declaration finds the slot that was made for it. -/
theorem Lockstep.declared {slots : List Slot} {state : State} {store : Store} {name : String}
    {value : Expr} {rest : List Stmt} {slot : Slot}
    (lock : Lockstep slots state store (.declare name value :: rest))
    (there : slots[state.next]? = some slot) :
    slots[store.length]? = some slot ∧ slot.name = name ∧
      (slots.drop (store.length + 1)).map Slot.name = rest.filterMap Stmt.declared? := by
  rw [lock.next] at there
  obtain ⟨bounded, here⟩ := List.getElem?_eq_some_iff.mp there
  have names := lock.names
  rw [List.drop_eq_getElem_cons bounded, here, List.map_cons] at names
  obtain ⟨named, others⟩ := List.cons.inj names
  exact ⟨there, named, others⟩

theorem Lockstep.step {owner : String} {slots : List Slot} {state next : State}
    {store after : Store} {s : Stmt} {rest : List Stmt} {lines : List Line}
    (lock : Lockstep slots state store (s :: rest)) (emitted : Emits owner slots state s lines next)
    (ran : Stmt.run? store s = some after) : Lockstep slots next after rest := by
  cases emitted with
  | @declare name value slot code there stored =>
    rw [Stmt.run?] at ran
    obtain ⟨v, -, rfl⟩ := Option.map_eq_some_iff.mp ran
    obtain ⟨there, named, others⟩ := lock.declared there
    have length : (store.declare name v).length = store.length + 1 := by
      simp [Store.declare]
    refine ⟨?_, ?_, ?_⟩
    · rw [length, lock.next]
    · rw [length, List.take_add_one, there, Option.toList_some, bindings_concat, named, lock.bound]
    · rw [length]
      exact others
  | evaluate assigned =>
    obtain ⟨name, value, v, index, -, -, -, rfl⟩ := Stmt.run?_evaluate ran
    have length : (store.set index (name, v)).length = store.length := List.length_set
    exact ⟨lock.next.trans length.symm, by rw [length]; exact lock.bound,
      by rw [length]; exact lock.names⟩
  | branch compared inner =>
    rw [Stmt.run?] at ran
    obtain ⟨holds, -, chosen⟩ := Option.bind_eq_some_iff.mp ran
    have length : after.length = store.length := by
      split at chosen
      · exact branchBody_length inner chosen
      · cases chosen
        rfl
    exact ⟨lock.next.trans length.symm, by rw [length]; exact lock.bound,
      by rw [length]; exact lock.names⟩

/-- A processor with the frame of a function at `base`, and the variables so far in their slots. -/
structure Framed (frame : Frame) (base : Word) (core : Core) (store : Store) : Prop where
  rbp : core.registers .rbp = base
  rsp : core.registers .rsp = base - BitVec.ofNat 64 frame.size
  holds : Holds frame.slots base core.memory store

/-- A processor in the body of a function. Memory outside of all slots is as it was when the body
was entered. -/
structure Inside (frame : Frame) (base : Word) (entry : Memory) (core : Core) (store : Store) :
    Prop extends Framed frame base core store where
  outside : ∀ place, (∀ slot ∈ frame.slots, ¬InSlot base slot place) →
    core.memory place = entry place

/-- A value has been put into a slot, and at most `rax` was used for it. -/
structure Stored (target : Slot) (value : Constant) (core after : Core) : Prop where
  rbp : after.registers .rbp = core.registers .rbp
  rsp : after.registers .rsp = core.registers .rsp
  memory : after.memory = core.memory.write
    (core.registers .rbp - BitVec.ofNat 64 target.offset) target.width value.toNat

theorem moveWidth_bytes {slot : Slot} (valued : slot.type = .number ∨ slot.type = .boolean) :
    (moveWidth slot).bytes = slot.width := by
  obtain ⟨-, four⟩ | ⟨-, one⟩ := Slot.width_cases valued
  · simp [moveWidth, four, Width.bytes]
  · simp [moveWidth, one, Width.bytes]

namespace Inside

variable {frame : Frame} {base : Word} {entry : Memory} {core : Core} {store : Store}

theorem load (inside : Inside frame base entry core store) (width : Width) (value : Nat) :
    Inside frame base entry (core.load width .rax value) store := by
  refine ⟨⟨?_, ?_, ?_⟩, ?_⟩
  · rw [Core.load_other _ _ _ (by decide)]
    exact inside.rbp
  · rw [Core.load_other _ _ _ (by decide)]
    exact inside.rsp
  · rw [Core.load_memory]
    exact inside.holds
  · rw [Core.load_memory]
    exact inside.outside

theorem stored {after : Core} {next : Store} {target : Slot} {value : Constant}
    (inside : Inside frame base entry core store) (member : target ∈ frame.slots)
    (wrote : Stored target value core after) (holds : Holds frame.slots base after.memory next) :
    Inside frame base entry after next := by
  refine ⟨⟨wrote.rbp.trans inside.rbp, wrote.rsp.trans inside.rsp, holds⟩, fun place free => ?_⟩
  have missed := free target member
  unfold InSlot at missed
  rw [← inside.outside place free, wrote.memory, inside.rbp]
  simp only [Memory.write, missed, ↓reduceIte]

end Inside

section

variable (image : Image) {frame : Frame} (addressable : Addressable frame) {base : Word}
variable {entry : Memory} {core : Core} {store : Store}
variable (inside : Inside frame base entry core store)
include addressable inside

/-- The code of a store puts the value into the slot. -/
theorem store_exec {value : Expr} {target : Slot} {code : List Instr} {c : Constant}
    (member : target ∈ frame.slots)
    (lowered : Assembly.store (bindings (frame.slots.take store.length)) value target = .ok code)
    (read : value.value? store = some c) :
    c.type = target.type ∧ c.toNat < 256 ^ target.width ∧
      ∃ after, image.execAll? core code = some after ∧ Stored target c core after := by
  have valued := (addressable.wellFormed.stacked.below target member).1
  have bytes := moveWidth_bytes valued
  cases value with
  | lit text type =>
    simp only [Assembly.store] at lowered
    split at lowered
    · cases lowered
    · rename_i same
      have same : type = target.type := not_not.mp same
      obtain ⟨constant, known, code⟩ := bind_eq_ok.mp lowered
      cases code
      have value := Literal.constant_eq_ok.mp known
      cases (Literal.meaning?_of_constant? value).symm.trans read
      have small : c.toNat < 256 ^ target.width := by
        rw [Slot.width, ← same]
        exact Literal.constant?_lt value
      refine ⟨(Literal.constant?_type value).trans same, small, _, rfl, rfl, rfl, ?_⟩
      have immediate := core.value_immediate (moveWidth target) (bytes.symm ▸ small)
      simp only [Core.save, immediate, bytes]
      rfl
  | var name =>
    obtain ⟨source, found, rest⟩ := bind_eq_ok.mp lowered
    split at rest
    · cases rest
    · rename_i same
      have same : source.type = target.type := not_not.mp same
      cases rest
      obtain ⟨index, value, latest, -, here, -, typed, held⟩ := inside.holds.slotOf_eq_ok found
      have equal : value = c := by
        simpa [Expr.value?, Store.value?, latest, here] using read
      subst equal
      have width : source.width = target.width := by rw [Slot.width, same, Slot.width]
      have moved : core.value (moveWidth target) (.frame source.offset) = value.toNat := by
        rw [Core.value, Core.address, inside.rbp, bytes, ← width, held]
      have small : value.toNat < 256 ^ target.width := by
        rw [← held, ← width]
        exact Memory.read_lt ..
      refine ⟨typed.trans same, small, _, rfl, ?_, ?_, ?_⟩
      · exact Core.load_other _ _ _ (by decide)
      · exact Core.load_other _ _ _ (by decide)
      · simp only [Core.save, Core.value_load, Core.address, Core.load_memory, moved, bytes,
          Nat.mod_eq_of_lt small, Core.load_other _ _ _ (show Register.rbp ≠ .rax by decide)]
  | hole => cases lowered
  | binary => cases lowered

theorem declare_exec {name : String} {value : Expr} {target : Slot} {code : List Instr}
    {after : Store} (there : frame.slots[store.length]? = some target) (named : target.name = name)
    (lowered : Assembly.store (bindings (frame.slots.take store.length)) value target = .ok code)
    (ran : Stmt.run? store (.declare name value) = some after) :
    ∃ final, image.execAll? core code = some final ∧ Inside frame base entry final after := by
  rw [Stmt.run?] at ran
  obtain ⟨c, read, rfl⟩ := Option.map_eq_some_iff.mp ran
  have member := List.mem_of_getElem? there
  obtain ⟨typed, small, final, executed, wrote⟩ :=
    store_exec image addressable inside member lowered read
  refine ⟨final, executed, inside.stored member wrote ?_⟩
  rw [wrote.memory, inside.rbp, ← named]
  exact addressable.holds_declare inside.holds there typed small

theorem assign_exec {e : Expr} {code : List Instr} {after : Store}
    (lowered : assign (bindings (frame.slots.take store.length)) e = .ok code)
    (ran : Stmt.run? store (.evaluate e) = some after) :
    ∃ final, image.execAll? core code = some final ∧ Inside frame base entry final after := by
  obtain ⟨name, value, c, index, rfl, read, latest, rfl⟩ := Stmt.run?_evaluate ran
  obtain ⟨target, found, stored⟩ := bind_eq_ok.mp lowered
  obtain ⟨place, old, latest', there, here, rfl, -, -⟩ := inside.holds.slotOf_eq_ok found
  rw [latest] at latest'
  cases latest'
  have member := List.mem_of_getElem? there
  obtain ⟨typed, small, final, executed, wrote⟩ :=
    store_exec image addressable inside member stored read
  refine ⟨final, executed, inside.stored member wrote ?_⟩
  rw [wrote.memory, inside.rbp]
  exact addressable.holds_assign inside.holds there (List.getElem?_eq_some_iff.mp here).1
    typed small

end

section

variable (image : Image) {frame : Frame} (addressable : Addressable frame) {base : Word}
variable {entry : Memory} {core : Core} {store : Store}

include addressable in
theorem branchBody_exec {body : List Stmt} {code : List Instr} {after : Store}
    (inside : Inside frame base entry core store)
    (lowered : branchBody (bindings (frame.slots.take store.length)) body = .ok code)
    (ran : Stmt.runAll? store body = some after) :
    ∃ final, image.execAll? core code = some final ∧ Inside frame base entry final after := by
  induction body generalizing store core code with
  | nil =>
    rw [Stmt.runAll?] at ran
    cases ran
    cases lowered
    exact ⟨core, rfl, inside⟩
  | cons s rest ih =>
    obtain ⟨e, first, others, rfl, assigned, later, rfl⟩ := branchBody_eq_ok lowered
    rw [Stmt.runAll?] at ran
    obtain ⟨between, head, tail⟩ := Option.bind_eq_some_iff.mp ran
    obtain ⟨middle, executed, inside⟩ := assign_exec image addressable inside assigned head
    have length : between.length = store.length := by
      obtain ⟨name, value, v, index, -, -, -, rfl⟩ := Stmt.run?_evaluate head
      exact List.length_set
    rw [← length] at later
    obtain ⟨final, rest, inside⟩ := ih inside later tail
    refine ⟨final, ?_, inside⟩
    rw [Image.execAll?_append, executed, Option.bind_some, rest]

/-- An operand of a comparison has the value of its expression. -/
theorem operand_value {e comparison : Expr} {operand : Operand} {n : Nat}
    (inside : Inside frame base entry core store)
    (lowered : Assembly.operand (bindings (frame.slots.take store.length)) e comparison =
      .ok operand)
    (read : e.value? store = some (.number n)) :
    core.value .long operand = n ∧ n < 256 ^ 4 := by
  obtain ⟨type, -, rest⟩ := bind_eq_ok.mp lowered
  split at rest
  · cases rest
  · cases e with
    | lit text found =>
      obtain ⟨constant, known, same⟩ := bind_eq_ok.mp rest
      cases same
      have value := Literal.constant_eq_ok.mp known
      cases (Literal.meaning?_of_constant? value).symm.trans read
      have isNumber := Literal.constant?_type value
      have small := Literal.constant?_lt value
      subst isNumber
      exact ⟨core.value_immediate .long small, small⟩
    | var name =>
      obtain ⟨slot, found, same⟩ := bind_eq_ok.mp rest
      cases same
      obtain ⟨index, value, latest, -, here, -, typed, held⟩ := inside.holds.slotOf_eq_ok found
      have equal : value = .number n := by
        simpa [Expr.value?, Store.value?, latest, here] using read
      subst equal
      have width : slot.width = 4 := by
        rw [Slot.width, ← typed]
        rfl
      rw [width] at held
      have value : core.value .long (.frame slot.offset) = n := by
        rw [Core.value, Core.address, inside.rbp]
        exact held
      exact ⟨value, value ▸ Memory.read_lt ..⟩
    | hole => cases rest
    | binary => cases rest

theorem operands_eq_ok {bound : Bindings} {condition : Expr} {left right : Operand}
    (lowered : operands bound condition = .ok (left, right)) :
    ∃ l r, condition = .binary l .greater r ∧ operand bound l condition = .ok left ∧
      operand bound r condition = .ok right := by
  obtain ⟨type, -, rest⟩ := bind_eq_ok.mp lowered
  split at rest
  · cases rest
  · split at rest
    · rename_i l r
      obtain ⟨leftOperand, first, rest⟩ := bind_eq_ok.mp rest
      obtain ⟨rightOperand, second, same⟩ := bind_eq_ok.mp rest
      cases same
      exact ⟨l, r, rfl, first, second⟩
    · cases rest

/-- A comparison leaves flags behind by which the jump is taken exactly when the condition fails. -/
theorem comparison_exec {condition : Expr} {left right : Operand} {holds : Bool}
    (inside : Inside frame base entry core store)
    (lowered : operands (bindings (frame.slots.take store.length)) condition = .ok (left, right))
    (decided : condition.holds? store = some holds) :
    ∃ final, image.execAll? core [.mov .long left (.register .rax), .cmpl right .rax] = some final ∧
      Inside frame base entry final store ∧ (final.carry || final.zero) = !holds := by
  obtain ⟨l, r, rfl, first, second⟩ := operands_eq_ok lowered
  obtain ⟨m, n, leftValue, rightValue, rfl⟩ := Expr.holds?_greater decided
  obtain ⟨leftRead, small⟩ := operand_value inside first leftValue
  have loaded := inside.load .long (core.value .long left)
  obtain ⟨rightRead, -⟩ := operand_value loaded second rightValue
  have accumulator := core.value_load .long .rax (core.value .long left)
  rw [leftRead, Width.bytes, Nat.mod_eq_of_lt small] at accumulator
  rw [leftRead] at loaded rightRead
  refine ⟨(core.load .long .rax m).compare m n, ?_,
    ⟨⟨loaded.rbp, loaded.rsp, loaded.holds⟩, loaded.outside⟩, ?_⟩
  · simp only [Image.execAll?, List.foldlM_cons, List.foldlM_nil, Image.exec?, leftRead,
      Option.bind_eq_bind, Option.bind_some, accumulator, rightRead]
    rfl
  · simp only [Core.compare, ← Bool.decide_or, ← decide_not, decide_eq_decide]
    omega

variable {image} {line : Nat} {calls : List Call}
variable (once : ((labels image.lines).map Label.text).Nodup)
include addressable once

/-- The body of a branch is run or jumped over. -/
theorem branch_reaches {label : Label} {condition : Expr} {body : List Stmt} {left right : Operand}
    {code : List Instr} {after : Store} (inside : Inside frame base entry core store)
    (compared : operands (bindings (frame.slots.take store.length)) condition = .ok (left, right))
    (lowered : branchBody (bindings (frame.slots.take store.length)) body = .ok code)
    (ran : Stmt.run? store (.branch condition body) = some after)
    (placed : image.Has line (branchLines label left right code)) :
    ∃ final, image.Reaches (.running line core calls)
        (.running (line + (branchLines label left right code).length) final calls) ∧
      Inside frame base entry final after := by
  rw [Stmt.run?] at ran
  obtain ⟨holds, decided, chosen⟩ := Option.bind_eq_some_iff.mp ran
  obtain ⟨middle, executed, inside, flags⟩ := comparison_exec image inside compared decided
  rw [branchLines_length, ← Nat.add_assoc, ← Nat.add_assoc]
  unfold branchLines at placed
  have jump := placed.left.left.tail.tail.head
  have inner : image.Has (line + 3) (code.map .instr) := placed.left.right
  have goal : image.lines[line + 3 + code.length]? = some (.label label) := by
    have behind := placed.right.head
    rwa [List.length_append, List.length_map, ← Nat.add_assoc] at behind
  have compare : image.Reaches (.running line core calls) (.running (line + 2) middle calls) :=
    Image.reaches_execAll placed.left.left.left executed
  have jumped : image.Reaches (.running (line + 2) middle calls)
      (.running (if !holds then line + 3 + code.length else line + 3) middle calls) := by
    rw [← flags]
    exact Image.reaches_jbe jump (Image.find?_eq once goal rfl)
  cases holds with
  | true =>
    obtain ⟨final, executed, inside⟩ := branchBody_exec image addressable inside lowered chosen
    refine ⟨final, ?_, inside⟩
    exact ((compare.trans jumped).trans (Image.reaches_execAll inner executed)).trans
      (Image.reaches_label goal)
  | false =>
    cases chosen
    exact ⟨middle, (compare.trans jumped).trans (Image.reaches_label goal), inside⟩

theorem statement_reaches {owner : String} {state next : State} {s : Stmt} {rest : List Stmt}
    {lines : List Line} {after : Store} (inside : Inside frame base entry core store)
    (lock : Lockstep frame.slots state store (s :: rest))
    (emitted : Emits owner frame.slots state s lines next) (ran : Stmt.run? store s = some after)
    (placed : image.Has line lines) :
    ∃ final, image.Reaches (.running line core calls) (.running (line + lines.length) final calls) ∧
      Inside frame base entry final after := by
  have bound := lock.bound
  cases emitted with
  | declare there stored =>
    obtain ⟨there, named, -⟩ := lock.declared there
    rw [bound] at stored
    obtain ⟨final, executed, inside⟩ := declare_exec image addressable inside there named stored ran
    rw [List.length_map]
    exact ⟨final, Image.reaches_execAll placed executed, inside⟩
  | evaluate assigned =>
    rw [bound] at assigned
    obtain ⟨final, executed, inside⟩ := assign_exec image addressable inside assigned ran
    rw [List.length_map]
    exact ⟨final, Image.reaches_execAll placed executed, inside⟩
  | branch compared inner =>
    rw [bound] at compared inner
    exact branch_reaches addressable once inside compared inner ran placed

/-- The lines of a body do what the body means. -/
theorem statements_reaches {owner : String} {state last : State} {body : List Stmt}
    {lines : List Line} {after : Store} (inside : Inside frame base entry core store)
    (lock : Lockstep frame.slots state store body)
    (emitted : statements owner frame.slots state body = .ok (lines, last))
    (ran : Stmt.runAll? store body = some after) (placed : image.Has line lines) :
    ∃ final, image.Reaches (.running line core calls) (.running (line + lines.length) final calls) ∧
      Inside frame base entry final after ∧ Lockstep frame.slots last after [] := by
  induction body generalizing state store core line lines with
  | nil =>
    rw [Stmt.runAll?] at ran
    cases ran
    cases emitted
    exact ⟨core, .refl, inside, lock⟩
  | cons s rest ih =>
    obtain ⟨first, between, others, head, tail, rfl⟩ := statements_eq_ok emitted
    rw [Stmt.runAll?] at ran
    obtain ⟨middle, ranHead, ranTail⟩ := Option.bind_eq_some_iff.mp ran
    obtain ⟨reached, start, inside⟩ :=
      statement_reaches addressable once inside lock head ranHead placed.left
    obtain ⟨final, finish, done⟩ := ih inside (lock.step head ranHead) tail ranTail placed.right
    rw [List.length_append, ← Nat.add_assoc]
    exact ⟨final, start.trans finish, done⟩

end

end Assembly

end DeltaLang
