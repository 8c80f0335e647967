import DeltaLang.Proofs.Ir.Correctness
import DeltaLang.Proofs.Ir.Names

/-!
Everything that an instruction takes is there when the instruction runs, and has the type that the
instruction asks for.

A cell is allocated in the entry block, also when that block has long been finished. So what the
code of a block can rely on are the cells so far: in the entry block because they stand before it,
in any other block because the entry block comes first.
-/

namespace DeltaLang.Ir

section Definitions

def Value.temp? : Value → Option Temp
  | .constant _ => none
  | .temp t => some t

namespace Instr

def cell? : Instr → Option Cell
  | .store _ cell => some cell
  | .load _ cell => some cell
  | _ => none

def temps : Instr → List Temp
  | .store value _ => value.temp?.toList
  | .icmpUgt _ left right => left.temp?.toList ++ right.temp?.toList
  | .zext _ value => [value]
  | .printf _ format value => [format, value]
  | _ => []

def global? : Instr → Option Global
  | .bitcast _ text => some text
  | _ => none

/-- Whether the operands and the result of an instruction have the types that it is for. A cell of
a type is used with values of that type only. -/
def isTyped : Instr → Bool
  | .alloca cell => cell.type != .pointer
  | .store value cell => value.type == cell.type
  | .load result cell => result.type == cell.type
  | .icmpUgt result left right => left.type == .i32 && right.type == .i32 && result.type == .i1
  | .zext result value => value.type == .i1 && result.type == .i32
  | .bitcast result _ => result.type == .pointer
  | .printf result format value =>
    format.type == .pointer && value.type == .i32 && result.type == .i32
  | .exit _ => true

/-- What an instruction takes is there: its text in the module, its cell among `cells`, and its
temporaries by an instruction `before` it. -/
structure Ready (globals : List Global) (cells : List Cell) (before : List Instr) (i : Instr) :
    Prop where
  global : ∀ text, i.global? = some text → text ∈ globals
  cell : ∀ cell, i.cell? = some cell → cell ∈ cells
  temps : ∀ temp ∈ i.temps, temp ∈ before.filterMap result?

end Instr

namespace Terminator

def targets : Terminator → List BlockName
  | .br target => [target]
  | .condBr _ then' else' => [then', else']
  | .ret => []
  | .unreachable => []

def condition? : Terminator → Option Temp
  | .condBr condition _ _ => some condition
  | _ => none

end Terminator

/-- A block of a function whose entry block allocates `cells`. An instruction of the entry block
itself can use those cells only that are allocated before it. -/
structure Block.Sound (globals : List Global) (cells : List Cell) (block : Block) : Prop where
  ready : ∀ before i after, block.instrs = before ++ i :: after →
    i.Ready globals (if block.name = .entry then before.filterMap Instr.alloca? else cells) before
  typed : ∀ i ∈ block.instrs, i.isTyped = true
  allocas : block.name ≠ .entry → block.instrs.filterMap Instr.alloca? = []
  condition : ∀ temp, block.terminator.condition? = some temp →
    temp.type = .i1 ∧ temp ∈ block.instrs.filterMap Instr.result?

end Definitions

section Blocks

variable {globals : List Global} {cells : List Cell} {name : BlockName} {code : List Instr}
  {terminator : Terminator}

theorem Block.Sound.empty (name : BlockName) :
    Block.Sound globals cells ⟨name, [], .ret⟩ := by
  refine ⟨?_, nofun, fun _ => rfl, nofun⟩
  intro before i after split
  simp at split

/-- Later declarations only add to the cells that a block can use. -/
theorem Block.Sound.more {block : Block} (sound : block.Sound globals cells) (cell : Cell) :
    block.Sound globals (cells ++ [cell]) := by
  refine ⟨?_, sound.typed, sound.allocas, sound.condition⟩
  intro before i after split
  obtain ⟨global, known, temps⟩ := sound.ready before i after split
  refine ⟨global, ?_, temps⟩
  intro used uses
  have member := known used uses
  split
  · rename_i first
    rwa [if_pos first] at member
  · rename_i later
    rw [if_neg later] at member
    exact List.mem_append_left _ member

theorem Block.Sound.concat {i : Instr} (sound : Block.Sound globals cells ⟨name, code, terminator⟩)
    (ready : i.Ready globals (if name = .entry then code.filterMap Instr.alloca? else cells) code)
    (typed : i.isTyped = true) (plain : name ≠ .entry → i.alloca? = none) :
    Block.Sound globals cells ⟨name, code ++ [i], terminator⟩ := by
  refine ⟨?_, ?_, ?_, ?_⟩
  · intro before other after split
    obtain ⟨rfl, rfl, -⟩ | ⟨rest, shape, -⟩ := split_concat split
    · exact ready
    · exact sound.ready before other rest shape
  · intro other member
    rcases List.mem_append.mp member with inCode | isLast
    · exact sound.typed other inCode
    · rw [List.mem_singleton.mp isLast]
      exact typed
  · intro later
    have before := sound.allocas later
    have last := plain later
    simp only [List.filterMap_append, before, List.nil_append]
    simp [last]
  · intro temp isCondition
    obtain ⟨boolean, defined⟩ := sound.condition temp isCondition
    refine ⟨boolean, ?_⟩
    rw [List.filterMap_append]
    exact List.mem_append_left _ defined

theorem Block.Sound.ended {last : Terminator}
    (sound : Block.Sound globals cells ⟨name, code, terminator⟩)
    (condition : ∀ temp, last.condition? = some temp →
      temp.type = .i1 ∧ temp ∈ code.filterMap Instr.result?) :
    Block.Sound globals cells ⟨name, code, last⟩ :=
  ⟨sound.ready, sound.typed, sound.allocas, condition⟩

end Blocks

section Shape

theorem blockNames_cons (branches : Nat) : ∃ rest, blockNames branches = .entry :: rest := by
  induction branches with
  | zero => exact ⟨[], rfl⟩
  | succ branches ih =>
    obtain ⟨rest, shape⟩ := ih
    rw [blockNames, shape]
    exact ⟨_, rfl⟩

theorem WellFormed.close_names {state : State} (wellFormed : WellFormed state)
    (terminator : Terminator) :
    (close state terminator).map Block.name = blockNames state.labels := by
  rw [← wellFormed.names, close, List.map_append]
  rfl

/-- The entry block is the first one, and no other. -/
theorem WellFormed.close_eq_cons {state : State} (wellFormed : WellFormed state)
    (terminator : Terminator) :
    ∃ first rest, close state terminator = first :: rest ∧ first.name = .entry ∧
      ∀ block ∈ rest, block.name ≠ .entry := by
  obtain ⟨others, names⟩ := blockNames_cons state.labels
  have once := blockNames_nodup state.labels
  rw [names, List.nodup_cons] at once
  obtain ⟨first, rest, shape, isEntry, same⟩ :=
    List.map_eq_cons_iff.mp ((wellFormed.close_names terminator).trans names)
  refine ⟨first, rest, shape, isEntry, ?_⟩
  intro block member isEntry
  apply once.1
  rw [← same, ← isEntry]
  exact List.mem_map_of_mem member

theorem WellFormed.name_eq_entry {state : State} (wellFormed : WellFormed state) :
    state.name = .entry ↔ state.blocks = [] := by
  obtain ⟨first, rest, shape, isEntry, later⟩ := wellFormed.close_eq_cons .ret
  unfold close at shape
  cases blocks : state.blocks with
  | nil =>
    rw [blocks] at shape
    obtain ⟨rfl, -⟩ := List.cons.inj shape
    exact ⟨fun _ => rfl, fun _ => isEntry⟩
  | cons block others =>
    rw [blocks] at shape
    obtain ⟨-, rfl⟩ := List.cons.inj shape
    have notEntry : state.name ≠ .entry := later ⟨state.name, state.instrs, .ret⟩ (by simp)
    exact ⟨fun contrary => absurd contrary notEntry, nofun⟩

theorem close_allocate {state : State} {terminator : Terminator} {first : Block}
    {rest : List Block} (cell : Cell) (shape : close state terminator = first :: rest) :
    close (state.allocate cell) terminator =
      { first with instrs := first.instrs ++ [.alloca cell] } :: rest := by
  unfold close at shape ⊢
  simp only [State.allocate, State.record]
  split
  · rename_i empty
    rw [empty] at shape
    obtain ⟨rfl, rfl⟩ := List.cons.inj shape
    simp [State.emit, empty]
  · rename_i entry others finished
    rw [finished] at shape
    obtain ⟨rfl, rfl⟩ := List.cons.inj shape
    rfl

theorem State.allocate_temps (state : State) (cell : Cell) :
    (state.allocate cell).temps = state.temps := by
  simp only [allocate, record]
  split <;> rfl

theorem State.allocate_name (state : State) (cell : Cell) :
    (state.allocate cell).name = state.name := by
  simp only [allocate, record]
  split <;> rfl

theorem State.allocate_instrs (state : State) (cell : Cell) (empty : state.blocks = []) :
    (state.allocate cell).instrs = state.instrs ++ [.alloca cell] := by
  simp [allocate, record, empty, emit]

end Shape

section States

theorem Ty.ne_pointer {kind : Primitive} {type : Ty} (typed : Ty.ofPrimitive? kind = some type) :
    type ≠ .pointer := by
  rintro rfl
  cases kind <;> cases typed

theorem Ty.eq_i32_of_ne {kind : Primitive} {type : Ty} (other : kind ≠ .boolean)
    (typed : Ty.ofPrimitive? kind = some type) : type = .i32 := by
  cases kind with
  | number => exact (Option.some.inj typed).symm
  | boolean => exact absurd rfl other
  | void => cases typed
  | other => cases typed

theorem Ty.eq_i1 {type : Ty} (typed : Ty.ofPrimitive? .boolean = some type) : type = .i1 :=
  (Option.some.inj typed).symm

/-- The cells that the code of the block at hand can use. -/
def State.reach (state : State) : List Cell :=
  if state.name = .entry then state.instrs.filterMap Instr.alloca? else state.cells

/-- A function under construction whose blocks are sound, the one at hand included. -/
structure State.Sound (globals : List Global) (state : State) : Prop where
  reach : state.reach = state.cells
  typed : ∀ cell ∈ state.cells, Ty.ofPrimitive? cell.kind = some cell.type
  bound : ∀ name cell, state.bound.cellOf name = .ok cell → cell ∈ state.cells
  blocks : ∀ block ∈ close state .ret, block.Sound globals state.cells
  counted : ((close state .ret).flatMap fun block => block.instrs.filterMap Instr.result?).map
    Temp.index = List.range state.temps

namespace State.Sound

variable {globals : List Global} {state : State}

theorem start : Sound globals .start := by
  refine ⟨rfl, nofun, nofun, ?_, rfl⟩
  intro block member
  rw [List.mem_singleton.mp member]
  exact .empty .entry

/-- The block at hand, with whatever it will end in. -/
theorem here (sound : Sound globals state) :
    Block.Sound globals state.cells ⟨state.name, state.instrs, .ret⟩ :=
  sound.blocks _ (by simp [close])

/-- One more instruction, which is no allocation. -/
theorem emit {i : Instr} {temps : Nat} (sound : Sound globals state) (plain : i.alloca? = none)
    (ready : i.Ready globals state.cells state.instrs) (typed : i.isTyped = true)
    (counts : List.range temps = List.range state.temps ++ i.result?.toList.map Temp.index) :
    Sound globals (state.append [i] temps) := by
  refine ⟨?_, sound.typed, sound.bound, ?_, ?_⟩
  · rw [← show state.reach = (state.append [i] temps).cells from sound.reach]
    simp [State.reach, append, plain]
  · intro block member
    rcases List.mem_append.mp member with finished | isHere
    · exact sound.blocks block (List.mem_append_left _ finished)
    · rw [List.mem_singleton.mp isHere]
      have reach : (if state.name = .entry then state.instrs.filterMap Instr.alloca?
        else state.cells) = state.cells := sound.reach
      apply sound.here.concat
      · rw [reach]
        exact ready
      · exact typed
      · exact fun _ => plain
  · have before := sound.counted
    simp only [close, append, List.flatMap_append, List.flatMap_singleton, List.filterMap_append,
      List.map_append] at before ⊢
    rw [counts, ← before, List.append_assoc]
    cases result : i.result? <;> simp [result]

/-- Ends the block at hand. -/
theorem finish {terminator : Terminator} {next : BlockName} (sound : Sound globals state)
    (condition : ∀ temp, terminator.condition? = some temp →
      temp.type = .i1 ∧ temp ∈ state.instrs.filterMap Instr.result?) (later : next ≠ .entry) :
    Sound globals (state.finish terminator next) := by
  refine ⟨if_neg later, sound.typed, sound.bound, ?_, ?_⟩
  · intro block member
    rcases List.mem_append.mp member with finished | isHere
    · rcases List.mem_append.mp finished with before | isLast
      · exact sound.blocks block (List.mem_append_left _ before)
      · rw [List.mem_singleton.mp isLast]
        exact sound.here.ended condition
    · rw [List.mem_singleton.mp isHere]
      exact .empty next
  · have before := sound.counted
    simpa [close, State.finish] using before

/-- A new cell goes to the entry block, wherever the function is. -/
theorem allocate {cell : Cell} (sound : Sound globals state) (wellFormed : WellFormed state)
    (typed : Ty.ofPrimitive? cell.kind = some cell.type) :
    Sound globals (state.allocate cell) := by
  obtain ⟨first, rest, shape, isEntry, later⟩ := wellFormed.close_eq_cons .ret
  have closed := close_allocate cell shape
  have cells := state.allocate_cells cell
  refine ⟨?_, ?_, ?_, ?_, ?_⟩
  · have before : (if state.name = .entry then state.instrs.filterMap Instr.alloca?
      else state.cells) = state.cells := sound.reach
    rw [State.reach, state.allocate_name, cells]
    split
    · rename_i inEntry
      rw [if_pos inEntry] at before
      rw [state.allocate_instrs cell (wellFormed.name_eq_entry.mp inEntry), List.filterMap_append,
        before]
      rfl
    · rfl
  · intro other member
    rw [cells] at member
    rcases List.mem_append.mp member with old | new
    · exact sound.typed other old
    · rw [List.mem_singleton.mp new]
      exact typed
  · intro name other found
    rw [allocate_bound] at found
    rw [cells]
    exact List.mem_append_left _ (sound.bound name other found)
  -- the first block gets the allocation, and every block may use the new cell
  · intro block member
    rw [closed] at member
    rw [cells]
    rcases List.mem_cons.mp member with rfl | inRest
    · have old := (sound.blocks first (by simp [shape])).more cell
      apply old.concat
      · exact ⟨nofun, nofun, nofun⟩
      · simpa [Instr.isTyped] using Ty.ne_pointer typed
      · exact fun notEntry => absurd isEntry notEntry
    · exact (sound.blocks block (by simp [shape, inRest])).more cell
  · have before := sound.counted
    rw [state.allocate_temps, ← before, closed, shape]
    simp [Instr.result?]

/-- A value that is loaded from a cell. -/
theorem load {cell : Cell} (sound : Sound globals state) (member : cell ∈ state.cells) :
    Sound globals (state.append [.load ⟨state.temps, cell.type⟩ cell] (state.temps + 1)) := by
  apply sound.emit rfl
  · refine ⟨nofun, ?_, nofun⟩
    intro used uses
    cases uses
    exact member
  · simp [Instr.isTyped]
  · exact List.range_succ

/-- A value of the right type that is stored in a cell. -/
theorem store {value : Value} {cell : Cell} (sound : Sound globals state)
    (member : cell ∈ state.cells) (typed : value.type = cell.type)
    (defined : ∀ temp, value.temp? = some temp → temp ∈ state.instrs.filterMap Instr.result?) :
    Sound globals (state.append [.store value cell] state.temps) := by
  apply sound.emit rfl
  · refine ⟨nofun, ?_, ?_⟩
    · intro used uses
      cases uses
      exact member
    · intro temp taken
      exact defined temp (by simpa [Instr.temps] using taken)
  · simpa [Instr.isTyped] using typed
  · simp [Instr.result?]

end State.Sound

theorem Stores.sound {globals : List Global} {state : State} {target : Cell} {value : Expr}
    {code : List Instr} {temps : Nat} (sound : state.Sound globals)
    (member : target ∈ state.cells) (stores : Stores state target value code temps) :
    (state.append code temps).Sound globals := by
  have typed := sound.typed target member
  cases stores with
  | lit same known =>
    have kind := same.symm.trans (Literal.constant?_type known).symm
    rw [kind] at typed
    exact sound.store member (Value.constant_type typed) nofun
  | @var name source found same =>
    have source_member := sound.bound name source found
    have type : (Value.temp ⟨state.temps, source.type⟩).type = target.type := by
      have own := sound.typed source source_member
      rw [same, typed] at own
      exact (Option.some.inj own).symm
    have loaded := sound.load source_member
    rw [← List.singleton_append, ← state.append_append _ _ (state.temps + 1)]
    apply loaded.store member type
    intro temp isTemp
    cases isTemp
    simp [State.append, Instr.result?]

theorem Bindings.kind_of_typeOf {bound : Bindings} {name : String} {cell : Cell} {type : Primitive}
    (found : bound.cellOf name = .ok cell) (typed : (Expr.var name).typeOf bound.env = .ok type) :
    cell.kind = type := by
  unfold cellOf at found
  split at found
  · rename_i known present
    cases found
    simpa [Expr.typeOf, env, present] using typed
  · cases found

theorem Takes.sound {globals : List Global} {state : State} {e : Expr} {value : Value}
    {code : List Instr} {temps : Nat} (sound : state.Sound globals)
    (number : e.typeOf state.bound.env = .ok .number) (takes : Takes state e value code temps) :
    (state.append code temps).Sound globals ∧ value.type = .i32 ∧
      ∀ temp, value.temp? = some temp →
        temp ∈ (state.append code temps).instrs.filterMap Instr.result? := by
  cases takes with
  | @lit text type constant known =>
    obtain rfl : type = .number := Except.ok.inj number
    have typed := Literal.constant?_type known
    refine ⟨?_, Value.constant_type (typed ▸ rfl), nofun⟩
    simpa [State.append] using sound
  | @var name cell found =>
    have member := sound.bound name cell found
    have kind : cell.kind = .number := Bindings.kind_of_typeOf found number
    refine ⟨sound.load member, Ty.eq_i32_of_ne (by simp [kind]) (sound.typed cell member), ?_⟩
    intro temp isTemp
    cases isTemp
    simp [State.append, Instr.result?]

theorem Assigns.sound {globals : List Global} {state : State} {body : List Stmt}
    {code : List Instr} {temps : Nat} (sound : state.Sound globals)
    (assigns : Assigns state body code temps) : (state.append code temps).Sound globals := by
  induction assigns with
  | nil state => simpa [State.append] using sound
  | cons found stores others ih =>
    rw [← State.append_append]
    exact ih (stores.sound sound (sound.bound _ _ found))

/-- Both sides of a comparison are numbers. -/
theorem operand_number {state after : State} {e comparison : Expr} {value : Value}
    (lowered : operand state e comparison = .ok (value, after)) :
    e.typeOf state.bound.env = .ok .number ∧ after.bound = state.bound := by
  obtain ⟨code, temps, -, shape⟩ := operand_eq_ok lowered
  refine ⟨?_, by rw [shape]; rfl⟩
  obtain ⟨type, typed, rest⟩ := bind_eq_ok.mp lowered
  split at rest
  · cases rest
  · rename_i number
    rw [typed, not_not.mp number]

theorem statement_numbers {state after : State} {l r : Expr} {body : List Stmt}
    (lowered : statement state (.branch (.binary l .greater r) body) = .ok after) :
    l.typeOf state.bound.env = .ok .number ∧ r.typeOf state.bound.env = .ok .number := by
  obtain ⟨⟨left, right, compared⟩, taken, -⟩ := bind_eq_ok.mp lowered
  obtain ⟨type, -, rest⟩ := bind_eq_ok.mp taken
  split at rest
  · cases rest
  · obtain ⟨⟨leftValue, between⟩, first, rest⟩ := bind_eq_ok.mp rest
    obtain ⟨⟨rightValue, last⟩, second, -⟩ := bind_eq_ok.mp rest
    obtain ⟨leftNumber, kept⟩ := operand_number first
    have rightNumber := (operand_number second).1
    rw [kept] at rightNumber
    exact ⟨leftNumber, rightNumber⟩

/-- The comparison of a branch, with the block that it opens. -/
theorem State.Sound.opened {globals : List Global} {state : State} {l r : Expr}
    {left right : Value} {front back : List Instr} {middle temps : Nat}
    (sound : state.Sound globals) (leftNumber : l.typeOf state.bound.env = .ok .number)
    (rightNumber : r.typeOf state.bound.env = .ok .number)
    (takesLeft : Takes state l left front middle)
    (takesRight : Takes (state.append front middle) r right back temps) :
    (state.opened (front ++ back) temps left right).Sound globals := by
  obtain ⟨first, leftType, leftDefined⟩ := takesLeft.sound sound leftNumber
  obtain ⟨second, rightType, rightDefined⟩ := takesRight.sound first rightNumber
  rw [state.append_append] at second rightDefined
  have compared : (state.append (front ++ back ++ [.icmpUgt ⟨temps, .i1⟩ left right])
      (temps + 1)).Sound globals := by
    rw [← state.append_append _ _ temps]
    apply second.emit rfl
    · refine ⟨nofun, nofun, ?_⟩
      intro temp taken
      rcases List.mem_append.mp taken with isLeft | isRight
      · have before := leftDefined temp (by simpa using isLeft)
        simp only [State.append, List.filterMap_append, List.mem_append] at before ⊢
        rcases before with old | new
        · exact .inl old
        · exact .inr (.inl new)
      · exact rightDefined temp (by simpa using isRight)
    · simp [Instr.isTyped, leftType, rightType]
    · exact List.range_succ
  -- the counter of labels is no part of what makes blocks sound
  have relabelled : ({ state.append (front ++ back ++ [.icmpUgt ⟨temps, .i1⟩ left right])
      (temps + 1) with labels := state.labels + 1 } : State).Sound globals :=
    ⟨compared.reach, compared.typed, compared.bound, compared.blocks, compared.counted⟩
  apply relabelled.finish
  · intro temp isCondition
    cases isCondition
    simp [State.append, Instr.result?]
  · simp

theorem WellFormed.bound_mem {state : State} {name : String} {cell : Cell}
    (wellFormed : WellFormed state) (found : state.bound.cellOf name = .ok cell) :
    cell ∈ state.cells := by
  unfold Bindings.cellOf at found
  split at found
  · rename_i known present
    cases found
    obtain ⟨front, back, split, -⟩ := List.lookup_eq_some_iff.mp present
    have member : (name, cell) ∈ bindings state.cells := by
      rw [← wellFormed.bound, split]
      simp
    have known : cell ∈ state.cells ∧ cell.variableName = name := by
      simpa [bindings] using member
    exact known.1
  · cases found

/-- A statement leaves the blocks sound. -/
theorem statement_sound {globals : List Global} {state after : State} {s : Stmt}
    (wellFormed : WellFormed state) (sound : state.Sound globals)
    (lowered : statement state s = .ok after) : after.Sound globals := by
  have emitted := emits_of_statement lowered
  have result := wellFormed.emits emitted
  cases emitted with
  | @declare name value cell code temps new stores =>
    obtain ⟨-, -, typed⟩ := newCell_eq_ok new
    have allocated := sound.allocate wellFormed typed
    have member : cell ∈ (state.allocate cell).cells := by
      rw [state.allocate_cells]
      simp
    have stored := stores.sound allocated member
    refine ⟨stored.reach, stored.typed, ?_, stored.blocks, stored.counted⟩
    exact fun _ _ => result.bound_mem
  | evaluate found stores => exact stores.sound sound (sound.bound _ _ found)
  | branch takesLeft takesRight assigns =>
    obtain ⟨leftNumber, rightNumber⟩ := statement_numbers lowered
    have opened := sound.opened leftNumber rightNumber takesLeft takesRight
    have inner := assigns.sound opened
    exact inner.finish nofun (by simp)

end States

section Endings

variable {globals : List Global} {state : State}

/-- The address of a text, and the call that prints a number with it. -/
theorem State.Sound.printed {text : Global} (sound : state.Sound globals) (value : Temp)
    (linked : text ∈ globals) (number : value.type = .i32)
    (defined : value ∈ state.instrs.filterMap Instr.result?) :
    (state.append [.bitcast ⟨state.temps, .pointer⟩ text,
      .printf ⟨state.temps + 1, .i32⟩ ⟨state.temps, .pointer⟩ value]
      (state.temps + 2)).Sound globals := by
  have address : (state.append [.bitcast ⟨state.temps, .pointer⟩ text]
      (state.temps + 1)).Sound globals := by
    apply sound.emit rfl
    · refine ⟨?_, nofun, nofun⟩
      intro used uses
      cases uses
      exact linked
    · rfl
    · exact List.range_succ
  rw [← List.singleton_append, ← state.append_append _ _ (state.temps + 1)]
  apply address.emit rfl
  · refine ⟨nofun, nofun, ?_⟩
    intro temp taken
    simp only [Instr.temps, List.mem_cons, List.not_mem_nil, or_false] at taken
    rcases taken with rfl | rfl
    · simp [State.append, Instr.result?]
    · simp only [State.append, List.filterMap_append]
      exact List.mem_append_left _ defined
  · simp [Instr.isTyped, number]
  · exact List.range_succ

/-- A variable is printed by sound code. -/
theorem dumpCell_sound {owner : String} {cell : Cell} (sound : state.Sound globals)
    (member : cell ∈ state.cells) (linked : dumpGlobal owner cell ∈ globals) :
    ∃ code temps, dumpCell owner state cell = state.append code temps ∧
      code.filterMap Instr.alloca? = [] ∧ (state.append code temps).Sound globals := by
  have typed := sound.typed cell member
  have loaded := sound.load member
  by_cases kind : cell.kind = .boolean
  · refine ⟨_, _, dumpCell_boolean owner state kind, rfl, ?_⟩
    have widened : ((state.append [.load ⟨state.temps, cell.type⟩ cell] (state.temps + 1)).append
        [.zext ⟨state.temps + 1, .i32⟩ ⟨state.temps, cell.type⟩] (state.temps + 2)).Sound
          globals := by
      apply loaded.emit rfl
      · refine ⟨nofun, nofun, ?_⟩
        intro temp taken
        cases List.mem_singleton.mp taken
        simp [State.append, Instr.result?]
      · simp [Instr.isTyped, Ty.eq_i1 (kind ▸ typed)]
      · exact List.range_succ
    have defined : (⟨state.temps + 1, .i32⟩ : Temp) ∈
        ((state.append [.load ⟨state.temps, cell.type⟩ cell] (state.temps + 1)).append
          [.zext ⟨state.temps + 1, .i32⟩ ⟨state.temps, cell.type⟩]
          (state.temps + 2)).instrs.filterMap Instr.result? := by
      simp [State.append, Instr.result?]
    have printed := widened.printed _ linked rfl defined
    rw [State.append_append, State.append_append] at printed
    exact printed
  · refine ⟨_, _, dumpCell_number owner state kind, rfl, ?_⟩
    have defined : (⟨state.temps, cell.type⟩ : Temp) ∈ (state.append
        [.load ⟨state.temps, cell.type⟩ cell] (state.temps + 1)).instrs.filterMap
          Instr.result? := by
      simp [State.append, Instr.result?]
    have printed := loaded.printed _ linked (Ty.eq_i32_of_ne kind typed) defined
    rw [State.append_append] at printed
    exact printed

theorem Terminator.condition?_eq_none {terminator : Terminator} (leaves : terminator.targets = []) :
    terminator.condition? = none := by
  cases terminator with
  | br => cases leaves
  | condBr => cases leaves
  | ret => rfl
  | unreachable => rfl

theorem State.Sound.closed {terminator : Terminator} (sound : state.Sound globals)
    (leaves : terminator.targets = []) :
    ∀ block ∈ close state terminator, block.Sound globals state.cells := by
  intro block member
  rcases List.mem_append.mp member with finished | isLast
  · exact sound.blocks block (List.mem_append_left _ finished)
  · rw [List.mem_singleton.mp isLast]
    apply sound.here.ended
    intro temp isCondition
    rw [Terminator.condition?_eq_none leaves] at isCondition
    cases isCondition

end Endings

end DeltaLang.Ir
