import DeltaLang.Proofs.Ir.Acceptance
import Mathlib.Data.List.Nodup

namespace DeltaLang.Ir

def Instr.alloca? : Instr → Option Cell
  | .alloca cell => some cell
  | _ => none

/-- Adds code to the block at hand. -/
def State.append (state : State) (code : List Instr) (temps : Nat) : State :=
  { state with instrs := state.instrs ++ code, temps := temps }

theorem State.append_append (state : State) (front back : List Instr) (temps last : Nat) :
    (state.append front temps).append back last = state.append (front ++ back) last := by
  simp [append]

/-- The code that stores a value in a cell, and the number of temporaries after it. -/
inductive Stores (state : State) (target : Cell) : Expr → List Instr → Nat → Prop
  | lit {text : String} {type : Primitive} {constant : Constant} (typed : type = target.kind)
      (known : Literal.constant? text type = some constant) :
      Stores state target (.lit text type) [.store (.constant constant) target] state.temps
  | var {name : String} {source : Cell} (found : state.bound.cellOf name = .ok source)
      (typed : source.kind = target.kind) :
      Stores state target (.var name) [.load ⟨state.temps, source.type⟩ source,
        .store (.temp ⟨state.temps, source.type⟩) target] (state.temps + 1)

theorem store_eq_ok {state after : State} {value : Expr} {target : Cell}
    (lowered : store state value target = .ok after) :
    ∃ code temps, Stores state target value code temps ∧ after = state.append code temps := by
  cases value with
  | lit text type =>
    simp only [store] at lowered
    split at lowered
    · cases lowered
    · rename_i same
      obtain ⟨constant, known, shape⟩ := bind_eq_ok.mp lowered
      cases shape
      exact ⟨_, _, .lit (not_not.mp same) (Literal.constant_eq_ok.mp known), rfl⟩
  | var name =>
    obtain ⟨source, found, rest⟩ := bind_eq_ok.mp lowered
    split at rest
    · cases rest
    · rename_i same
      cases rest
      refine ⟨_, _, .var found (not_not.mp same), ?_⟩
      simp [State.emit, State.append]
  | hole => cases lowered
  | binary => cases lowered

theorem assign_eq_ok {state after : State} {e : Expr} (lowered : assign state e = .ok after) :
    ∃ name value target code temps, e = .binary (.var name) .assign value ∧
      state.bound.cellOf name = .ok target ∧ Stores state target value code temps ∧
      after = state.append code temps := by
  unfold assign at lowered
  split at lowered
  · rename_i name value
    obtain ⟨target, found, stored⟩ := bind_eq_ok.mp lowered
    obtain ⟨code, temps, stores, shape⟩ := store_eq_ok stored
    exact ⟨name, value, target, code, temps, rfl, found, stores, shape⟩
  · cases lowered

/-- The value of one side of a comparison, with the code that gets it. -/
inductive Takes (state : State) : Expr → Value → List Instr → Nat → Prop
  | lit {text : String} {type : Primitive} {constant : Constant}
      (known : Literal.constant? text type = some constant) :
      Takes state (.lit text type) (.constant constant) [] state.temps
  | var {name : String} {cell : Cell} (found : state.bound.cellOf name = .ok cell) :
      Takes state (.var name) (.temp ⟨state.temps, cell.type⟩)
        [.load ⟨state.temps, cell.type⟩ cell] (state.temps + 1)

theorem operand_eq_ok {state after : State} {e comparison : Expr} {value : Value}
    (lowered : operand state e comparison = .ok (value, after)) :
    ∃ code temps, Takes state e value code temps ∧ after = state.append code temps := by
  obtain ⟨type, -, rest⟩ := bind_eq_ok.mp lowered
  split at rest
  · cases rest
  · cases e with
    | lit text type =>
      obtain ⟨constant, known, shape⟩ := bind_eq_ok.mp rest
      cases shape
      exact ⟨_, _, .lit (Literal.constant_eq_ok.mp known), by simp [State.append]⟩
    | var name =>
      obtain ⟨cell, found, shape⟩ := bind_eq_ok.mp rest
      cases shape
      exact ⟨_, _, .var found, rfl⟩
    | hole => cases rest
    | binary => cases rest

theorem operands_eq_ok {state after : State} {condition : Expr} {left right : Value}
    (lowered : operands state condition = .ok (left, right, after)) :
    ∃ l r front middle back temps, condition = .binary l .greater r ∧
      Takes state l left front middle ∧ Takes (state.append front middle) r right back temps ∧
      after = state.append (front ++ back) temps := by
  obtain ⟨type, -, rest⟩ := bind_eq_ok.mp lowered
  split at rest
  · cases rest
  · split at rest
    · rename_i l r
      obtain ⟨⟨leftValue, between⟩, first, rest⟩ := bind_eq_ok.mp rest
      obtain ⟨⟨rightValue, last⟩, second, shape⟩ := bind_eq_ok.mp rest
      cases shape
      obtain ⟨front, middle, takesLeft, rfl⟩ := operand_eq_ok first
      obtain ⟨back, temps, takesRight, rfl⟩ := operand_eq_ok second
      exact ⟨l, r, front, middle, back, temps, rfl, takesLeft, takesRight,
        state.append_append front back middle temps⟩
    · cases rest

/-- The code of the assignments in the body of a branch. -/
inductive Assigns : State → List Stmt → List Instr → Nat → Prop
  | nil (state : State) : Assigns state [] [] state.temps
  | cons {state : State} {name : String} {value : Expr} {target : Cell} {front back : List Instr}
      {middle temps : Nat} {rest : List Stmt} (found : state.bound.cellOf name = .ok target)
      (stores : Stores state target value front middle)
      (others : Assigns (state.append front middle) rest back temps) :
      Assigns state (.evaluate (.binary (.var name) .assign value) :: rest) (front ++ back) temps

theorem branchBody_eq_ok {state after : State} {body : List Stmt}
    (lowered : branchBody state body = .ok after) :
    ∃ code temps, Assigns state body code temps ∧ after = state.append code temps := by
  induction body generalizing state with
  | nil =>
    obtain rfl : state = after := Except.ok.inj lowered
    exact ⟨[], state.temps, .nil state, by simp [State.append]⟩
  | cons s rest ih =>
    cases s with
    | evaluate e =>
      obtain ⟨between, first, later⟩ := bind_eq_ok.mp lowered
      obtain ⟨name, value, target, front, middle, rfl, found, stores, rfl⟩ := assign_eq_ok first
      obtain ⟨back, temps, others, rfl⟩ := ih later
      exact ⟨front ++ back, temps, .cons found stores others, state.append_append ..⟩
    | declare => cases lowered
    | branch => cases lowered
    | hole => cases lowered
    | flowHole => cases lowered

/-- The state in which the body of a branch is lowered, behind a comparison. -/
def State.opened (state : State) (code : List Instr) (temps : Nat) (left right : Value) : State :=
  let compared : State :=
    { state.append (code ++ [.icmpUgt ⟨temps, .i1⟩ left right]) (temps + 1) with
      labels := state.labels + 1 }
  compared.finish (.condBr ⟨temps, .i1⟩ (.thenBranch state.labels) (.endif state.labels))
    (.thenBranch state.labels)

/-- What a statement adds to a function. -/
inductive Emits (state : State) : Stmt → State → Prop
  | declare {name : String} {value : Expr} {cell : Cell} {code : List Instr} {temps : Nat}
      (new : newCell state name value = .ok cell)
      (stores : Stores (state.allocate cell) cell value code temps) :
      Emits state (.declare name value)
        { (state.allocate cell).append code temps with bound := (name, cell) :: state.bound }
  | evaluate {name : String} {value : Expr} {target : Cell} {code : List Instr} {temps : Nat}
      (found : state.bound.cellOf name = .ok target)
      (stores : Stores state target value code temps) :
      Emits state (.evaluate (.binary (.var name) .assign value)) (state.append code temps)
  | branch {l r : Expr} {left right : Value} {front back code : List Instr}
      {middle temps last : Nat} {body : List Stmt} (takesLeft : Takes state l left front middle)
      (takesRight : Takes (state.append front middle) r right back temps)
      (assigns : Assigns (state.opened (front ++ back) temps left right) body code last) :
      Emits state (.branch (.binary l .greater r) body)
        (((state.opened (front ++ back) temps left right).append code last).finish
          (.br (.endif state.labels)) (.endif state.labels))

theorem emits_of_statement {state after : State} {s : Stmt}
    (lowered : statement state s = .ok after) : Emits state s after := by
  cases s with
  | declare name value =>
    obtain ⟨cell, new, rest⟩ := bind_eq_ok.mp lowered
    obtain ⟨between, stored, shape⟩ := bind_eq_ok.mp rest
    cases shape
    obtain ⟨code, temps, stores, rfl⟩ := store_eq_ok stored
    have bound : ((state.allocate cell).append code temps).bound = state.bound :=
      allocate_bound state cell
    rw [bound]
    exact .declare new stores
  | evaluate e =>
    obtain ⟨name, value, target, code, temps, rfl, found, stores, rfl⟩ := assign_eq_ok lowered
    exact .evaluate found stores
  | branch condition body =>
    obtain ⟨⟨left, right, compared⟩, taken, rest⟩ := bind_eq_ok.mp lowered
    obtain ⟨l, r, front, middle, back, temps, rfl, takesLeft, takesRight, rfl⟩ :=
      operands_eq_ok taken
    obtain ⟨inner, ran, shape⟩ := bind_eq_ok.mp rest
    cases shape
    have opened : (({ state.append (front ++ back) temps with labels := state.labels + 1 }.define
        .i1 (.icmpUgt · left right)).2.finish (.condBr ⟨temps, .i1⟩ (.thenBranch state.labels)
          (.endif state.labels)) (.thenBranch state.labels)) =
        state.opened (front ++ back) temps left right := by
      simp [State.opened, State.define, State.emit, State.append]
    obtain ⟨code, last, assigns, rfl⟩ := branchBody_eq_ok ran
    have shape := Emits.branch takesLeft takesRight (opened ▸ assigns)
    rw [← opened] at shape
    exact shape
  | hole => cases lowered
  | flowHole => cases lowered

theorem statements_eq_ok {state after : State} {s : Stmt} {rest : List Stmt}
    (lowered : statements state (s :: rest) = .ok after) :
    ∃ between, Emits state s between ∧ statements between rest = .ok after := by
  obtain ⟨between, first, later⟩ := bind_eq_ok.mp lowered
  exact ⟨between, emits_of_statement first, later⟩

/-- The names of the blocks of a function with some branches, in order. -/
def blockNames : Nat → List BlockName
  | 0 => [.entry]
  | branches + 1 => blockNames branches ++ [.thenBranch branches, .endif branches]

theorem blockNames_lt {branches : Nat} {name : BlockName} (member : name ∈ blockNames branches) :
    (∀ index, name = .thenBranch index → index < branches) ∧
      ∀ index, name = .endif index → index < branches := by
  induction branches with
  | zero =>
    cases List.mem_singleton.mp member
    exact ⟨nofun, nofun⟩
  | succ branches ih =>
    rcases List.mem_append.mp member with before | last
    · obtain ⟨inThen, inEnd⟩ := ih before
      exact ⟨fun index same => Nat.lt_succ_of_lt (inThen index same),
        fun index same => Nat.lt_succ_of_lt (inEnd index same)⟩
    · simp only [List.mem_cons, List.not_mem_nil, or_false] at last
      rcases last with rfl | rfl
      · exact ⟨fun index same => by cases same; omega, nofun⟩
      · exact ⟨nofun, fun index same => by cases same; omega⟩

theorem blockNames_nodup (branches : Nat) : (blockNames branches).Nodup := by
  induction branches with
  | zero => exact List.nodup_singleton _
  | succ branches ih =>
    rw [blockNames, List.nodup_append]
    refine ⟨ih, by simp, ?_⟩
    rintro name before _ last rfl
    have below := blockNames_lt before
    simp only [List.mem_cons, List.not_mem_nil, or_false] at last
    rcases last with rfl | rfl
    · exact Nat.lt_irrefl _ (below.1 branches rfl)
    · exact Nat.lt_irrefl _ (below.2 branches rfl)

def State.entry (state : State) : List Instr :=
  match state.blocks with
  | [] => state.instrs
  | first :: _ => first.instrs

def bindings (cells : List Cell) : Bindings :=
  (cells.map fun cell => (cell.variableName, cell)).reverse

/-- Cells that are numbered in their order and hold what their type says. -/
def Numbered (cells : List Cell) : Prop :=
  ∀ (i : Nat) (cell : Cell), cells[i]? = some cell →
    cell.index = i ∧ Ty.ofPrimitive? cell.kind = some cell.type

def timesDeclared (cells : List Cell) (name : String) : Nat :=
  cells.countP fun cell => cell.variableName = name

structure WellFormed (state : State) : Prop where
  bound : state.bound = bindings state.cells
  numbered : Numbered state.cells
  counted : ∀ name, state.declared name = timesDeclared state.cells name
  names : state.blocks.map Block.name ++ [state.name] = blockNames state.labels
  allocas : state.entry.filterMap Instr.alloca? = state.cells

theorem WellFormed.start : WellFormed .start :=
  ⟨rfl, nofun, fun _ => rfl, rfl, rfl⟩

theorem Stores.alloca? {state : State} {target : Cell} {value : Expr} {code : List Instr}
    {temps : Nat} (stores : Stores state target value code temps) :
    code.filterMap Instr.alloca? = [] := by
  cases stores <;> rfl

theorem Takes.alloca? {state : State} {e : Expr} {value : Value} {code : List Instr} {temps : Nat}
    (takes : Takes state e value code temps) : code.filterMap Instr.alloca? = [] := by
  cases takes <;> rfl

theorem Assigns.alloca? {state : State} {body : List Stmt} {code : List Instr} {temps : Nat}
    (assigns : Assigns state body code temps) : code.filterMap Instr.alloca? = [] := by
  induction assigns with
  | nil => rfl
  | cons found stores others ih => rw [List.filterMap_append, stores.alloca?, ih, List.append_nil]

theorem newCell_eq_ok {state : State} {name : String} {value : Expr} {cell : Cell}
    (new : newCell state name value = .ok cell) :
    cell.index = state.cells.length ∧ cell.variableName = name ∧
      Ty.ofPrimitive? cell.kind = some cell.type := by
  obtain ⟨kind, -, rest⟩ := bind_eq_ok.mp new
  split at rest
  · cases rest
  · rename_i type typed
    cases rest
    exact ⟨rfl, rfl, typed⟩

namespace State

variable (state : State) (cell : Cell)

theorem allocate_cells : (state.allocate cell).cells = state.cells ++ [cell] := by
  simp only [allocate, record]
  split <;> rfl

theorem allocate_declared (name : String) : (state.allocate cell).declared name =
    state.declared name + if cell.variableName = name then 1 else 0 := by
  have counts : (state.allocate cell).names =
      (cell.variableName, state.declared cell.variableName + 1) :: state.names := by
    simp only [allocate, record]
    split <;> rfl
  rw [declared, counts]
  by_cases same : cell.variableName = name
  · simp [same]
  · have other : (name == cell.variableName) = false := by
      simpa using fun equal : name = cell.variableName => same equal.symm
    rw [List.lookup_cons, other, if_neg same]
    rfl

theorem allocate_names : (state.allocate cell).blocks.map Block.name ++
      [(state.allocate cell).name] =
    state.blocks.map Block.name ++ [state.name] := by
  simp only [allocate, record]
  split
  · rename_i empty
    simp [emit, empty]
  · rename_i entry rest shape
    simp [shape]

theorem allocate_labels : (state.allocate cell).labels = state.labels := by
  simp only [allocate, record]
  split <;> rfl

theorem allocate_entry : (state.allocate cell).entry = state.entry ++ [.alloca cell] := by
  simp only [allocate, record]
  split
  · rename_i empty
    simp [entry, emit, empty]
  · rename_i first rest shape
    simp [entry, shape]

theorem append_entry (code : List Instr) (temps : Nat) :
    (state.append code temps).entry = state.entry ++ (if state.blocks = [] then code else []) := by
  unfold entry append
  cases state.blocks <;> simp

theorem finish_entry (terminator : Terminator) (next : BlockName) :
    (state.finish terminator next).entry = state.entry := by
  unfold entry finish
  cases state.blocks <;> simp

end State

theorem Numbered.concat {cells : List Cell} {cell : Cell} (numbered : Numbered cells)
    (index : cell.index = cells.length) (typed : Ty.ofPrimitive? cell.kind = some cell.type) :
    Numbered (cells ++ [cell]) := by
  intro i found present
  rw [List.getElem?_append] at present
  split at present
  · exact numbered i found present
  · obtain ⟨bounded, same⟩ := List.getElem?_eq_some_iff.mp present
    simp only [List.length_singleton] at bounded
    rw [List.getElem_singleton] at same
    subst same
    exact ⟨by omega, typed⟩

namespace WellFormed

variable {state : State}

theorem append (wellFormed : WellFormed state) {code : List Instr} (temps : Nat)
    (plain : code.filterMap Instr.alloca? = []) : WellFormed (state.append code temps) := by
  refine ⟨wellFormed.bound, wellFormed.numbered, wellFormed.counted, wellFormed.names, ?_⟩
  rw [State.append_entry, List.filterMap_append, wellFormed.allocas]
  split
  · rw [plain, List.append_nil]
    rfl
  · rw [List.filterMap_nil, List.append_nil]
    rfl

theorem allocate (wellFormed : WellFormed state) {name : String} {value : Expr} {cell : Cell}
    (new : newCell state name value = .ok cell) :
    WellFormed { state.allocate cell with bound := (name, cell) :: state.bound } := by
  obtain ⟨index, rfl, typed⟩ := newCell_eq_ok new
  have cells := state.allocate_cells cell
  refine ⟨?_, ?_, ?_, ?_, ?_⟩
  · simp [cells, bindings, wellFormed.bound]
  · simp only [cells]
    exact wellFormed.numbered.concat index typed
  · intro name
    change (state.allocate cell).declared name = timesDeclared (state.allocate cell).cells name
    rw [State.allocate_declared, wellFormed.counted, cells]
    simp [timesDeclared]
  · simp only [State.allocate_labels]
    exact (state.allocate_names cell).trans wellFormed.names
  · change (state.allocate cell).entry.filterMap _ = (state.allocate cell).cells
    rw [State.allocate_entry, List.filterMap_append, wellFormed.allocas, cells]
    rfl

theorem emits {after : State} {s : Stmt} (wellFormed : WellFormed state)
    (emitted : Emits state s after) : WellFormed after := by
  cases emitted with
  | declare new stores => exact (wellFormed.allocate new).append _ stores.alloca?
  | evaluate found stores => exact wellFormed.append _ stores.alloca?
  | @branch l r left right front back code middle temps last body takesLeft takesRight assigns =>
    have plain : (front ++ back ++ [Instr.icmpUgt ⟨temps, .i1⟩ left right]).filterMap
        Instr.alloca? = [] := by
      rw [List.filterMap_append, List.filterMap_append, takesLeft.alloca?, takesRight.alloca?]
      rfl
    have compared := wellFormed.append (temps + 1) plain
    refine ⟨wellFormed.bound, wellFormed.numbered, wellFormed.counted, ?_, ?_⟩
    · have names := wellFormed.names
      simp only [State.opened, State.finish, State.append, List.map_append, List.map_cons,
        List.map_nil, blockNames, ← names]
      simp
    · have inner : (if (state.opened (front ++ back) temps left right).blocks = [] then code
          else []).filterMap Instr.alloca? = [] := by
        split
        · exact assigns.alloca?
        · rfl
      rw [State.finish_entry, State.append_entry, List.filterMap_append, inner, List.append_nil,
        State.opened, State.finish_entry]
      exact compared.allocas

end WellFormed

theorem statements_wellFormed {state after : State} {body : List Stmt}
    (wellFormed : WellFormed state)
    (lowered : statements state body = .ok after) : WellFormed after := by
  induction body generalizing state with
  | nil =>
    cases lowered
    exact wellFormed
  | cons s rest ih =>
    obtain ⟨between, emitted, later⟩ := statements_eq_ok lowered
    exact ih (wellFormed.emits emitted) later

/-- Finished blocks with the cells added that are still to be allocated. -/
def settled (new : List Cell) : List Block → List Block
  | [] => []
  | entry :: rest => { entry with instrs := entry.instrs ++ new.map .alloca } :: rest

theorem settled_nil (blocks : List Block) : settled [] blocks = blocks := by
  cases blocks <;> simp [settled]

theorem settled_append {blocks : List Block} (new : List Cell) (more : List Block)
    (some : blocks ≠ []) : settled new (blocks ++ more) = settled new blocks ++ more := by
  cases blocks with
  | nil => exact (some rfl).elim
  | cons => rfl

/-- A function whose lowering has come to `state` ends up with the given blocks and cells. Of the
block at hand, `here` is what will be added to it. -/
def Extends (blocks : List Block) (all : List Cell) (state : State) (here : Block) : Prop :=
  ∃ new later, all = state.cells ++ new ∧ here.name = state.name ∧
    blocks = settled new state.blocks ++
      ⟨state.name, state.instrs ++ here.instrs, here.terminator⟩ :: later

namespace Extends

variable {blocks : List Block} {all : List Cell} {state : State} {here : Block}

theorem append {code : List Instr} {temps : Nat}
    (extended : Extends blocks all (state.append code temps) here) :
    Extends blocks all state ⟨here.name, code ++ here.instrs, here.terminator⟩ := by
  obtain ⟨new, later, cells, name, shape⟩ := extended
  refine ⟨new, later, cells, name, ?_⟩
  rw [shape]
  simp [State.append]

/-- Code that is still to come in a block when the block is finished: nothing, except for the
allocations in the entry block. -/
theorem finish {terminator : Terminator} {next : BlockName}
    (extended : Extends blocks all (state.finish terminator next) here) :
    here.name = next ∧ here ∈ blocks ∧ ∃ new, all = state.cells ++ new ∧
      Extends blocks all state
        ⟨state.name, if state.blocks = [] then new.map .alloca else [], terminator⟩ := by
  obtain ⟨new, later, cells, name, shape⟩ := extended
  have opened : (⟨(state.finish terminator next).name,
      (state.finish terminator next).instrs ++ here.instrs, here.terminator⟩ : Block) = here := by
    rw [← name]
    rfl
  rw [opened] at shape
  refine ⟨name, ?_, new, cells, ?_⟩
  · rw [shape]
    simp
  · by_cases first : state.blocks = []
    · refine ⟨new, here :: later, cells, rfl, ?_⟩
      rw [shape]
      simp [State.finish, first, settled]
    · refine ⟨new, here :: later, cells, rfl, ?_⟩
      rw [shape]
      simp [State.finish, first, settled_append]

theorem opened {code : List Instr} {temps : Nat} {left right : Value}
    (extended : Extends blocks all (state.opened code temps left right) here) :
    here.name = .thenBranch state.labels ∧ here ∈ blocks ∧ ∃ new, all = state.cells ++ new ∧
      Extends blocks all state ⟨state.name, code ++ [.icmpUgt ⟨temps, .i1⟩ left right] ++
          (if state.blocks = [] then new.map .alloca else []),
        .condBr ⟨temps, .i1⟩ (.thenBranch state.labels) (.endif state.labels)⟩ := by
  obtain ⟨name, member, new, cells, begun⟩ := extended.finish
  have begun : Extends blocks all
      (state.append (code ++ [.icmpUgt ⟨temps, .i1⟩ left right]) (temps + 1))
      ⟨state.name, if state.blocks = [] then new.map .alloca else [],
        .condBr ⟨temps, .i1⟩ (.thenBranch state.labels) (.endif state.labels)⟩ := begun
  exact ⟨name, member, new, cells, begun.append⟩

theorem allocate {cell : Cell} (extended : Extends blocks all (state.allocate cell) here) :
    Extends blocks all state
      ⟨here.name, (if state.blocks = [] then [.alloca cell] else []) ++ here.instrs,
        here.terminator⟩ := by
  obtain ⟨new, later, cells, name, shape⟩ := extended
  rw [State.allocate_cells, List.append_assoc, List.singleton_append] at cells
  cases finished : state.blocks with
  | nil =>
    have same : state.allocate cell =
        { state.record cell with instrs := state.instrs ++ [.alloca cell] } := by
      simp [State.allocate, State.record, finished, State.emit]
    rw [same] at name shape
    refine ⟨cell :: new, later, cells, name, ?_⟩
    rw [shape]
    simp [finished, settled, State.record]
  | cons entry rest =>
    have same : state.allocate cell = { state.record cell with
        blocks := { entry with instrs := entry.instrs ++ [.alloca cell] } :: rest } := by
      simp [State.allocate, State.record, finished]
    rw [same] at name shape
    refine ⟨cell :: new, later, cells, name, ?_⟩
    rw [shape]
    simp [finished, settled, State.record]

end Extends

end DeltaLang.Ir
