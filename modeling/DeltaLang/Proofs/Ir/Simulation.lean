import DeltaLang.Proofs.Ir.Emission
import DeltaLang.Proofs.Ir.Machine

namespace DeltaLang.Ir

theorem Numbered.nodup {cells : List Cell} (numbered : Numbered cells) : cells.Nodup := by
  rw [List.nodup_iff_getElem?_ne_getElem?]
  intro i j before bounded same
  have present := List.getElem?_eq_getElem bounded
  rw [present] at same
  have first := (numbered i _ same).1
  have second := (numbered j _ present).1
  omega

structure Holds (cells : List Cell) (memory : Memory) (store : Store) : Prop where
  length : store.length = cells.length
  entry : ∀ (i : Nat) (cell : Cell) (v : String × Constant),
    cells[i]? = some cell → store[i]? = some v →
    cell.variableName = v.1 ∧ cell.kind = v.2.type ∧ memory.content? cell = some v.2

namespace Holds

variable {cells : List Cell} {memory : Memory} {store : Store}

theorem of_kept {after : Memory} (holds : Holds cells memory store)
    (kept : ∀ cell ∈ cells, after.cells cell = memory.cells cell) : Holds cells after store := by
  refine ⟨holds.length, fun i cell v there here => ?_⟩
  rw [Memory.content?_congr (kept cell (List.mem_of_getElem? there))]
  exact holds.entry i cell v there here

theorem names (holds : Holds cells memory store) :
    cells.map Cell.variableName = store.names :=
  Store.names_eq holds.length.symm fun i cell v there here => (holds.entry i cell v there here).1

/-- The cell of a name is that of the variable that the name stands for. -/
theorem cellOf_eq_ok (holds : Holds cells memory store) {name : String} {cell : Cell}
    (found : (bindings cells).cellOf name = .ok cell) :
    ∃ index value, store.latest? name = some index ∧ cells[index]? = some cell ∧
      store[index]? = some (name, value) ∧ cell.variableName = name ∧ cell.kind = value.type ∧
      memory.content? cell = some value := by
  unfold Bindings.cellOf at found
  split at found
  · rename_i bound present
    cases found
    obtain ⟨index, value, latest, there, here⟩ := Store.latest?_of_lookup holds.names present
    obtain ⟨own, typed, stored⟩ := holds.entry index cell _ there here
    exact ⟨index, value, latest, there, here, own, typed, stored⟩
  · cases found

/-- Storing a value in a cell changes the variable of that cell only. -/
theorem write {next : List Cell} {after : Memory} {result : Store} {i : Nat} {cell : Cell}
    {value : Constant} (holds : Holds cells memory store) (numbered : Numbered next)
    (here : next[i]? = some cell) (typed : cell.kind = value.type)
    (length : result.length = next.length) (written : result[i]? = some (cell.variableName, value))
    (sameCells : ∀ (j : Nat) (other : Cell), j ≠ i → next[j]? = some other → cells[j]? = some other)
    (sameValues : ∀ (j : Nat) (v : String × Constant), j ≠ i → result[j]? = some v →
      store[j]? = some v)
    (stored : after.content? cell = some value)
    (kept : ∀ other, other ≠ cell → after.cells other = memory.cells other) :
    Holds next after result := by
  refine ⟨length, fun j other v there present => ?_⟩
  by_cases same : j = i
  · subst same
    rw [here] at there
    rw [written] at present
    cases there
    cases present
    exact ⟨rfl, typed, stored⟩
  · have different : other ≠ cell := by
      rintro rfl
      exact same ((numbered j _ there).1.symm.trans (numbered i _ here).1)
    rw [Memory.content?_congr (kept other different)]
    exact holds.entry j other v (sameCells j other same there) (sameValues j v same present)

end Holds

theorem Value.constant_type {value : Constant} {type : Ty}
    (typed : Ty.ofPrimitive? value.type = some type) : (Value.constant value).type = type := by
  cases value with
  | number => exact Option.some.inj typed
  | boolean => exact Option.some.inj typed

/-- The value of a literal is not changed by the bits that it is put into. -/
theorem Literal.constant_kept {text : String} {type : Primitive} {value : Constant}
    (known : Literal.constant? text type = some value) :
    (Scalar.ofConstant value).constant = value := by
  apply Scalar.constant_ofConstant
  have small := Literal.constant?_lt known
  cases type with
  | number => exact small
  | boolean =>
    have byte : value.toNat < 256 := small
    omega
  | void => cases known
  | other => cases known

/-- The type of a cell fits the value in it. -/
theorem Scalar.type_of_kind {scalar : Scalar} {kind : Primitive} {type : Ty}
    (typed : Ty.ofPrimitive? kind = some type) (same : kind = scalar.constant.type) :
    scalar.type = type := by
  subst same
  cases scalar with
  | i1 => exact Option.some.inj typed
  | i32 => exact Option.some.inj typed

section

variable (image : Image) {state : State} {cells : List Cell} {memory : Memory} {store : Store}
variable (bound : state.bound = bindings cells) (holds : Holds cells memory store)
include bound holds

/-- The code of a store puts the value into the cell. -/
theorem store_exec {target : Cell} {value : Expr} {code : List Instr} {temps : Nat} {c : Constant}
    {content : Option Scalar} (typed : Ty.ofPrimitive? target.kind = some target.type)
    (allocated : memory.cells target = some content)
    (stores : Stores state target value code temps) (read : value.value? store = some c) :
    target.kind = c.type ∧ ∃ after, image.execAll? memory code = some after ∧
      after.content? target = some c ∧
      ∀ other, other ≠ target → after.cells other = memory.cells other := by
  cases stores with
  | lit same known =>
    cases (Literal.meaning?_of_constant? known).symm.trans read
    have kind := same.symm.trans (Literal.constant?_type known).symm
    have kept := Literal.constant_kept known
    have type : (Scalar.ofConstant c).type = target.type :=
      Scalar.type_of_kind typed (by rw [kept, kind])
    refine ⟨kind, memory.setCell target (some (.ofConstant c)), ?_, ?_, ?_⟩
    · simp only [Image.execAll?, List.foldlM_cons, List.foldlM_nil, Memory.exec?, Memory.value?,
        allocated, type, ↓reduceIte]
      rfl
    · exact Memory.content?_eq_some.mpr ⟨_, memory.setCell_same .., kept⟩
    · intro other different
      exact memory.setCell_other _ different
  | @var name source found same =>
    rw [bound] at found
    obtain ⟨index, value, latest, there, here, -, kind, stored⟩ := holds.cellOf_eq_ok found
    have equal : value = c := by
      simpa [Expr.value?, Store.value?, latest, here] using read
    subst equal
    obtain ⟨scalar, inCell, rfl⟩ := Memory.content?_eq_some.mp stored
    have type : scalar.type = target.type := by
      apply Scalar.type_of_kind typed
      rw [← same, kind]
    let loaded := memory.setTemp ⟨state.temps, source.type⟩ (.scalar scalar)
    have first : memory.exec? image.globals (.load ⟨state.temps, source.type⟩ source) =
        some loaded := by
      simp only [Memory.exec?, inCell, ↓reduceIte, loaded]
    have second : loaded.exec? image.globals (.store (.temp ⟨state.temps, source.type⟩) target) =
        some (loaded.setCell target (some scalar)) := by
      simp only [Memory.exec?, Memory.value?, loaded, Memory.setTemp_same, Memory.setTemp_cells,
        allocated, type, ↓reduceIte]
    refine ⟨same.symm.trans kind, loaded.setCell target (some scalar), ?_, ?_, ?_⟩
    · simp only [Image.execAll?, List.foldlM_cons, List.foldlM_nil, first, second,
        Option.bind_eq_bind, Option.bind_some]
      rfl
    · exact Memory.content?_eq_some.mpr ⟨_, loaded.setCell_same .., rfl⟩
    · intro other different
      exact loaded.setCell_other _ different

/-- An assignment changes the variable that its name stands for, and no other cell. -/
theorem assign_exec {name : String} {value : Expr} {target : Cell} {code : List Instr} {temps : Nat}
    {next : Store} (numbered : Numbered cells) (found : state.bound.cellOf name = .ok target)
    (stores : Stores state target value code temps)
    (ran : Stmt.run? store (.evaluate (.binary (.var name) .assign value)) = some next) :
    ∃ after, image.execAll? memory code = some after ∧ Holds cells after next ∧
      ∀ other, other ∉ cells → after.cells other = memory.cells other := by
  obtain ⟨name', value', c, index, shape, read, latest, rfl⟩ := Stmt.run?_evaluate ran
  cases shape
  rw [bound] at found
  obtain ⟨place, old, latest', there, here, rfl, -, stored⟩ := holds.cellOf_eq_ok found
  rw [latest] at latest'
  cases latest'
  have typed := (numbered index target there).2
  obtain ⟨scalar, allocated, -⟩ := Memory.content?_eq_some.mp stored
  obtain ⟨kind, after, executed, written, kept⟩ :=
    store_exec image bound holds typed allocated stores read
  have inside := (List.getElem?_eq_some_iff.mp here).1
  refine ⟨after, executed, ?_, ?_⟩
  · refine holds.write numbered there kind ?_ ?_ (fun j other _ there => there) ?_ written kept
    · rw [List.length_set, holds.length]
    · rw [List.getElem?_set_self inside]
    · intro j v different present
      rwa [List.getElem?_set_ne different.symm] at present
  · intro other outside
    refine kept other ?_
    rintro rfl
    exact outside (List.mem_of_getElem? there)

/-- One side of a comparison is defined with the value of its expression. -/
theorem takes_exec {e : Expr} {value : Value} {code : List Instr} {temps n : Nat}
    (takes : Takes state e value code temps) (read : e.value? store = some (.number n)) :
    ∃ after word, image.execAll? memory code = some after ∧ after.cells = memory.cells ∧
      after.value? value = some (.i32 word) ∧ word.toNat = n ∧
      ∀ temp : Temp, temp.index ≠ state.temps → after.temps temp = memory.temps temp := by
  cases takes with
  | lit known =>
    cases (Literal.meaning?_of_constant? known).symm.trans read
    obtain ⟨word, shape, number⟩ := Scalar.constant_eq_number (Literal.constant_kept known)
    exact ⟨memory, word, rfl, rfl, congrArg some shape, number, fun _ _ => rfl⟩
  | @var name cell found =>
    rw [bound] at found
    obtain ⟨index, value, latest, -, here, -, -, stored⟩ := holds.cellOf_eq_ok found
    have equal : value = .number n := by
      simpa [Expr.value?, Store.value?, latest, here] using read
    subst equal
    obtain ⟨scalar, inCell, shows⟩ := Memory.content?_eq_some.mp stored
    obtain ⟨word, rfl, number⟩ := Scalar.constant_eq_number shows
    refine ⟨memory.setTemp ⟨state.temps, cell.type⟩ (.scalar (.i32 word)), word, ?_, rfl, ?_,
      number, ?_⟩
    · simp only [Image.execAll?, List.foldlM_cons, List.foldlM_nil, Memory.exec?, inCell,
        ↓reduceIte]
      rfl
    · simp only [Memory.value?, Memory.setTemp_same]
    · intro temp different
      refine memory.setTemp_other _ ?_
      rintro rfl
      exact different rfl

end

theorem Takes.temp_lt {state : State} {e : Expr} {value : Value} {code : List Instr} {temps : Nat}
    (takes : Takes state e value code temps) {temp : Temp} (isTemp : value = .temp temp) :
    temp.index < temps := by
  cases takes with
  | lit => cases isTemp
  | var =>
    cases isTemp
    exact Nat.lt_succ_self _

theorem assigns_exec (image : Image) {state : State} {cells : List Cell} {memory : Memory}
    {store next : Store} {body : List Stmt} {code : List Instr} {temps : Nat}
    (numbered : Numbered cells) (bound : state.bound = bindings cells)
    (holds : Holds cells memory store) (assigns : Assigns state body code temps)
    (ran : Stmt.runAll? store body = some next) :
    ∃ after, image.execAll? memory code = some after ∧ Holds cells after next ∧
      ∀ other, other ∉ cells → after.cells other = memory.cells other := by
  induction assigns generalizing memory store with
  | nil =>
    rw [Stmt.runAll?] at ran
    cases ran
    exact ⟨memory, rfl, holds, fun _ _ => rfl⟩
  | cons found stores others ih =>
    rw [Stmt.runAll?] at ran
    obtain ⟨between, head, tail⟩ := Option.bind_eq_some_iff.mp ran
    obtain ⟨middle, first, holds, keptFirst⟩ :=
      assign_exec image bound holds numbered found stores head
    obtain ⟨after, rest, holds, keptRest⟩ := ih bound holds tail
    refine ⟨after, ?_, holds, fun other outside => ?_⟩
    · rw [Image.execAll?_append, first, Option.bind_some, rest]
    · rw [keptRest other outside, keptFirst other outside]

/-- A comparison defines whether its condition holds. -/
theorem comparison_exec (image : Image) {state : State} {cells : List Cell} {memory : Memory}
    {store : Store} {l r : Expr} {left right : Value} {front back : List Instr} {middle temps : Nat}
    {b : Bool} (bound : state.bound = bindings cells)
    (holds : Holds cells memory store) (takesLeft : Takes state l left front middle)
    (takesRight : Takes (state.append front middle) r right back temps)
    (decided : (Expr.binary l .greater r).holds? store = some b) :
    ∃ after, image.execAll? memory (front ++ back ++ [.icmpUgt ⟨temps, .i1⟩ left right]) =
        some after ∧ after.cells = memory.cells ∧
      after.temps ⟨temps, .i1⟩ = some (.scalar (.i1 (BitVec.ofBool b))) := by
  obtain ⟨m, n, leftRead, rightRead, rfl⟩ := Expr.holds?_greater decided
  obtain ⟨between, leftWord, first, sameCells, leftValue, rfl, -⟩ :=
    takes_exec image bound holds takesLeft leftRead
  have holds : Holds cells between store :=
    holds.of_kept fun cell _ => congrFun sameCells cell
  have bound : (state.append front middle).bound = bindings cells := bound
  obtain ⟨ready, rightWord, second, sameCells', rightValue, rfl, kept⟩ :=
    takes_exec image bound holds takesRight rightRead
  have leftKept : ready.value? left = some (.i32 leftWord) := by
    cases left with
    | constant => exact leftValue
    | temp temp =>
      have below := takesLeft.temp_lt rfl
      rw [← leftValue]
      simp only [Memory.value?]
      rw [kept temp (Nat.ne_of_lt below)]
  refine ⟨ready.setTemp ⟨temps, .i1⟩ (.scalar (.i1 (BitVec.ofBool (rightWord.ult leftWord)))),
    ?_, ?_, ?_⟩
  · rw [Image.execAll?_append, Image.execAll?_append, first, Option.bind_some, second,
      Option.bind_some]
    simp only [Image.execAll?, List.foldlM_cons, List.foldlM_nil, Memory.exec?, leftKept,
      rightValue]
    rfl
  · rw [Memory.setTemp_cells, sameCells', sameCells]
  · exact ready.setTemp_same ..

/-- The allocations at the end of the entry block. -/
theorem allocas_exec (image : Image) {new : List Cell} {memory : Memory} (distinct : new.Nodup)
    (free : ∀ cell ∈ new, memory.cells cell = none) :
    ∃ after, image.execAll? memory (new.map .alloca) = some after ∧
      (∀ cell ∈ new, after.cells cell = some none) ∧
      (∀ cell, cell ∉ new → after.cells cell = memory.cells cell) ∧ after.temps = memory.temps := by
  induction new generalizing memory with
  | nil => exact ⟨memory, rfl, by simp, fun _ _ => rfl, rfl⟩
  | cons first rest ih =>
    obtain ⟨notLater, distinct⟩ := List.nodup_cons.mp distinct
    have step : memory.exec? image.globals (.alloca first) = some (memory.setCell first none) := by
      simp only [Memory.exec?, free first List.mem_cons_self]
    have stillFree : ∀ cell ∈ rest, (memory.setCell first none).cells cell = none := by
      intro cell member
      have different : cell ≠ first := by
        rintro rfl
        exact notLater member
      rw [Memory.setCell_other _ _ different]
      exact free cell (List.mem_cons_of_mem _ member)
    obtain ⟨after, executed, allocated, kept, temps⟩ := ih distinct stillFree
    refine ⟨after, ?_, ?_, ?_, temps⟩
    · rw [List.map_cons, Image.execAll?, List.foldlM_cons, step]
      exact executed
    · intro cell member
      rcases List.mem_cons.mp member with rfl | later
      · rw [kept cell notLater, Memory.setCell_same]
      · exact allocated cell later
    · intro cell outside
      rw [List.mem_cons, not_or] at outside
      rw [kept cell outside.2, Memory.setCell_other _ _ outside.1]

/-- Memory at a point of the lowering. Of the cells that are still to be declared, none is allocated
in the entry block, and all are behind it. -/
structure Simulates (all : List Cell) (state : State) (memory : Memory) (store : Store) : Prop where
  holds : Holds state.cells memory store
  fresh : ∀ cell ∈ all, cell ∉ state.cells →
    memory.cells cell = if state.blocks = [] then none else some none

/-- A run from one point of the lowering to another, which does what the variables show. -/
structure Segment (image : Image) (all : List Cell) (state : State) (store : Store) (here : Block)
    (after : State) (next : Store) (there : Block) : Prop where
  start : Extends image.blocks all state here
  runs : ∀ memory calls, Simulates all state memory store → ∃ final,
    image.Reaches (.running here memory calls) (.running there final calls) ∧
      Simulates all after final next

theorem Segment.trans {image : Image} {all : List Cell} {first second third : State}
    {before between after : Store} {here middle there : Block}
    (front : Segment image all first before here second between middle)
    (back : Segment image all second between middle third after there) :
    Segment image all first before here third after there := by
  refine ⟨front.start, fun memory calls simulates => ?_⟩
  obtain ⟨halfway, reached, simulates⟩ := front.runs memory calls simulates
  obtain ⟨final, ended, simulates⟩ := back.runs halfway calls simulates
  exact ⟨final, reached.trans ended, simulates⟩

theorem State.allocate_blocks (state : State) (cell : Cell) :
    (state.allocate cell).blocks = [] ↔ state.blocks = [] := by
  simp only [allocate, record]
  split
  · rename_i empty
    simp [emit, empty]
  · rename_i entry rest shape
    simp [shape]

/-- The new cell is there to be stored in, wherever it was allocated. -/
theorem allocated_exec (image : Image) {all : List Cell} {state : State} {memory : Memory}
    {store : Store} {cell : Cell} (simulates : Simulates all state memory store)
    (member : cell ∈ all) (new : cell ∉ state.cells) :
    ∃ ready, image.execAll? memory (if state.blocks = [] then [.alloca cell] else []) =
        some ready ∧ ready.cells cell = some none ∧
      ∀ other, other ≠ cell → ready.cells other = memory.cells other := by
  have content := simulates.fresh cell member new
  split
  · rename_i first
    rw [if_pos first] at content
    refine ⟨memory.setCell cell none, ?_, memory.setCell_same .., ?_⟩
    · simp only [Image.execAll?, List.foldlM_cons, List.foldlM_nil, Memory.exec?, content]
      rfl
    · intro other different
      exact memory.setCell_other _ different
  · rename_i later
    rw [if_neg later] at content
    exact ⟨memory, rfl, content, fun _ _ => rfl⟩

theorem declare_segment {image : Image} {all : List Cell} {state : State} {store next : Store}
    {name : String} {value : Expr} {cell : Cell} {code : List Instr} {temps : Nat} {there : Block}
    (wellFormed : WellFormed state) (new : newCell state name value = .ok cell)
    (stores : Stores (state.allocate cell) cell value code temps)
    (ran : Stmt.run? store (.declare name value) = some next)
    (extended : Extends image.blocks all ((state.allocate cell).append code temps) there) :
    ∃ here, Segment image all state store here
      { (state.allocate cell).append code temps with bound := (name, cell) :: state.bound }
      next there := by
  rw [Stmt.run?] at ran
  obtain ⟨c, read, rfl⟩ := Option.map_eq_some_iff.mp ran
  obtain ⟨index, rfl, typed⟩ := newCell_eq_ok new
  have cells := state.allocate_cells cell
  have numbered := (wellFormed.allocate new).numbered
  simp only [cells] at numbered
  have notOld : cell ∉ state.cells := by
    intro old
    obtain ⟨i, present⟩ := List.mem_iff_getElem?.mp old
    have same := (wellFormed.numbered i cell present).1
    have inside := (List.getElem?_eq_some_iff.mp present).1
    omega
  have member : cell ∈ all := by
    obtain ⟨later, -, shape, -⟩ := extended.append
    rw [shape, cells]
    simp
  refine ⟨_, extended.append.allocate, fun memory calls simulates => ?_⟩
  obtain ⟨ready, first, empty, kept⟩ := allocated_exec image simulates member notOld
  have held : Holds state.cells ready store := simulates.holds.of_kept fun other old =>
    kept other (by rintro rfl; exact notOld old)
  have bound : (state.allocate cell).bound = bindings state.cells :=
    (allocate_bound state cell).trans wellFormed.bound
  obtain ⟨kind, final, second, stored, keptLater⟩ :=
    store_exec image bound held typed empty stores read
  refine ⟨final, (Image.reaches_execAll first).trans (Image.reaches_execAll second), ?_, ?_⟩
  · change Holds (state.allocate cell).cells final _
    rw [cells]
    have length := held.length
    have here : (state.cells ++ [cell])[state.cells.length]? = some cell := by simp
    refine held.write numbered here kind ?_ ?_ ?_ ?_ stored keptLater
    · simp only [Store.declare, List.length_append, List.length_singleton, length]
    · simp [Store.declare, ← length]
    · intro j other different present
      have inside := (List.getElem?_eq_some_iff.mp present).1
      simp only [List.length_append, List.length_singleton] at inside
      rwa [List.getElem?_append_left (by omega)] at present
    · intro j v different present
      have inside := (List.getElem?_eq_some_iff.mp present).1
      simp only [Store.declare, List.length_append, List.length_singleton] at inside
      rwa [Store.declare, List.getElem?_append_left (by omega)] at present
  · intro other inAll outside
    change other ∉ (state.allocate cell).cells at outside
    rw [cells, List.mem_append, List.mem_singleton, not_or] at outside
    change final.cells other = if (state.allocate cell).blocks = [] then none else some none
    rw [keptLater other outside.2, kept other outside.2, simulates.fresh other inAll outside.1]
    simp only [State.allocate_blocks]

theorem evaluate_segment {image : Image} {all : List Cell} {state : State} {store next : Store}
    {name : String} {value : Expr} {target : Cell} {code : List Instr} {temps : Nat} {there : Block}
    (wellFormed : WellFormed state) (found : state.bound.cellOf name = .ok target)
    (stores : Stores state target value code temps)
    (ran : Stmt.run? store (.evaluate (.binary (.var name) .assign value)) = some next)
    (extended : Extends image.blocks all (state.append code temps) there) :
    ∃ here, Segment image all state store here (state.append code temps) next there := by
  refine ⟨_, extended.append, fun memory calls simulates => ?_⟩
  obtain ⟨final, executed, holds, kept⟩ :=
    assign_exec image wellFormed.bound simulates.holds wellFormed.numbered found stores ran
  refine ⟨final, Image.reaches_execAll executed, holds, fun cell inAll outside => ?_⟩
  rw [kept cell outside]
  exact simulates.fresh cell inAll outside

/-- Behind the comparison of a branch every cell is allocated, in the entry block by what the later
declarations have added to it. -/
theorem comparison_reaches {image : Image} {all new : List Cell} {state : State} {store : Store}
    {l r : Expr} {left right : Value} {front back : List Instr} {middle temps : Nat} {b : Bool}
    {memory : Memory} {calls : List Call} {target : Block} (wellFormed : WellFormed state)
    (numbered : Numbered all) (cells : all = state.cells ++ new)
    (takesLeft : Takes state l left front middle)
    (takesRight : Takes (state.append front middle) r right back temps)
    (decided : (Expr.binary l .greater r).holds? store = some b)
    (simulates : Simulates all state memory store)
    (found : image.find? (if b then .thenBranch state.labels else .endif state.labels) =
      some target) :
    ∃ final, image.Reaches (.running ⟨state.name,
          front ++ back ++ [.icmpUgt ⟨temps, .i1⟩ left right] ++
            (if state.blocks = [] then new.map .alloca else []),
          .condBr ⟨temps, .i1⟩ (.thenBranch state.labels) (.endif state.labels)⟩ memory calls)
        (.running target final calls) ∧
      Holds state.cells final store ∧
      ∀ cell ∈ all, cell ∉ state.cells → final.cells cell = some none := by
  obtain ⟨compared, executed, sameCells, condition⟩ := comparison_exec image wellFormed.bound
    simulates.holds takesLeft takesRight decided
  have distinct := numbered.nodup
  rw [cells, List.nodup_append] at distinct
  have notOld : ∀ cell ∈ new, cell ∉ state.cells := fun cell later old =>
    distinct.2.2 cell old cell later rfl
  have held : Holds state.cells compared store :=
    simulates.holds.of_kept fun cell _ => congrFun sameCells cell
  by_cases first : state.blocks = []
  · have free : ∀ cell ∈ new, compared.cells cell = none := by
      intro cell later
      have inAll : cell ∈ all := cells ▸ List.mem_append_right _ later
      rw [sameCells, simulates.fresh cell inAll (notOld cell later), if_pos first]
    obtain ⟨final, allocas, allocated, kept, temps⟩ := allocas_exec image distinct.2.1 free
    rw [if_pos first]
    refine ⟨final, ?_, ?_, ?_⟩
    · have condition := condition
      rw [← temps] at condition
      exact ((Image.reaches_execAll executed).trans (Image.reaches_end allocas)).trans
        (Image.reaches_condBr condition found)
    · exact held.of_kept fun cell old => kept cell fun later => notOld cell later old
    · intro cell inAll outside
      rw [cells, List.mem_append] at inAll
      exact allocated cell (inAll.resolve_left outside)
  · rw [if_neg first, List.append_nil]
    refine ⟨compared, ?_, held, ?_⟩
    · exact (Image.reaches_end executed).trans (Image.reaches_condBr condition found)
    · intro cell inAll outside
      rw [sameCells, simulates.fresh cell inAll outside, if_neg first]

theorem branch_segment {image : Image} {all : List Cell} {state : State} {store next : Store}
    {l r : Expr} {left right : Value} {front back code : List Instr} {middle temps last : Nat}
    {body : List Stmt} {there : Block} (wellFormed : WellFormed state) (numbered : Numbered all)
    (once : (image.blocks.map Block.name).Nodup) (takesLeft : Takes state l left front middle)
    (takesRight : Takes (state.append front middle) r right back temps)
    (assigns : Assigns (state.opened (front ++ back) temps left right) body code last)
    (ran : Stmt.run? store (.branch (.binary l .greater r) body) = some next)
    (extended : Extends image.blocks all
      (((state.opened (front ++ back) temps left right).append code last).finish
        (.br (.endif state.labels)) (.endif state.labels)) there) :
    ∃ here, Segment image all state store here
      (((state.opened (front ++ back) temps left right).append code last).finish
        (.br (.endif state.labels)) (.endif state.labels)) next there := by
  rw [Stmt.run?] at ran
  obtain ⟨b, decided, chosen⟩ := Option.bind_eq_some_iff.mp ran
  obtain ⟨ended, endMember, _, _, inner⟩ := extended.finish
  have finished : ((state.opened (front ++ back) temps left right).append code last).blocks
      ≠ [] := by
    simp [State.opened, State.finish, State.append]
  rw [if_neg finished] at inner
  obtain ⟨-, thenMember, new, cells, begun⟩ := inner.append.opened
  have endFound := Image.find?_eq once endMember
  have thenFound := Image.find?_eq once thenMember
  rw [ended] at endFound
  refine ⟨_, begun, fun memory calls simulates => ?_⟩
  cases b with
  | true =>
    obtain ⟨between, compared, held, allocated⟩ := comparison_reaches wellFormed numbered cells
      takesLeft takesRight decided simulates thenFound
    have bound : (state.opened (front ++ back) temps left right).bound = bindings state.cells :=
      wellFormed.bound
    obtain ⟨final, executed, held, kept⟩ :=
      assigns_exec image wellFormed.numbered bound held assigns chosen
    refine ⟨final, (compared.trans (Image.reaches_execAll executed)).trans
      (Image.reaches_br endFound), held, fun cell inAll outside => ?_⟩
    rw [kept cell outside, allocated cell inAll outside]
    simp [State.finish]
  | false =>
    cases chosen
    obtain ⟨final, compared, held, allocated⟩ := comparison_reaches wellFormed numbered cells
      takesLeft takesRight decided simulates endFound
    refine ⟨final, compared, held, fun cell inAll outside => ?_⟩
    rw [allocated cell inAll outside]
    simp [State.finish]

theorem statement_segment {image : Image} {all : List Cell} {state after : State}
    {store next : Store} {s : Stmt} {there : Block} (wellFormed : WellFormed state)
    (numbered : Numbered all) (once : (image.blocks.map Block.name).Nodup)
    (emitted : Emits state s after) (ran : Stmt.run? store s = some next)
    (extended : Extends image.blocks all after there) :
    ∃ here, Segment image all state store here after next there := by
  cases emitted with
  | declare new stores => exact declare_segment wellFormed new stores ran extended
  | evaluate found stores => exact evaluate_segment wellFormed found stores ran extended
  | branch takesLeft takesRight assigns =>
    exact branch_segment wellFormed numbered once takesLeft takesRight assigns ran extended

/-- The blocks of a body do what the body means. -/
theorem statements_segment {image : Image} {all : List Cell} {state after : State}
    {store next : Store} {body : List Stmt} {there : Block} (wellFormed : WellFormed state)
    (numbered : Numbered all) (once : (image.blocks.map Block.name).Nodup)
    (lowered : statements state body = .ok after) (ran : Stmt.runAll? store body = some next)
    (extended : Extends image.blocks all after there) :
    ∃ here, Segment image all state store here after next there := by
  induction body generalizing state store with
  | nil =>
    rw [Stmt.runAll?] at ran
    cases ran
    cases lowered
    exact ⟨there, extended, fun memory calls simulates => ⟨memory, .refl, simulates⟩⟩
  | cons s rest ih =>
    obtain ⟨between, emitted, later⟩ := statements_eq_ok lowered
    rw [Stmt.runAll?] at ran
    obtain ⟨middle, head, tail⟩ := Option.bind_eq_some_iff.mp ran
    obtain ⟨halfway, back⟩ := ih (wellFormed.emits emitted) later tail
    obtain ⟨here, front⟩ :=
      statement_segment wellFormed numbered once emitted head back.start
    exact ⟨here, front.trans back⟩

end DeltaLang.Ir
