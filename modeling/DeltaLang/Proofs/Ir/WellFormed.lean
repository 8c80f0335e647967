import DeltaLang.Proofs.Functions
import DeltaLang.Proofs.Ir.Sound

namespace DeltaLang.Ir

namespace Definition

def temps (d : Definition) : List Temp :=
  d.blocks.flatMap fun block => block.instrs.filterMap Instr.result?

/-- The names that a definition gives: to its cells, and to its blocks. -/
def names (d : Definition) : List String :=
  (d.blocks.flatMap fun block => block.instrs.filterMap Instr.alloca?).map Cell.name ++
    d.blocks.map fun block => block.name.text

/-- No name is given twice or could be taken for a number. The first block is the entry block, and
no branch leads there; every branch leads to some block, and only the last block has none. -/
structure WellFormed (globals : List Global) (d : Definition) : Prop where
  distinct : d.names.Nodup
  named : ∀ name ∈ d.names, name.toList.all Char.isDigit = false
  entry : ∃ first, d.blocks.head? = some first ∧ first.name = .entry
  targets : ∀ block ∈ d.blocks, ∀ target ∈ block.terminator.targets,
    target ≠ .entry ∧ target ∈ d.blocks.map Block.name
  leaves : ∀ block ∈ d.blocks, block.terminator.targets = [] ↔ d.blocks.getLast? = some block
  sound : ∀ block ∈ d.blocks, block.Sound globals d.cells
  once : d.temps.Nodup

end Definition

section Branches

/-- Where the finished blocks of a function with some branches lead, in order. -/
def edges : Nat → List (List BlockName)
  | 0 => []
  | branches + 1 =>
    edges branches ++ [[.thenBranch branches, .endif branches], [.endif branches]]

theorem edges_mem {branches : Nat} {targets : List BlockName} (member : targets ∈ edges branches) :
    targets ≠ [] ∧ ∀ target ∈ targets, target ≠ .entry ∧ target ∈ blockNames branches := by
  induction branches with
  | zero => cases member
  | succ branches ih =>
    rcases List.mem_append.mp member with before | last
    · obtain ⟨filled, inside⟩ := ih before
      refine ⟨filled, ?_⟩
      intro target isTarget
      obtain ⟨notEntry, known⟩ := inside target isTarget
      exact ⟨notEntry, List.mem_append_left _ known⟩
    · simp only [List.mem_cons, List.not_mem_nil, or_false] at last
      rcases last with rfl | rfl
      · simp [blockNames]
      · simp [blockNames]

def State.targets (state : State) : List (List BlockName) :=
  state.blocks.map fun block => block.terminator.targets

theorem State.allocate_targets (state : State) (cell : Cell) :
    (state.allocate cell).targets = state.targets := by
  simp only [allocate, record, targets]
  split
  · rename_i empty
    simp [emit, empty]
  · rename_i entry rest shape
    simp [shape]

theorem Emits.targets {state after : State} {s : Stmt} (emitted : Emits state s after)
    (before : state.targets = edges state.labels) : after.targets = edges after.labels := by
  cases emitted with
  | @declare name value cell code temps new stores =>
    change (state.allocate cell).targets = edges (state.allocate cell).labels
    rw [state.allocate_targets, state.allocate_labels, before]
  | evaluate => exact before
  | branch =>
    change _ = edges (state.labels + 1)
    rw [edges, ← before]
    simp [State.targets, State.opened, State.finish, State.append, Terminator.targets]

end Branches

section Declarations

theorem newCell_name {state : State} {name : String} {value : Expr} {cell : Cell}
    (wellFormed : Ir.WellFormed state) (new : newCell state name value = .ok cell) :
    cell.name = suffixed name (timesDeclared state.cells name) := by
  obtain ⟨kind, -, rest⟩ := bind_eq_ok.mp new
  split at rest
  · cases rest
  · cases rest
    exact wellFormed.cellName_eq name

/-- Cells are added by declarations only. -/
theorem Emits.cells {state after : State} {s : Stmt} (emitted : Emits state s after) :
    after.cells = state.cells ∨ ∃ name value cell, s = .declare name value ∧
      newCell state name value = .ok cell ∧ after.cells = state.cells ++ [cell] := by
  cases emitted with
  | @declare name value cell code temps new stores =>
    exact .inr ⟨name, value, cell, rfl, new, state.allocate_cells cell⟩
  | evaluate => exact .inl rfl
  | branch => exact .inl rfl

/-- A function under construction that can become a definition with proper names. -/
structure State.Shaped (globals : List Global) (state : State) : Prop where
  wellFormed : Ir.WellFormed state
  sound : state.Sound globals
  suffixed : Suffixed state.cells
  identifiers : ∀ cell ∈ state.cells, isIdentifier cell.variableName = true
  targets : state.targets = edges state.labels

theorem State.Shaped.start (globals : List Global) : State.start.Shaped globals := by
  refine ⟨.start, .start, ?_, nofun, rfl⟩
  intro front cell back split
  simp [State.start] at split

theorem statement_shaped {globals : List Global} {state after : State} {s : Stmt}
    (shaped : state.Shaped globals)
    (named : ∀ name value, s = .declare name value → isIdentifier name = true)
    (lowered : statement state s = .ok after) : after.Shaped globals := by
  have emitted := emits_of_statement lowered
  have wellFormed := shaped.wellFormed.emits emitted
  have sound := statement_sound shaped.wellFormed shaped.sound lowered
  have targets := emitted.targets shaped.targets
  obtain same | ⟨name, value, cell, rfl, new, more⟩ := emitted.cells
  · exact ⟨wellFormed, sound, same ▸ shaped.suffixed, same ▸ shaped.identifiers, targets⟩
  · obtain ⟨-, rfl, -⟩ := newCell_eq_ok new
    refine ⟨wellFormed, sound, ?_, ?_, targets⟩
    · rw [more]
      exact shaped.suffixed.concat (newCell_name shaped.wellFormed new)
    · intro other member
      rw [more] at member
      rcases List.mem_append.mp member with old | isNew
      · exact shaped.identifiers other old
      · rw [List.mem_singleton.mp isNew]
        exact named cell.variableName value rfl

theorem statements_shaped {globals : List Global} {state after : State} {body : List Stmt}
    (shaped : state.Shaped globals)
    (named : ∀ name value, .declare name value ∈ body → isIdentifier name = true)
    (lowered : statements state body = .ok after) : after.Shaped globals := by
  induction body generalizing state with
  | nil =>
    cases lowered
    exact shaped
  | cons s rest ih =>
    obtain ⟨between, first, later⟩ := bind_eq_ok.mp lowered
    have head : ∀ name value, s = .declare name value → isIdentifier name = true := by
      rintro name value rfl
      exact named name value List.mem_cons_self
    apply ih (statement_shaped shaped head first)
    · intro name value member
      exact named name value (List.mem_cons_of_mem _ member)
    · exact later

end Declarations

section Results

variable {globals : List Global} {state : State}

theorem State.Shaped.append {code : List Instr} {temps : Nat} (shaped : state.Shaped globals)
    (plain : code.filterMap Instr.alloca? = []) (sound : (state.append code temps).Sound globals) :
    (state.append code temps).Shaped globals :=
  ⟨shaped.wellFormed.append temps plain, sound, shaped.suffixed, shaped.identifiers,
    shaped.targets⟩

/-- The variables are printed by sound code, one after the other. -/
theorem dump_shaped {owner : String} {cells : List Cell} (shaped : state.Shaped globals)
    (members : ∀ cell ∈ cells, cell ∈ state.cells)
    (linked : ∀ cell ∈ cells, dumpGlobal owner cell ∈ globals) :
    (cells.foldl (dumpCell owner) state).Shaped globals := by
  induction cells generalizing state with
  | nil => exact shaped
  | cons cell rest ih =>
    obtain ⟨code, temps, first, plain, sound⟩ := dumpCell_sound shaped.sound
      (members cell List.mem_cons_self) (linked cell List.mem_cons_self)
    rw [List.foldl_cons, first]
    apply ih (shaped.append plain sound)
    · intro other later
      exact members other (List.mem_cons_of_mem _ later)
    · intro other later
      exact linked other (List.mem_cons_of_mem _ later)

theorem close_definition_cells (shaped : state.Shaped globals) (name : String) (isEntry : Bool)
    (terminator : Terminator) :
    (Definition.mk name isEntry (close state terminator)).cells = state.cells := by
  rw [close_cells]
  exact shaped.wellFormed.allocas

/-- The names of a definition are those of the cells and those of the blocks, in their order. -/
theorem close_definition_names (shaped : state.Shaped globals) (name : String) (isEntry : Bool)
    {terminator : Terminator} (leaves : terminator.targets = []) :
    (Definition.mk name isEntry (close state terminator)).names =
      state.cells.map Cell.name ++ (blockNames state.labels).map BlockName.text := by
  obtain ⟨first, rest, shape, -, later⟩ := shaped.wellFormed.close_eq_cons terminator
  have cells := close_definition_cells shaped name isEntry terminator
  -- no block but the first one allocates, so its cells are all there are
  have others : rest.flatMap (fun block => block.instrs.filterMap Instr.alloca?) = [] := by
    rw [List.flatMap_eq_nil_iff]
    intro block member
    have sound := shaped.sound.closed leaves block (by simp [shape, member])
    exact sound.allocas (later block member)
  have names := shaped.wellFormed.close_names terminator
  rw [← names, List.map_map, Definition.names]
  congr 2
  rw [shape] at cells ⊢
  rw [List.flatMap_cons, others, List.append_nil]
  exact cells

theorem State.Shaped.names_nodup (shaped : state.Shaped globals) :
    (state.cells.map Cell.name ++ (blockNames state.labels).map BlockName.text).Nodup := by
  have blocks : ((blockNames state.labels).map BlockName.text).Nodup :=
    (blockNames_nodup state.labels).map fun _ _ same => BlockName.text_inj same
  rw [List.nodup_append]
  refine ⟨shaped.suffixed.nodup shaped.identifiers, blocks, ?_⟩
  intro name isCell other isBlock same
  obtain ⟨cell, member, rfl⟩ := List.mem_map.mp isCell
  obtain ⟨block, -, rfl⟩ := List.mem_map.mp isBlock
  obtain ⟨count, named⟩ := shaped.suffixed.mem member
  rw [named] at same
  exact block.text_ne_suffixed count (shaped.identifiers cell member) same

theorem State.Shaped.names_not_digits (shaped : state.Shaped globals) :
    ∀ name ∈ state.cells.map Cell.name ++ (blockNames state.labels).map BlockName.text,
      name.toList.all Char.isDigit = false := by
  intro name member
  rcases List.mem_append.mp member with isCell | isBlock
  · obtain ⟨cell, inCells, rfl⟩ := List.mem_map.mp isCell
    obtain ⟨count, named⟩ := shaped.suffixed.mem inCells
    rw [named]
    exact suffixed_not_digits count (shaped.identifiers cell inCells)
  · obtain ⟨block, -, rfl⟩ := List.mem_map.mp isBlock
    exact block.text_not_digits

/-- A finished block branches to blocks of the definition, and never to the entry block. -/
theorem State.Shaped.branches (shaped : state.Shaped globals) {block : Block}
    (finished : block ∈ state.blocks) :
    block.terminator.targets ≠ [] ∧ ∀ target ∈ block.terminator.targets,
      target ≠ .entry ∧ target ∈ blockNames state.labels := by
  apply edges_mem
  rw [← shaped.targets]
  exact List.mem_map_of_mem finished

/-- Closing the last block of a function gives a well-formed definition. -/
theorem close_wellFormed (shaped : state.Shaped globals) (name : String) (isEntry : Bool)
    {terminator : Terminator} (leaves : terminator.targets = []) :
    (Definition.mk name isEntry (close state terminator)).WellFormed globals := by
  have names := close_definition_names shaped name isEntry leaves
  have blocks := shaped.wellFormed.close_names terminator
  refine ⟨?_, ?_, ?_, ?_, ?_, ?_, ?_⟩
  · rw [names]
    exact shaped.names_nodup
  · rw [names]
    exact shaped.names_not_digits
  · obtain ⟨first, rest, shape, isFirst, -⟩ := shaped.wellFormed.close_eq_cons terminator
    refine ⟨first, ?_, isFirst⟩
    change (close state terminator).head? = some first
    rw [shape]
    rfl
  · intro block member target isTarget
    change target ≠ .entry ∧ target ∈ (close state terminator).map Block.name
    rw [blocks]
    rcases List.mem_append.mp member with finished | isLast
    · exact (shaped.branches finished).2 target isTarget
    · rw [List.mem_singleton.mp isLast, leaves] at isTarget
      cases isTarget
  · intro block member
    change _ ↔ (close state terminator).getLast? = some block
    rw [close, List.getLast?_concat, Option.some.injEq]
    rcases List.mem_append.mp member with finished | isLast
    · have branches := (shaped.branches finished).1
      constructor
      · intro contrary
        exact absurd contrary branches
      · rintro rfl
        exact leaves
    · rw [List.mem_singleton.mp isLast]
      exact ⟨fun _ => rfl, fun _ => leaves⟩
  · rw [close_definition_cells shaped]
    exact shaped.sound.closed leaves
  · have counted := shaped.sound.counted
    have distinct : (List.range state.temps).Nodup := List.nodup_range
    rw [← counted] at distinct
    have temps := List.Nodup.of_map _ distinct
    simpa [Definition.temps, close] using temps

theorem finished_wellFormed {options : Options} {f : Function} (shaped : state.Shaped globals)
    (linked : (finished options f state).2 ⊆ globals) :
    (finished options f state).1.WellFormed globals := by
  unfold finished at linked ⊢
  by_cases other : f.name ≠ options.entryName
  · rw [if_pos other]
    exact close_wellFormed shaped f.name false rfl
  · rw [if_neg other] at linked ⊢
    have dumped : ((if options.dumpLocals then state.cells else []).foldl (dumpCell f.name)
        state).Shaped globals := by
      apply dump_shaped shaped
      · intro cell member
        split at member
        · exact member
        · cases member
      · intro cell member
        exact linked (List.mem_map_of_mem member)
    have ended := dumped.sound.emit (i := .exit options.exitCode) rfl ⟨nofun, nofun, nofun⟩ rfl
      (List.append_nil _).symm
    exact close_wellFormed (dumped.append rfl ended) f.name true rfl

end Results

end DeltaLang.Ir

namespace DeltaLang

open Ir

/-- Every generated definition is well formed, with the globals of the generated module. That a
block has one terminator is part of what a block is. -/
theorem ir_wellFormed {options : Options} {m : Module} {module : Ir.Module}
    (generated : Ir.generate options m = .ok module)
    (named : ∀ f ∈ m.members, ∀ name value, .declare name value ∈ f.body →
      isIdentifier name = true) :
    ∀ definition ∈ module.definitions, definition.WellFormed module.globals := by
  obtain ⟨parts, lowered, rfl⟩ := generate_parts generated
  intro definition member
  obtain ⟨part, inside, rfl⟩ := List.mem_map.mp member
  obtain ⟨f, isMember, found⟩ := forall₂_exists_left lowered inside
  obtain ⟨-, state, emitted, rfl⟩ := function_eq_ok found
  have shaped := statements_shaped (.start (joined m.members parts).globals) (named f isMember)
    emitted
  apply finished_wellFormed shaped
  intro text dumped
  have inParts : text ∈ (parts.map Prod.snd).flatten :=
    List.mem_flatten.mpr ⟨_, List.mem_map_of_mem inside, dumped⟩
  exact List.mem_append_left _ inParts

/-- Variables that are called like blocks, one of them declared twice. -/
def lookalikes : Function :=
  ⟨"main", [], none, [.declare "bb" (.lit "7" .number), .declare "entry" (.lit "true" .boolean),
    .declare "bb" (.var "bb"), .branch (.binary (.var "bb") .greater (.lit "3" .number))
      [.evaluate (.assignTo "bb" (.lit "1" .number))], .declare "then" (.var "entry")]⟩

theorem ir_wellFormed_lookalikes :
    ∃ module definition, Ir.generate ⟨"", 3, true⟩ (.functions [lookalikes]) = .ok module ∧
      module.definitions = [definition] ∧
      definition.names = ["bb", "entry", "bb.1", "then", "bb.entry", "bb.then.0", "bb.endif.0"] ∧
      definition.WellFormed module.globals := by
  obtain ⟨module, generated⟩ : ∃ module, Ir.generate ⟨"", 3, true⟩ (.functions [lookalikes]) =
    .ok module := ⟨_, rfl⟩
  have named : ∀ f ∈ [lookalikes], ∀ name value, .declare name value ∈ f.body →
      isIdentifier name = true := by
    intro f member name value declared
    rw [List.mem_singleton.mp member] at declared
    simp only [lookalikes, List.mem_cons, Stmt.declare.injEq, reduceCtorEq, List.not_mem_nil,
      false_or, or_false] at declared
    rcases declared with ⟨rfl, -⟩ | ⟨rfl, -⟩ | ⟨rfl, -⟩ | ⟨rfl, -⟩ <;> decide
  have wellFormed := ir_wellFormed generated named
  cases generated
  exact ⟨_, _, rfl, rfl, by decide, wellFormed _ List.mem_cons_self⟩

end DeltaLang
