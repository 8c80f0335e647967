import DeltaLang.Proofs.Functions
import DeltaLang.Proofs.Ir.Simulation

namespace DeltaLang.Ir

/-- The cells that the entry block of a function allocates, in order. -/
def Definition.cells (definition : Definition) : List Cell :=
  match definition.blocks with
  | [] => []
  | entry :: _ => entry.instrs.filterMap Instr.alloca?

theorem close_cells (name : String) (isEntry : Bool) (state : State) (terminator : Terminator) :
    (Definition.mk name isEntry (close state terminator)).cells =
      state.entry.filterMap Instr.alloca? := by
  unfold Definition.cells close State.entry
  cases state.blocks <;> rfl

/-- A number that shows a variable, with its format. -/
def dumpCall (v : String × Constant) : Call :=
  ⟨Utf8.encode (v.1 ++ " = %u\n") ++ [0], v.2.toNat⟩

structure Shows (memory : Memory) (cell : Cell) (v : String × Constant) : Prop where
  name : cell.variableName = v.1
  kind : cell.kind = v.2.type
  stored : memory.content? cell = some v.2

theorem Shows.of_kept {memory after : Memory} {cell : Cell} {v : String × Constant}
    (shows : Shows memory cell v) (kept : after.cells = memory.cells) : Shows after cell v :=
  ⟨shows.name, shows.kind, (Memory.content?_congr (congrFun kept cell)).trans shows.stored⟩

section

variable {image : Image} {name : BlockName} {rest : List Instr} {terminator : Terminator}
variable {memory : Memory} {calls : List Call}

theorem printf_reaches {result format value : Temp} {text : Global} {word : BitVec 32} {n : Nat}
    (formatted : memory.temps format = some (.text text))
    (counted : memory.temps value = some (.scalar (.i32 word))) (number : word.toNat = n) :
    image.Reaches (.running ⟨name, .printf result format value :: rest, terminator⟩ memory calls)
      (.running ⟨name, rest, terminator⟩ memory (calls ++ [⟨text.bytes, n⟩])) := by
  refine .single ?_
  simp only [Image.step?, formatted, counted, number]

theorem dumpCell_boolean (owner : String) (state : State) {cell : Cell}
    (kind : cell.kind = .boolean) :
    dumpCell owner state cell = state.append
      [.load ⟨state.temps, cell.type⟩ cell,
        .zext ⟨state.temps + 1, .i32⟩ ⟨state.temps, cell.type⟩,
        .bitcast ⟨state.temps + 2, .pointer⟩ (dumpGlobal owner cell),
        .printf ⟨state.temps + 3, .i32⟩ ⟨state.temps + 2, .pointer⟩ ⟨state.temps + 1, .i32⟩]
      (state.temps + 4) := by
  simp [dumpCell, kind, State.load, State.define, State.emit, State.append]

theorem dumpCell_number (owner : String) (state : State) {cell : Cell}
    (kind : cell.kind ≠ .boolean) :
    dumpCell owner state cell = state.append
      [.load ⟨state.temps, cell.type⟩ cell,
        .bitcast ⟨state.temps + 1, .pointer⟩ (dumpGlobal owner cell),
        .printf ⟨state.temps + 2, .i32⟩ ⟨state.temps + 1, .pointer⟩ ⟨state.temps, cell.type⟩]
      (state.temps + 3) := by
  simp [dumpCell, kind, State.load, State.define, State.emit, State.append]

/-- A variable is printed with its name in the format, as a number. -/
theorem dumpCell_reaches (owner : String) (state : State) {cell : Cell}
    (linked : dumpGlobal owner cell ∈ image.globals) :
    ∃ code temps, dumpCell owner state cell = state.append code temps ∧
      code.filterMap Instr.alloca? = [] ∧ ∀ name rest terminator memory calls v,
        Shows memory cell v → ∃ after,
          image.Reaches (.running ⟨name, code ++ rest, terminator⟩ memory calls)
            (.running ⟨name, rest, terminator⟩ after (calls ++ [dumpCall v])) ∧
          after.cells = memory.cells := by
  have load (memory : Memory) (scalar : Scalar) (stored : memory.cells cell = some (some scalar)) :
      memory.exec? image.globals (.load ⟨state.temps, cell.type⟩ cell) =
        some (memory.setTemp ⟨state.temps, cell.type⟩ (.scalar scalar)) := by
    simp only [Memory.exec?, stored, ↓reduceIte]
  have format (memory : Memory) (temp : Temp) :
      memory.exec? image.globals (.bitcast temp (dumpGlobal owner cell)) =
        some (memory.setTemp temp (.text (dumpGlobal owner cell))) := by
    simp only [Memory.exec?, linked, ↓reduceIte]
  by_cases kind : cell.kind = .boolean
  · refine ⟨_, _, dumpCell_boolean owner state kind, rfl, ?_⟩
    rintro name rest terminator memory calls ⟨own, value⟩ ⟨rfl, typed, stored⟩
    obtain ⟨b, rfl⟩ : ∃ b, value = .boolean b := by
      cases value with
      | number => cases kind.symm.trans typed
      | boolean b => exact ⟨b, rfl⟩
    obtain ⟨scalar, inCell, shows⟩ := Memory.content?_eq_some.mp stored
    rw [Scalar.constant_eq_boolean shows] at inCell
    let read := memory.setTemp ⟨state.temps, cell.type⟩ (.scalar (.i1 (BitVec.ofBool b)))
    let wide := read.setTemp ⟨state.temps + 1, .i32⟩
      (.scalar (.i32 ((BitVec.ofBool b).setWidth 32)))
    have widened : read.exec? image.globals
          (.zext ⟨state.temps + 1, .i32⟩ ⟨state.temps, cell.type⟩) = some wide := by
      simp only [Memory.exec?, Memory.value?, read, wide, Memory.setTemp_same]
    let ready := wide.setTemp ⟨state.temps + 2, .pointer⟩ (.text (dumpGlobal owner cell))
    have counted : ready.temps ⟨state.temps + 1, .i32⟩ =
        some (.scalar (.i32 ((BitVec.ofBool b).setWidth 32))) := by
      simp [ready, wide]
    have number : ((BitVec.ofBool b).setWidth 32).toNat = (Constant.boolean b).toNat := by
      cases b <;> rfl
    refine ⟨ready, ?_, rfl⟩
    exact (((Image.reaches_exec (load _ _ inCell)).trans (Image.reaches_exec widened)).trans
      (Image.reaches_exec (format _ _))).trans
      (printf_reaches (Memory.setTemp_same ..) counted number)
  · refine ⟨_, _, dumpCell_number owner state kind, rfl, ?_⟩
    rintro name rest terminator memory calls ⟨own, value⟩ ⟨rfl, typed, stored⟩
    obtain ⟨n, rfl⟩ : ∃ n, value = .number n := by
      cases value with
      | number n => exact ⟨n, rfl⟩
      | boolean => exact (kind typed).elim
    obtain ⟨scalar, inCell, shows⟩ := Memory.content?_eq_some.mp stored
    obtain ⟨word, rfl, rfl⟩ := Scalar.constant_eq_number shows
    let ready := (memory.setTemp ⟨state.temps, cell.type⟩ (.scalar (.i32 word))).setTemp
      ⟨state.temps + 1, .pointer⟩ (.text (dumpGlobal owner cell))
    have counted : ready.temps ⟨state.temps, cell.type⟩ = some (.scalar (.i32 word)) := by
      simp [ready]
    refine ⟨ready, ?_, rfl⟩
    exact ((Image.reaches_exec (load _ _ inCell)).trans (Image.reaches_exec (format _ _))).trans
      (printf_reaches (Memory.setTemp_same ..) counted rfl)

/-- The variables are printed one after the other, in the order of their declarations. -/
theorem dump_reaches (owner : String) (state : State) {cells : List Cell}
    (linked : ∀ cell ∈ cells, dumpGlobal owner cell ∈ image.globals) :
    ∃ code temps, cells.foldl (dumpCell owner) state = state.append code temps ∧
      code.filterMap Instr.alloca? = [] ∧ ∀ name rest terminator memory calls values,
        List.Forall₂ (Shows memory) cells values → ∃ after,
          image.Reaches (.running ⟨name, code ++ rest, terminator⟩ memory calls)
            (.running ⟨name, rest, terminator⟩ after (calls ++ values.map dumpCall)) := by
  induction cells generalizing state with
  | nil =>
    refine ⟨[], state.temps, by simp [State.append], rfl, ?_⟩
    intro name rest terminator memory calls values shows
    cases shows
    rw [List.map_nil, List.append_nil]
    exact ⟨memory, .refl⟩
  | cons cell cells ih =>
    obtain ⟨front, middle, first, plainFront, prints⟩ :=
      dumpCell_reaches owner state (linked cell List.mem_cons_self)
    obtain ⟨back, temps, others, plainBack, printsRest⟩ :=
      ih (state.append front middle) fun cell later => linked cell (List.mem_cons_of_mem _ later)
    refine ⟨front ++ back, temps, ?_, ?_, ?_⟩
    · rw [List.foldl_cons, first, others, State.append_append]
    · rw [List.filterMap_append, plainFront, plainBack, List.append_nil]
    · intro name rest terminator memory calls values shows
      cases shows with
      | @cons _ v _ values shown later =>
        obtain ⟨between, printed, kept⟩ :=
          prints name (back ++ rest) terminator memory calls v shown
        obtain ⟨after, printedRest⟩ := printsRest name rest terminator between
          (calls ++ [dumpCall v]) values (later.imp fun _ _ shows => shows.of_kept kept)
        refine ⟨after, ?_⟩
        rw [List.append_assoc, List.singleton_append] at printedRest
        rw [List.append_assoc, List.map_cons]
        exact printed.trans printedRest

theorem exit_reaches {status : Int} :
    image.Reaches (.running ⟨name, .exit status :: rest, terminator⟩ memory calls)
      (.exited (BitVec.ofInt 32 status) calls) :=
  .single rfl

theorem ret_reaches :
    image.Reaches (.running ⟨name, [], .ret⟩ memory calls) (.returned memory calls) :=
  .single rfl

end

theorem Holds.shows {cells : List Cell} {memory : Memory} {store : Store}
    (holds : Holds cells memory store) : List.Forall₂ (Shows memory) cells store := by
  rw [List.forall₂_iff_get]
  refine ⟨holds.length.symm, fun i inCells inStore => ?_⟩
  obtain ⟨name, kind, stored⟩ := holds.entry i _ _ (List.getElem?_eq_getElem inCells)
    (List.getElem?_eq_getElem inStore)
  exact ⟨name, kind, stored⟩

/-- How a function ends, given that its variables are in their cells. -/
def Ends (options : Options) (f : Function) (image : Image) (here : Block) (memory : Memory)
    (calls : List Call) (store : Store) : Prop :=
  if f.name = options.entryName then
    image.Reaches (.running here memory calls) (.exited (BitVec.ofInt 32 options.exitCode)
      (calls ++ if options.dumpLocals then store.map dumpCall else []))
  else image.Reaches (.running here memory calls) (.returned memory calls)

/-- What a function has behind its body. -/
theorem finished_ends (options : Options) (f : Function) (state : State) {image : Image}
    (linked : (finished options f state).2 ⊆ image.globals) :
    ∃ code temps terminator,
      (finished options f state).1.blocks = close (state.append code temps) terminator ∧
      code.filterMap Instr.alloca? = [] ∧ ∀ memory calls store, Holds state.cells memory store →
        Ends options f image ⟨state.name, code, terminator⟩ memory calls store := by
  unfold finished at linked ⊢
  by_cases isEntry : f.name = options.entryName
  · rw [if_neg (not_not.mpr isEntry)] at linked ⊢
    have texts : ∀ cell ∈ (if options.dumpLocals then state.cells else []),
        dumpGlobal f.name cell ∈ image.globals := fun cell member =>
      linked (List.mem_map_of_mem member)
    obtain ⟨code, temps, dumped, plain, prints⟩ := dump_reaches f.name state texts
    refine ⟨code ++ [.exit options.exitCode], temps, .unreachable, ?_, ?_, ?_⟩
    · simp only [dumped]
      simp [State.emit, State.append]
    · rw [List.filterMap_append, plain]
      rfl
    · intro memory calls store holds
      rw [Ends, if_pos isEntry]
      cases dump : options.dumpLocals with
      | true =>
        rw [dump] at prints
        obtain ⟨after, printed⟩ :=
          prints state.name [.exit options.exitCode] .unreachable memory calls
          store holds.shows
        exact printed.trans exit_reaches
      | false =>
        rw [dump] at prints
        obtain ⟨after, printed⟩ :=
          prints state.name [.exit options.exitCode] .unreachable memory calls
          [] .nil
        exact printed.trans exit_reaches
  · rw [if_pos isEntry]
    refine ⟨[], state.temps, .ret, by simp [State.append], rfl, ?_⟩
    intro memory calls store holds
    rw [Ends, if_neg isEntry]
    exact ret_reaches

theorem finished_name (options : Options) (f : Function) (state : State) :
    (finished options f state).1.name = f.name := by
  unfold finished
  split <;> rfl

theorem function_eq_ok {options : Options} {f : Function} {result : Definition × List Global}
    (lowered : function options f = .ok result) :
    f.arguments = [] ∧ ∃ state, statements .start f.body = .ok state ∧
      result = finished options f state := by
  have plain : f.arguments = [] := by
    by_contra arguments
    simp [function, arguments] at lowered
  rw [function_eq options plain] at lowered
  obtain ⟨state, emitted, same⟩ := bind_eq_ok.mp lowered
  cases same
  exact ⟨plain, state, emitted, rfl⟩

/-- Every function has its definition at its own place, and its texts are in the module. -/
theorem generate_part {options : Options} {m : DeltaLang.Module} {module : Module}
    (generated : generate options m = .ok module) {i : Nat} {f : Function}
    (member : m.members[i]? = some f) :
    ∃ part, function options f = .ok part ∧ module.definitions[i]? = some part.1 ∧
      part.2 ⊆ module.globals := by
  obtain ⟨parts, lowered, rfl⟩ := generate_parts generated
  obtain ⟨bound, rfl⟩ := List.getElem?_eq_some_iff.mp member
  have inside : i < parts.length := lowered.length_eq ▸ bound
  refine ⟨parts[i], lowered.get bound inside, by simp [joined, inside], ?_⟩
  intro text inPart
  rw [joined, List.mem_append, List.mem_flatten]
  exact .inl ⟨parts[i].2, List.mem_map_of_mem (List.getElem_mem inside), inPart⟩

theorem meaning_of_function {options : Options} {f : Function} {result : Definition × List Global}
    (lowered : function options f = .ok result) : ∃ store, Stmt.runAll? [] f.body = some store := by
  obtain ⟨plain, -⟩ := function_eq_ok lowered
  exact run_of_follows (function_follows options plain) lowered

/-- From the start of a function to the end of its body. -/
theorem body_reaches {image : Image} {body : List Stmt} {state : State} {store : Store}
    {code : List Instr} {temps : Nat} {terminator : Terminator} (calls : List Call)
    (emitted : statements .start body = .ok state) (ran : Stmt.runAll? [] body = some store)
    (blocks : image.blocks = close (state.append code temps) terminator) :
    ∃ first memory, image.blocks.head? = some first ∧ first.name = .entry ∧
      image.Reaches (.running first .blank calls)
        (.running ⟨state.name, code, terminator⟩ memory calls) ∧
      Holds state.cells memory store := by
  have wellFormed := statements_wellFormed .start emitted
  have once : (image.blocks.map Block.name).Nodup := by
    rw [blocks, close, List.map_append]
    exact wellFormed.names ▸ blockNames_nodup state.labels
  have extended : Extends image.blocks state.cells state ⟨state.name, code, terminator⟩ := by
    refine ⟨[], [], (List.append_nil _).symm, rfl, ?_⟩
    rw [blocks, settled_nil]
    rfl
  obtain ⟨first, segment⟩ :=
    statements_segment .start wellFormed.numbered once emitted ran extended
  obtain ⟨new, later, -, name, shape⟩ := segment.start
  obtain ⟨memory, reached, simulates⟩ :=
    segment.runs .blank calls ⟨⟨rfl, nofun⟩, fun _ _ _ => rfl⟩
  refine ⟨first, memory, ?_, name, reached, simulates.holds⟩
  rw [shape, ← name]
  rfl

end DeltaLang.Ir

namespace DeltaLang

open Ir

/-- Generated IR does what a function means. The run of a function gets from its first block to its
last one, and has then the value of every variable in the cell of its declaration. It is not stuck
on the way, so no cell is loaded before something was stored in it. The entry function then prints
every variable in the order of the declarations, if asked to, and exits with the given code; any
other function returns. -/
theorem ir_preserves_meaning {options : Options} {m : Module} {module : Ir.Module}
    (generated : Ir.generate options m = .ok module) {i : Nat} {f : Function}
    (member : m.members[i]? = some f) (calls : List Call) :
    ∃ definition store first last rest memory, module.definitions[i]? = some definition ∧
      definition.name = f.name ∧ Stmt.runAll? [] f.body = some store ∧
      definition.blocks.head? = some first ∧ first.name = .entry ∧
      definition.blocks.getLast? = some last ∧ rest <:+ last.instrs ∧
      (Image.mk module.globals definition.blocks).Reaches (.running first .blank calls)
        (.running { last with instrs := rest } memory calls) ∧
      Holds definition.cells memory store ∧
      Ends options f ⟨module.globals, definition.blocks⟩ { last with instrs := rest } memory calls
        store := by
  obtain ⟨part, lowered, there, linked⟩ := generate_part generated member
  obtain ⟨store, ran⟩ := meaning_of_function lowered
  obtain ⟨-, state, emitted, rfl⟩ := function_eq_ok lowered
  let image : Image := ⟨module.globals, (finished options f state).1.blocks⟩
  have linked : (finished options f state).2 ⊆ image.globals := linked
  obtain ⟨code, temps, terminator, blocks, plain, ends⟩ := finished_ends options f state linked
  have ending : image.blocks = close (state.append code temps) terminator := blocks
  obtain ⟨first, memory, head, name, reached, holds⟩ := body_reaches calls emitted ran ending
  have cells : (finished options f state).1.cells = state.cells := by
    have closed := close_cells f.name true (state.append code temps) terminator
    rw [((statements_wellFormed .start emitted).append temps plain).allocas, ← blocks] at closed
    exact closed
  refine ⟨_, store, first, ⟨state.name, state.instrs ++ code, terminator⟩, code, memory, there,
    finished_name options f state, ran, head, name, ?_, List.suffix_append _ _, reached, ?_,
    ends memory calls store holds⟩
  · rw [blocks, close, List.getLast?_concat]
    rfl
  · rw [cells]
    exact holds

theorem ir_preserves_meaning_shadowing :
    ∃ module definition first,
      Ir.generate ⟨"", 3, true⟩ (.functions [⟨"f", [], none, []⟩, shadowing]) = .ok module ∧
      module.definitions[1]? = some definition ∧ definition.blocks.head? = some first ∧
      (Image.mk module.globals definition.blocks).Reaches (.running first .blank [])
        (.exited 3 [dumpCall ("a", .number 7), dumpCall ("b", .boolean true),
          dumpCall ("a", .number 1)]) := by
  obtain ⟨module, generated⟩ : ∃ module, Ir.generate ⟨"", 3, true⟩
      (.functions [⟨"f", [], none, []⟩, shadowing]) = .ok module := ⟨_, rfl⟩
  have member : (Module.functions [⟨"f", [], none, []⟩, shadowing]).members[1]? =
      some shadowing := rfl
  obtain ⟨definition, store, first, last, rest, memory, there, -, ran, head, -, -, -,
    body, -, ends⟩ :=
    ir_preserves_meaning generated member []
  cases shadowing_runs.symm.trans ran
  exact ⟨module, definition, first, generated, there, head, body.trans ends⟩

end DeltaLang
