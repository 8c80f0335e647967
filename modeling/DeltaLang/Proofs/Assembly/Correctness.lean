import DeltaLang.Proofs.Assembly.Reader

namespace DeltaLang.Assembly

/-- The frame of a function that is entered with `core`. -/
def Core.base (core : Core) : Word :=
  core.registers .rsp - 8

/-- Memory with the caller's frame pointer saved. -/
def Core.entered (core : Core) : Memory :=
  core.memory.write core.base 8 (core.registers .rbp).toNat

section

variable {image : Image} {line : Nat} {frame : Frame} {core : Core} {store : Store}
variable {calls : List Call}

/-- A whole register is moved as it is. -/
theorem mov_quad (core : Core) (source target : Register) :
    core.load .quad target (core.value .quad (.register source)) =
      core.set target (core.registers source) := by
  have bounded : (core.registers source).toNat < 256 ^ 8 := (core.registers source).isLt
  simp only [Core.load, Core.value, Width.bytes, Nat.mod_mod]
  rw [Nat.mod_eq_of_lt bounded, BitVec.ofNat_toNat, BitVec.setWidth_eq]

theorem prologue_reaches {name : String} (placed : image.Has line (prologue name frame)) :
    ∃ final, image.Reaches (.running (line + 1) core calls) (.running (line + 5) final calls) ∧
      Inside frame core.base core.entered final [] := by
  let pushed : Core := { core.set .rsp core.base with memory := core.entered }
  let framed := pushed.set .rbp core.base
  have top : pushed.registers .rsp = core.base := Core.set_same core .rsp core.base
  have first : image.exec? core (.push .rbp) = some pushed := rfl
  have second : image.exec? pushed (.mov .quad (.register .rsp) (.register .rbp)) =
      some framed := by
    rw [Image.exec?, mov_quad, top]
  have third : image.exec? framed (.sub frame.size .rsp) =
      some ((framed.set .rsp (core.base - BitVec.ofNat 64 frame.size)).compare core.base.toNat
        (BitVec.ofNat 64 frame.size).toNat) := by
    rw [Image.exec?, Core.set_other _ _ (by decide), top]
  have code := placed.tail.tail
  have marked : image.Reaches (.running (line + 1) core calls) (.running (line + 2) core calls) :=
    Image.reaches_label placed.tail.head
  have saved := marked.trans (Image.reaches_exec code.head first)
  have moved := saved.trans (Image.reaches_exec code.tail.head second)
  refine ⟨_, moved.trans (Image.reaches_exec code.tail.tail.head third), ?_⟩
  refine ⟨⟨?_, ?_, ⟨Nat.zero_le _, ?_⟩⟩, ?_⟩
  · simp [Core.compare, framed]
  · simp [Core.compare]
  · intro i slot v there here
    cases here
  · intro place free
    rfl

/-- The saved frame pointer and the return address are no part of a slot. -/
theorem above_not_inSlot (addressable : Addressable frame) (base : Word) {i : Nat} (near : i < 16) :
    ∀ slot ∈ frame.slots, ¬InSlot base slot (base + BitVec.ofNat 64 i) := by
  intro slot member
  have bounds := addressable.bounds member
  have turned : base - (base + BitVec.ofNat 64 i) = 0#64 - BitVec.ofNat 64 i := by bv_omega
  unfold InSlot
  rw [slot_distance_lt_iff base _ (by omega) (by omega), turned, BitVec.toNat_sub,
    BitVec.toNat_ofNat,
    Nat.mod_eq_of_lt (by omega : i < 2 ^ 64), BitVec.toNat_ofNat]
  omega

/-- What is left of a caller at the end of a body. -/
theorem caller_kept (addressable : Addressable frame) {final : Core}
    (inside : Inside frame core.base core.entered final store) :
    final.memory.read core.base 8 = (core.registers .rbp).toNat ∧
      final.memory.read (core.base + 8) 8 = core.memory.read (core.registers .rsp) 8 := by
  constructor
  · have bounded := (core.registers .rbp).isLt
    have saved : core.entered.read core.base 8 = (core.registers .rbp).toNat := by
      rw [Core.entered, Memory.read_write_same _ _ _ (by decide)]
      exact Nat.mod_eq_of_lt bounded
    rw [← saved]
    apply Memory.read_congr
    intro i below
    exact inside.outside _ (above_not_inSlot addressable core.base (by omega))
  · have top : core.base + 8 = core.registers .rsp := BitVec.sub_add_cancel ..
    rw [top]
    apply Memory.read_congr
    intro i below
    have place : core.registers .rsp + BitVec.ofNat 64 i = core.base + BitVec.ofNat 64 (8 + i) := by
      rw [BitVec.ofNat_add, ← BitVec.add_assoc, ← top]
      rfl
    have distance : (core.base + BitVec.ofNat 64 (8 + i) - core.base).toNat = 8 + i := by
      rw [BitVec.add_comm, BitVec.add_sub_cancel, BitVec.toNat_ofNat]
      omega
    have far : ¬8 + i < 8 := by omega
    rw [place, inside.outside _ (above_not_inSlot addressable core.base (by omega))]
    simp only [Core.entered, Memory.write, distance, far, ↓reduceIte]

/-- A function other than the entry function gives its caller back what it found. -/
theorem return_reaches (addressable : Addressable frame) {final : Core}
    (inside : Inside frame core.base core.entered final store)
    (placed : image.Has line [.instr .leave, .instr .ret]) :
    ∃ last, image.Reaches (.running line final calls)
        (.returned (BitVec.ofNat 64 (core.memory.read (core.registers .rsp) 8)) last calls) ∧
      last.registers .rsp = core.registers .rsp + 8 ∧
      last.registers .rbp = core.registers .rbp ∧ last.memory = final.memory := by
  obtain ⟨saved, address⟩ := caller_kept addressable inside
  have top : core.base + 8 = core.registers .rsp := BitVec.sub_add_cancel ..
  let left := (final.set .rsp (core.registers .rsp)).set .rbp (core.registers .rbp)
  have first : image.exec? final .leave = some left := by
    rw [Image.exec?, inside.rbp, saved, top, BitVec.ofNat_toNat, BitVec.setWidth_eq]
  have pointer : left.registers .rsp = core.registers .rsp := by simp [left]
  have second : image.step? (.running (line + 1) left calls) =
      some (.returned (BitVec.ofNat 64 (core.memory.read (core.registers .rsp) 8))
        (left.set .rsp (core.registers .rsp + 8)) calls) := by
    rw [top] at address
    simp only [Image.step?, placed.tail.head, pointer]
    rw [← address]
    rfl
  refine ⟨_, (Image.reaches_exec placed.head first).trans (.single second), ?_, ?_, ?_⟩
  · simp
  · simp [left]
  · rfl

theorem exit_reaches {status : Int} (undefined : image.find? "exit" = none)
    (placed : image.Has line [.instr (.mov .quad (.immediate status) (.register .rdi)),
      .instr (.call "exit")]) :
    image.Reaches (.running line core calls) (.exited (BitVec.ofInt 64 status) calls) := by
  let loaded := core.load .quad .rdi (core.value .quad (.immediate status))
  have value : loaded.registers .rdi = BitVec.ofInt 64 status := by
    apply BitVec.eq_of_toNat_eq
    simp only [loaded, Core.load, Core.value, Width.bytes, Core.set_same, BitVec.toNat_ofNat,
      BitVec.toNat_ofInt]
    omega
  have second : image.step? (.running (line + 1) loaded calls) =
      some (.exited (BitVec.ofInt 64 status) calls) := by
    simp only [Image.step?, placed.tail.head, undefined, value]
    rfl
  exact (Image.reaches_exec placed.head rfl).trans (.single second)

def dumpCall (image : Image) (owner : String) (index : Nat) (v : String × Constant) : Call :=
  ⟨"printf", image.address (Label.dump owner index).text, BitVec.ofNat 64 v.2.toNat, 0⟩

def dumpCalls (image : Image) (owner : String) (store : Store) (first : Nat) : List Call :=
  (store.zipIdx first).map fun (v, index) => dumpCall image owner index v

theorem dumpCalls_cons (image : Image) (owner : String) (v : String × Constant) (store : Store)
    (first : Nat) : dumpCalls image owner (v :: store) first =
      dumpCall image owner first v :: dumpCalls image owner store (first + 1) := rfl

/-- The code that prints the variables in slots from a place on. -/
def dumpFrom (owner : String) (slots : List Slot) (first : Nat) : List Instr :=
  ((slots.zipIdx first).map fun (slot, index) => dumpSlot owner index slot).flatten

theorem dumpFrom_cons (owner : String) (slot : Slot) (slots : List Slot) (first : Nat) :
    dumpFrom owner (slot :: slots) first =
      dumpSlot owner first slot ++ dumpFrom owner slots (first + 1) := rfl

/-- The registers of a call that prints a variable. -/
theorem dumpSlot_exec {owner : String} {index : Nat} {slot : Slot} {v : String × Constant}
    (addressable : Addressable frame) {base : Word} (framed : Framed frame base core store)
    (there : frame.slots[index]? = some slot) (here : store[index]? = some v)
    (defined : (image.find? (Label.dump owner index).text).isSome = true) :
    ∃ ready, image.execAll? core ((dumpSlot owner index slot).take 3) = some ready ∧
      Framed frame base ready store ∧
      ready.registers .rdi = image.address (Label.dump owner index).text ∧
      ready.registers .rsi = BitVec.ofNat 64 v.2.toNat ∧ ready.registers .rax = 0 := by
  obtain ⟨-, -, read⟩ := framed.holds.entry index slot v there here
  have valued := (addressable.wellFormed.stacked.below slot (List.mem_of_getElem? there)).1
  let named := core.set .rdi (image.address (Label.dump owner index).text)
  have first : image.exec? core (.lea (.dump owner index) .rdi) = some named := by
    rw [Image.exec?, if_pos defined]
  let loaded := named.set .rsi (BitVec.ofNat 64 v.2.toNat)
  have second : image.exec? named (if slot.width = 1 then .movzbl (.frame slot.offset) .rsi
      else .mov .long (.frame slot.offset) (.register .rsi)) = some loaded := by
    have address : named.address slot.offset = base - BitVec.ofNat 64 slot.offset := by
      rw [Core.address, Core.set_other _ _ (by decide), framed.rbp]
    have bounded := core.memory.read_lt (base - BitVec.ofNat 64 slot.offset) slot.width
    rw [read] at bounded
    obtain ⟨-, wide⟩ | ⟨-, wide⟩ := Slot.width_cases valued
    · rw [wide] at read bounded
      have value : named.value .long (.frame slot.offset) = v.2.toNat := by
        rw [Core.value, address]
        exact read
      rw [wide, if_neg (by decide), Image.exec?, value, Core.load_long _ _ bounded]
    · rw [wide] at read bounded
      have value : named.value .byte (.frame slot.offset) = v.2.toNat := by
        rw [Core.value, address]
        exact read
      rw [wide, if_pos rfl, Image.exec?, value, Core.load_long _ _ (by omega)]
      intro value contrary
      cases contrary
  have third : image.exec? loaded (.clear .rax) = some ((loaded.set .rax 0).compare 0 0) := rfl
  refine ⟨(loaded.set .rax 0).compare 0 0, ?_, ⟨?_, ?_, framed.holds⟩, ?_, ?_, ?_⟩
  · simp only [dumpSlot, List.take_succ_cons, List.take_zero, Image.execAll?, List.foldlM_cons,
      List.foldlM_nil, first, second, third, Option.bind_eq_bind, Option.bind_some]
    rfl
  · simpa [Core.compare, loaded, named] using framed.rbp
  · simpa [Core.compare, loaded, named] using framed.rsp
  · simp [Core.compare, loaded, named]
  · simp [Core.compare, loaded]
  · simp [Core.compare]

theorem dumpSlot_reaches (calls : List Call) {owner : String} {index : Nat} {slot : Slot}
    {v : String × Constant}
    (addressable : Addressable frame) {base : Word} (framed : Framed frame base core store)
    (there : frame.slots[index]? = some slot) (here : store[index]? = some v)
    (defined : (image.find? (Label.dump owner index).text).isSome = true)
    (undefined : image.find? "printf" = none)
    (placed : image.Has line ((dumpSlot owner index slot).map .instr)) :
    ∃ final, image.Reaches (.running line core calls)
        (.running (line + 4) final (calls ++ [dumpCall image owner index v])) ∧
      Framed frame base final store := by
  obtain ⟨ready, executed, framed, format, value, vectors⟩ :=
    dumpSlot_exec addressable framed there here defined
  have front : image.Has line (((dumpSlot owner index slot).take 3).map .instr) := placed.left
  have called : image.step? (.running (line + 3) ready calls) =
      some (.running (line + 3 + 1)
        (image.library.call (calls ++ [dumpCall image owner index v]) ready)
        (calls ++ [dumpCall image owner index v])) := by
    have here := placed.tail.tail.tail.head
    simp only [Image.step?, here, undefined, format, value, vectors]
    rfl
  refine ⟨_, (Image.reaches_execAll front executed).trans (.single called), ?_, ?_, ?_⟩
  · rw [image.library.keeps_rbp]
    exact framed.rbp
  · rw [image.library.keeps_rsp]
    exact framed.rsp
  · refine framed.holds.values fun other member k inside => ?_
    apply image.library.keeps_frame
    have bounds := addressable.bounds member
    have room : base - (base - BitVec.ofNat 64 frame.size) =
      BitVec.ofNat 64 frame.size := by bv_omega
    have place : base - BitVec.ofNat 64 other.offset + BitVec.ofNat 64 k -
        (base - BitVec.ofNat 64 frame.size) = BitVec.ofNat 64 (frame.size - other.offset + k) := by
      have bounded := base.isLt
      apply BitVec.eq_of_toNat_eq
      simp only [BitVec.toNat_sub, BitVec.toNat_add, BitVec.toNat_ofNat]
      omega
    rw [framed.rbp, framed.rsp, room, place, BitVec.toNat_ofNat, BitVec.toNat_ofNat]
    omega

/-- The variables are printed one after the other, in the order of their declarations. -/
theorem dump_reaches (calls : List Call) {owner : String} (addressable : Addressable frame)
    {base : Word} (complete : store.length = frame.slots.length)
    (undefined : image.find? "printf" = none)
    (defined : ∀ index < frame.slots.length,
      (image.find? (Label.dump owner index).text).isSome = true)
    {first : Nat} {rest : List Slot} (suffix : frame.slots.drop first = rest)
    (framed : Framed frame base core store)
    (placed : image.Has line ((dumpFrom owner rest first).map .instr)) :
    ∃ final, image.Reaches (.running line core calls)
      (.running (line + (dumpFrom owner rest first).length) final
        (calls ++ dumpCalls image owner (store.drop first) first)) := by
  induction rest generalizing first core line calls with
  | nil =>
    have none : store.drop first = [] := by
      rw [List.drop_eq_nil_iff, complete]
      exact List.drop_eq_nil_iff.mp suffix
    rw [none, dumpCalls, List.zipIdx_nil, List.map_nil, List.append_nil]
    exact ⟨core, .refl⟩
  | cons slot rest ih =>
    have there : frame.slots[first]? = some slot := by
      rw [← List.head?_drop, suffix, List.head?_cons]
    have later : frame.slots.drop (first + 1) = rest := by
      rw [← List.tail_drop, suffix, List.tail_cons]
    have inside : first < store.length := complete ▸ (List.getElem?_eq_some_iff.mp there).1
    rw [dumpFrom_cons, List.map_append] at placed
    obtain ⟨middle, printed, framed⟩ := dumpSlot_reaches calls addressable framed there
      (List.getElem?_eq_getElem inside) (defined first (by omega)) undefined placed.left
    obtain ⟨final, others⟩ :=
      ih (calls ++ [dumpCall image owner first store[first]]) later framed placed.right
    refine ⟨final, printed.trans ?_⟩
    rw [List.append_assoc, List.singleton_append, List.length_map] at others
    rw [dumpFrom_cons, List.length_append, List.drop_eq_getElem_cons inside, dumpCalls_cons,
      ← Nat.add_assoc]
    exact others

end

/-- What a function has done when it is through with its body. -/
structure Finished (frame : Frame) (start final : Core) (store : Store) : Prop
    extends Framed frame start.base final store where
  complete : store.length = frame.slots.length
  saved : final.memory.read start.base 8 = (start.registers .rbp).toNat
  unchanged : ∀ place, (∀ slot ∈ frame.slots, ¬InSlot start.base slot place) →
    8 ≤ (place - start.base).toNat → final.memory place = start.memory place

theorem Inside.finished {frame : Frame} {start final : Core} {store : Store}
    (addressable : Addressable frame)
    (inside : Inside frame start.base start.entered final store)
    (complete : store.length = frame.slots.length) : Finished frame start final store := by
  refine ⟨inside.toFramed, complete, (caller_kept addressable inside).1, fun place free far => ?_⟩
  rw [inside.outside place free]
  have missed : ¬(place - start.base).toNat < 8 := by omega
  simp only [Core.entered, Memory.write, missed, ↓reduceIte]

theorem lines_code (program : Program) : program.code <:+: program.lines :=
  (List.suffix_cons _ program.code).isInfix.trans (List.prefix_append _ _).isInfix

theorem lines_data (program : Program) : program.data <:+: program.lines := by
  unfold Program.lines
  split
  · rename_i empty
    rw [List.isEmpty_iff.mp empty]
    exact List.nil_infix
  · refine ⟨.directive ".text" :: program.code ++ [.blank, .directive ".section .rodata"], [], ?_⟩
    simp

theorem meaning_of_function {options : Options} {f : Function} {p : Program}
    (lowered : function options f = .ok p) : ∃ store, Stmt.runAll? [] f.body = some store := by
  obtain ⟨plain, frame, body, state, laid, -, -⟩ := function_eq_ok lowered
  exact run_of_follows (function_follows options plain laid) lowered

theorem body_reaches {image : Image} {f : Function} {frame : Frame} {body : List Line}
    {state : State} {store : Store} {line : Nat} {start : Core} {calls : List Call}
    (once : ((labels image.lines).map Label.text).Nodup) (addressable : Addressable frame)
    (laid : Frame.layout f.body = .ok frame)
    (emitted : statements f.name frame.slots .start f.body = .ok (body, state))
    (ran : Stmt.runAll? [] f.body = some store)
    (placed : image.Has line (prologue f.name frame ++ body)) :
    ∃ final, image.Reaches (.running (line + 1) start calls)
        (.running (line + 5 + body.length) final calls) ∧
      Inside frame start.base start.entered final store ∧ store.length = frame.slots.length := by
  obtain ⟨entered, opening, inside⟩ := prologue_reaches placed.left
  have lock : Lockstep frame.slots .start [] f.body :=
    ⟨rfl, rfl, Frame.place_names (Frame.layout_placed laid)⟩
  obtain ⟨final, reached, inside, done⟩ :=
    statements_reaches addressable once inside lock emitted ran placed.right
  refine ⟨final, opening.trans reached, inside, ?_⟩
  have short := inside.holds.length
  have used := List.drop_eq_nil_iff.mp (List.map_eq_nil_iff.mp done.names)
  omega

section

variable {options : Options} {m : Module} {program : Program}
variable (generated : generate options m = .ok program) (distinct : Distinct m.members)
variable {image : Image} (linked : image.lines = program.lines)
include generated distinct linked

theorem find?_builtin {name : String} (builtin : name ∈ builtins) : image.find? name = none := by
  apply Image.find?_eq_none
  rw [linked]
  exact builtin_not_label generated distinct builtin

/-- The text that a variable is printed with stands at the label that its code refers to. -/
theorem text?_dump {f : Function} {p : Program} {frame : Frame} {index : Nat} {slot : Slot}
    (data : p.data <:+: program.data) (shape : p.data = dumpData f.name frame.slots)
    (there : frame.slots[index]? = some slot) :
    (image.find? (Label.dump f.name index).text).isSome = true ∧
      image.text? (Label.dump f.name index).text = some (slot.name ++ " = %u\n") := by
  have dumped : p.data[index]? = some (dumpText f.name index slot) := by
    simp [shape, dumpData, List.getElem?_zipIdx, there]
  have member : dumpText f.name index slot ∈ image.lines := by
    rw [linked]
    exact (data.trans (lines_data program)).subset (List.mem_of_getElem? dumped)
  obtain ⟨line, here⟩ := List.mem_iff_getElem?.mp member
  have once := generate_labels_nodup generated distinct
  rw [← linked] at once
  have found := Image.find?_eq once here rfl
  exact ⟨by rw [found]; rfl, Image.text?_eq found here⟩

/-- The entry function prints its variables if it was asked to, and ends the program. -/
theorem entry_reaches {f : Function} {p : Program} {frame : Frame} {store : Store} {final : Core}
    {base : Word} {line : Nat} {calls : List Call} (addressable : Addressable frame)
    (framed : Framed frame base final store) (complete : store.length = frame.slots.length)
    (data : p.data <:+: program.data) (shape : p.data = texts options f frame)
    (isEntry : f.name = options.entryName) (placed : image.Has line (trailer options f frame)) :
    image.Reaches (.running line final calls) (.exited (BitVec.ofInt 64 options.exitCode)
      (calls ++ if options.dumpLocals then dumpCalls image f.name store 0 else [])) := by
  have noExit := find?_builtin generated distinct linked (show "exit" ∈ builtins by decide)
  have noPrint := find?_builtin generated distinct linked (show "printf" ∈ builtins by decide)
  rw [trailer, if_neg (not_not.mpr isEntry)] at placed
  rw [texts, if_neg (not_not.mpr isEntry)] at shape
  cases dump : options.dumpLocals with
  | false =>
    rw [dump] at placed
    simp only [Bool.false_eq_true, ↓reduceIte, List.append_nil]
    exact exit_reaches noExit placed
  | true =>
    rw [dump] at placed shape
    have defined : ∀ index < frame.slots.length,
        (image.find? (Label.dump f.name index).text).isSome = true := by
      intro index inside
      exact (text?_dump generated distinct linked data shape (List.getElem?_eq_getElem inside)).1
    obtain ⟨last, printed⟩ := dump_reaches calls addressable complete noPrint defined
      List.drop_zero framed placed.left
    have behind := placed.right
    rw [List.length_map] at behind
    exact printed.trans (exit_reaches noExit behind)

end

end DeltaLang.Assembly

namespace DeltaLang

open Assembly

/-- Generated assembly does what a function means. Its text can be loaded. Entered at its label with
any registers and any memory, a function whose frame is not larger than all memory gets through its
body with the value of every variable in the slot of its declaration, and no byte is changed outside
of the slots and the word that keeps the frame pointer of the caller. The entry function then prints
every variable in the order of the declarations, if asked to, and exits with the given code; any
other function returns to where it was called from. -/
theorem assembly_preserves_meaning {options : Options} {m : Module} {program : Program}
    (generated : Assembly.generate options m = .ok program) (distinct : Distinct m.members)
    {f : Function} (member : f ∈ m.members) (address : String → Word) (library : Library)
    (start : Core) (calls : List Call) :
    ∃ image frame store line behind, Image.load? program.text address library = some image ∧
      Frame.layout f.body = .ok frame ∧
      Stmt.runAll? [] f.body = some store ∧ image.find? f.name = some line ∧
      image.Has behind (trailer options f frame) ∧
      (frame.size < 2 ^ 64 → ∃ final,
        image.Reaches (.running line start calls) (.running behind final calls) ∧
        Finished frame start final store ∧
        if f.name = options.entryName then
          image.Reaches (.running behind final calls) (.exited (BitVec.ofInt 64 options.exitCode)
            (calls ++ if options.dumpLocals then dumpCalls image f.name store 0 else [])) ∧
          (options.dumpLocals = true → ∀ (i : Nat) (v : String × Constant), store[i]? = some v →
            image.text? (Label.dump f.name i).text = some (v.1 ++ " = %u\n"))
        else
          ∃ last, image.Reaches (.running behind final calls)
              (.returned (BitVec.ofNat 64 (start.memory.read (start.registers .rsp) 8))
                last calls) ∧
            last.registers .rsp = start.registers .rsp + 8 ∧
            last.registers .rbp = start.registers .rbp ∧ last.memory = final.memory) := by
  let image : Image := ⟨program.lines, address, library⟩
  have linked : image.lines = program.lines := rfl
  obtain ⟨p, lowered, code, data⟩ := functions_eq_ok (generate_eq_ok generated).2 member
  obtain ⟨store, ran⟩ := meaning_of_function lowered
  obtain ⟨-, frame, body, state, laid, emitted, rfl⟩ := function_eq_ok lowered
  have once := generate_labels_nodup generated distinct
  have inside := code.trans (lines_code program)
  rw [← linked] at once inside
  obtain ⟨line, placed⟩ := Image.Has.of_infix inside
  have behind := placed.right
  have label := placed.left.left.tail.head
  refine ⟨image, frame, store, line + 1, _, generate_load generated distinct address library, laid,
    ran, Image.find?_eq once label rfl, behind, fun fits => ?_⟩
  have addressable : Addressable frame := ⟨Frame.layout_wellFormed laid, fits⟩
  obtain ⟨final, reached, inside, complete⟩ :=
    body_reaches once addressable laid emitted ran placed.left
  rw [List.length_append, ← Nat.add_assoc]
  rw [List.length_append, ← Nat.add_assoc] at behind
  refine ⟨final, reached, inside.finished addressable complete, ?_⟩
  split
  · rename_i isEntry
    refine ⟨entry_reaches generated distinct linked addressable inside.toFramed complete data rfl
      isEntry behind, ?_⟩
    intro dump i v here
    have shape : texts options f frame = dumpData f.name frame.slots := by
      rw [texts, if_neg (not_not.mpr isEntry), dump, if_pos rfl]
    have bound : i < frame.slots.length := complete ▸ (List.getElem?_eq_some_iff.mp here).1
    have there := List.getElem?_eq_getElem bound
    rw [(inside.holds.entry i _ v there here).1]
    exact (text?_dump generated distinct linked data shape there).2
  · rename_i other
    rw [trailer, if_pos other] at behind
    exact return_reaches addressable inside behind

/-- A library whose calls print six characters and report that. -/
def Assembly.Library.printing : Library where
  call _ core := core.set .rax 6
  keeps_rsp _ core := core.set_other 6 (by decide)
  keeps_rbp _ core := core.set_other 6 (by decide)
  keeps_frame _ _ _ _ := rfl

theorem assembly_preserves_meaning_shadowing :
    ∃ program image line,
      Assembly.generate ⟨"", 3, true⟩ (.functions [⟨"f", [], none, []⟩, shadowing]) = .ok program ∧
      Image.load? program.text (fun _ => 4096) .printing = some image ∧
      image.find? "main" = some line ∧
      image.Reaches (.running line ⟨fun _ => 0, fun _ => 255, false, false⟩ [])
        (.exited 3 [⟨"printf", 4096, 7, 0⟩, ⟨"printf", 4096, 1, 0⟩, ⟨"printf", 4096, 1, 0⟩]) := by
  obtain ⟨program, generated⟩ : ∃ program, Assembly.generate ⟨"", 3, true⟩
      (.functions [⟨"f", [], none, []⟩, shadowing]) = .ok program := ⟨_, rfl⟩
  obtain ⟨image, frame, store, line, behind, loaded, laid, ran, found, -, runs⟩ :=
    assembly_preserves_meaning generated ⟨by decide, by decide⟩
      (List.mem_cons_of_mem _ List.mem_cons_self) (fun _ => 4096) .printing
      ⟨fun _ => 0, fun _ => 255, false, false⟩ []
  have addresses : image.address = fun _ => 4096 := by
    obtain ⟨lines, -, rfl⟩ := Option.map_eq_some_iff.mp loaded
    rfl
  cases shadowing_runs.symm.trans ran
  cases laid
  obtain ⟨final, body, -, ends⟩ := runs (by decide)
  refine ⟨program, image, line, generated, loaded, found, ?_⟩
  have ended := body.trans ends.1
  simp only [dumpCalls, dumpCall, addresses] at ended
  exact ended

end DeltaLang
