import DeltaLang.Proofs.Assembly.Correctness
import DeltaLang.Proofs.Functions

namespace DeltaLang

namespace Assembly

section Splitting

variable {line : Line} {front back before after : List Line}

theorem split_behind (absent : line ∉ front) (split : front ++ back = before ++ line :: after) :
    ∃ between, before = front ++ between ∧ back = between ++ line :: after := by
  rcases List.append_eq_append_iff.mp split with ⟨between, inBefore, inBack⟩ | ⟨between, rfl, shape⟩
  · exact ⟨between, inBefore, inBack⟩
  · cases between with
    | nil => exact ⟨[], by simp, shape.symm⟩
    | cons first between =>
      cases shape
      simp at absent

def Line.reference? : Line → Option Label
  | .instr (.jbe target) => some target
  | .instr (.lea name _) => some name
  | _ => none

theorem not_mem_of_plain {label : Label} (uses : line.reference? = some label)
    (plain : ∀ other ∈ front, other.reference? = none) : line ∉ front := by
  intro member
  rw [plain line member] at uses
  cases uses

theorem moves_plain {code : List Instr} (moves : ∀ i ∈ code, i.IsMove) :
    ∀ line ∈ code.map Line.instr, line.reference? = none := by
  intro line member
  obtain ⟨i, inCode, rfl⟩ := List.mem_map.mp member
  have move := moves i inCode
  cases i with
  | mov => rfl
  | _ => exact move.elim

end Splitting

section Jumps

variable {owner : String} {slots : List Slot} {state : State} {front : List Stmt} {condition : Expr}
  {inner : List Stmt} {before after : List Line} {target : Label}

/-- The lines around the jump of a branch. Before it stand the lines of what comes in front of the
branch and the comparison; after it the lines of the body of the branch, and then the target. -/
def Skips (owner : String) (slots : List Slot) (state : State) (front : List Stmt)
    (condition : Expr) (inner : List Stmt) (before : List Line) (target : Label)
    (after : List Line) : Prop :=
  ∃ lines between left right code rest,
    statements owner slots state front = .ok (lines, between) ∧
    operands between.bound condition = .ok (left, right) ∧
    branchBody between.bound inner = .ok code ∧
    before = lines ++ [.instr (.mov .long left (.register .rax)), .instr (.cmpl right .rax)] ∧
    after = code.map .instr ++ .label target :: rest

theorem Skips.append (skips : Skips owner slots state front condition inner before target after)
    (behind : List Line) :
    Skips owner slots state front condition inner before target (after ++ behind) := by
  obtain ⟨lines, between, left, right, code, rest, emitted, compared, lowered, rfl, rfl⟩ := skips
  refine ⟨lines, between, left, right, code, rest ++ behind, emitted, compared, lowered, rfl, ?_⟩
  rw [List.append_assoc, List.cons_append]

theorem Skips.cons {s : Stmt} {first : List Line} {next : State}
    (head : statement owner slots state s = .ok (first, next))
    (skips : Skips owner slots next front condition inner before target after) :
    Skips owner slots state (s :: front) condition inner (first ++ before) target after := by
  obtain ⟨lines, between, left, right, code, rest, emitted, compared, lowered, rfl, rfl⟩ := skips
  have whole : statements owner slots state (s :: front) = .ok (first ++ lines, between) :=
    bind_eq_ok.mpr ⟨_, head, bind_eq_ok.mpr ⟨_, emitted, rfl⟩⟩
  refine ⟨first ++ lines, between, left, right, code, rest, whole, compared, lowered, ?_, rfl⟩
  rw [List.append_assoc]

theorem skips_nil {left right : Operand} {code : List Instr}
    (compared : operands state.bound condition = .ok (left, right))
    (lowered : branchBody state.bound inner = .ok code) (target : Label) (rest : List Line) :
    Skips owner slots state [] condition inner
      [.instr (.mov .long left (.register .rax)), .instr (.cmpl right .rax)] target
      (code.map .instr ++ .label target :: rest) :=
  ⟨[], state, left, right, code, rest, rfl, compared, lowered, rfl, rfl⟩

theorem branchLines_append (label : Label) (left right : Operand) (code : List Instr)
    (others : List Line) :
    branchLines label left right code ++ others =
      [.instr (.mov .long left (.register .rax)), .instr (.cmpl right .rax)] ++
        .instr (.jbe label) :: (code.map .instr ++ .label label :: others) := by
  simp [branchLines]

/-- The label of a branch that comes behind some statements. -/
theorem label_cons {s : Stmt} {first : List Line} {next : State}
    (emitted : Emits owner slots state s first next) (front : List Stmt) :
    Label.endif owner (next.labels + branches front) =
      .endif owner (state.labels + branches (s :: front)) := by
  rw [branches_cons, ← Nat.add_assoc, emitted.labels_eq.1]

/-- Every branch has its jump. -/
theorem statements_branch {back : List Stmt} {lines : List Line} {last : State}
    (emitted : statements owner slots state (front ++ .branch condition inner :: back) =
      .ok (lines, last)) :
    ∃ before target after, lines = before ++ .instr (.jbe target) :: after ∧
      target = .endif owner (state.labels + branches front) ∧
      Skips owner slots state front condition inner before target after := by
  induction front generalizing state lines with
  | nil =>
    obtain ⟨first, between, others, head, -, rfl⟩ := statements_eq_ok emitted
    cases head with
    | branch compared lowered =>
      exact ⟨_, _, _, branchLines_append .., rfl, skips_nil compared lowered _ others⟩
  | cons s front ih =>
    obtain ⟨⟨first, next⟩, head, tail⟩ := bind_eq_ok.mp emitted
    obtain ⟨⟨others, last⟩, later, same⟩ := bind_eq_ok.mp tail
    cases same
    obtain ⟨before, target, after, rfl, rfl, skips⟩ := ih later
    refine ⟨first ++ before, _, after, ?_, label_cons (emits_of_statement head) front,
      skips.cons head⟩
    rw [List.append_assoc]

/-- A jump among the lines of a statement and what follows them is that of a branch, or it stands
behind these lines. -/
theorem Emits.jump {s : Stmt} {lines others : List Line} {next : State}
    (emitted : Emits owner slots state s lines next)
    (split : lines ++ others = before ++ .instr (.jbe target) :: after) :
    (∃ condition inner, s = .branch condition inner ∧ target = .endif owner state.labels ∧
      Skips owner slots state [] condition inner before target after) ∨
    ∃ between, before = lines ++ between ∧ others = between ++ .instr (.jbe target) :: after := by
  cases emitted with
  | declare there stored =>
    exact .inr (split_behind (not_mem_of_plain rfl (moves_plain (store_moves stored))) split)
  | evaluate assigned =>
    exact .inr (split_behind (not_mem_of_plain rfl (moves_plain (assign_moves assigned))) split)
  | @branch condition inner left right code compared lowered =>
    rw [branchLines_append] at split
    obtain ⟨between, rfl, tail⟩ := split_behind (by simp) split
    cases between with
    | nil =>
      cases tail
      exact .inl ⟨condition, inner, rfl, rfl, skips_nil compared lowered _ others⟩
    | cons first between =>
      obtain ⟨rfl, inBody⟩ := List.cons.inj tail
      have body : Line.instr (.jbe target) ∉
          code.map .instr ++ [.label (.endif owner state.labels)] := by
        rw [List.mem_append, not_or]
        exact ⟨not_mem_of_plain rfl (moves_plain (branchBody_moves lowered)), by simp⟩
      rw [List.append_cons] at inBody
      obtain ⟨later, rfl, inOthers⟩ := split_behind body inBody
      refine .inr ⟨later, ?_, inOthers⟩
      simp [branchLines]

/-- Every jump is that of a branch. -/
theorem statements_jump {body : List Stmt} {lines behind : List Line} {last : State}
    (emitted : statements owner slots state body = .ok (lines, last))
    (absent : .instr (.jbe target) ∉ behind)
    (split : lines ++ behind = before ++ .instr (.jbe target) :: after) :
    ∃ front condition inner back, body = front ++ .branch condition inner :: back ∧
      target = .endif owner (state.labels + branches front) ∧
      Skips owner slots state front condition inner before target after := by
  induction body generalizing state lines before with
  | nil =>
    cases emitted
    rw [List.nil_append] at split
    simp [split] at absent
  | cons s rest ih =>
    obtain ⟨⟨first, next⟩, head, tail⟩ := bind_eq_ok.mp emitted
    obtain ⟨⟨others, last⟩, later, same⟩ := bind_eq_ok.mp tail
    cases same
    have step := emits_of_statement head
    rw [List.append_assoc] at split
    rcases step.jump split with ⟨condition, inner, rfl, rfl, skips⟩ | ⟨between, rfl, inOthers⟩
    · exact ⟨[], condition, inner, rest, rfl, rfl, skips⟩
    · obtain ⟨front, condition, inner, back, rfl, rfl, skips⟩ := ih later inOthers
      exact ⟨s :: front, condition, inner, back, rfl, label_cons step front, skips.cons head⟩

end Jumps

section Addresses

variable {owner : String} {before after : List Line} {label : Label} {target : Register}

theorem statements_no_address {slots : List Slot} {state last : State} {body : List Stmt}
    {lines : List Line} (emitted : statements owner slots state body = .ok (lines, last)) :
    .instr (.lea label target) ∉ lines := by
  intro member
  cases statements_bodyLine emitted _ member with
  | move move => exact move.elim

theorem dumpSlot_shape (owner : String) (index : Nat) (slot : Slot) :
    ∃ others, (dumpSlot owner index slot).map Line.instr =
        .instr (.lea (.dump owner index) .rdi) :: others ∧
      ∀ line ∈ others, line.reference? = none := by
  refine ⟨_, rfl, ?_⟩
  split <;> simp [Line.reference?]

/-- Addresses are taken where a variable is printed, of the text with the number of its slot. -/
theorem dumpFrom_address {slots : List Slot} {first : Nat} {behind : List Line}
    (absent : .instr (.lea label target) ∉ behind)
    (split : (dumpFrom owner slots first).map Line.instr ++ behind =
      before ++ .instr (.lea label target) :: after) :
    ∃ index slot rest, slots[index]? = some slot ∧ label = .dump owner (first + index) ∧
      .instr (.lea label target) :: after =
        (dumpSlot owner (first + index) slot).map Line.instr ++ rest := by
  induction slots generalizing first before with
  | nil =>
    have inBehind : behind = before ++ .instr (.lea label target) :: after := split
    simp [inBehind] at absent
  | cons slot slots ih =>
    obtain ⟨others, printed, plain⟩ := dumpSlot_shape owner first slot
    rw [dumpFrom_cons, List.map_append, List.append_assoc, printed, List.cons_append] at split
    cases before with
    | nil =>
      cases split
      refine ⟨0, slot, (dumpFrom owner slots (first + 1)).map .instr ++ behind, rfl, rfl, ?_⟩
      change _ = (dumpSlot owner first slot).map Line.instr ++ _
      rw [printed, List.cons_append]
    | cons line before =>
      obtain ⟨-, inRest⟩ := List.cons.inj split
      obtain ⟨between, -, inOthers⟩ := split_behind (not_mem_of_plain rfl plain) inRest
      obtain ⟨index, found, rest, here, named, shape⟩ := ih inOthers
      rw [Nat.add_assoc, Nat.add_comm 1] at named shape
      exact ⟨index + 1, found, rest, here, named, shape⟩

theorem trailer_address {options : Options} {f : Function} {frame : Frame}
    (split : trailer options f frame = before ++ .instr (.lea label target) :: after) :
    ∃ index slot rest, frame.slots[index]? = some slot ∧ label = .dump f.name index ∧
      .instr (.lea label target) :: after = (dumpSlot f.name index slot).map Line.instr ++ rest ∧
      .string label (slot.name ++ " = %u\n") ∈ texts options f frame := by
  by_cases entry : f.name = options.entryName
  · rw [trailer, if_neg (not_not.mpr entry)] at split
    have code :
        (dumpFrom f.name (if options.dumpLocals then frame.slots else []) 0).map Line.instr ++ _ =
          before ++ .instr (.lea label target) :: after := split
    obtain ⟨index, slot, rest, here, rfl, shape⟩ := dumpFrom_address (by simp) code
    have inFrame : frame.slots[index]? = some slot := by
      split at here
      · exact here
      · cases here
    rw [Nat.zero_add] at shape ⊢
    refine ⟨index, slot, rest, inFrame, rfl, shape, ?_⟩
    rw [texts, if_neg (not_not.mpr entry), dumpData, List.mem_map]
    exact ⟨(slot, index), List.mk_mem_zipIdx_iff_getElem?.mpr here, rfl⟩
  · have member : Line.instr (.lea label target) ∈ trailer options f frame := by simp [split]
    rw [trailer, if_pos entry] at member
    simp at member

end Addresses

/-- How the lines of a function use labels. Its branches are numbered in their order and each has
one jump, to its own label, with its body in between; there are no other jumps. The address that
prints a variable is that of a text with the name of the variable. -/
structure References (f : Function) (frame : Frame) (p : Program) : Prop where
  code : labels p.code = .function f.name :: (List.range (branches f.body)).map (.endif f.name)
  data : ∃ count, labels p.data = (List.range count).map (.dump f.name)
  branch : ∀ front condition inner back, f.body = front ++ .branch condition inner :: back →
    ∃ before target after,
      p.code = prologue f.name frame ++ before ++ .instr (.jbe target) :: after ∧
      target = .endif f.name (branches front) ∧
      Skips f.name frame.slots .start front condition inner before target after
  jump : ∀ before target after, p.code = before ++ .instr (.jbe target) :: after →
    ∃ front condition inner back lines, f.body = front ++ .branch condition inner :: back ∧
      target = .endif f.name (branches front) ∧ before = prologue f.name frame ++ lines ∧
      Skips f.name frame.slots .start front condition inner lines target after
  address : ∀ before label target after, p.code = before ++ .instr (.lea label target) :: after →
    ∃ index slot rest, frame.slots[index]? = some slot ∧ label = .dump f.name index ∧
      .instr (.lea label target) :: after = (dumpSlot f.name index slot).map Line.instr ++ rest ∧
      .string label (slot.name ++ " = %u\n") ∈ p.data

theorem prologue_plain (name : String) (frame : Frame) :
    ∀ line ∈ prologue name frame, line.reference? = none := by
  simp [prologue, Line.reference?]

theorem jump_not_mem_trailer (options : Options) (f : Function) (frame : Frame) (target : Label) :
    .instr (.jbe target) ∉ trailer options f frame := by
  have printing (slots : List Slot) : Instr.jbe target ∉ dumpCode f.name slots := by
    intro member
    obtain ⟨part, inParts, inPart⟩ := List.mem_flatten.mp member
    obtain ⟨⟨slot, index⟩, -, rfl⟩ := List.mem_map.mp inParts
    simp only [dumpSlot] at inPart
    split at inPart <;> simp at inPart
  unfold trailer
  split
  · simp
  · simpa using printing _

theorem function_references {options : Options} {f : Function} {p : Program}
    (lowered : function options f = .ok p) :
    ∃ frame, Frame.layout f.body = .ok frame ∧ References f frame p := by
  have code := function_code_labels lowered
  have data := function_data_labels lowered
  obtain ⟨-, frame, body, state, laid, emitted, rfl⟩ := function_eq_ok lowered
  have start (n : Nat) : State.start.labels + n = n := Nat.zero_add n
  refine ⟨frame, laid, code, data, ?_, ?_, ?_⟩
  · intro front condition inner back shape
    rw [shape] at emitted
    obtain ⟨before, target, after, rfl, named, skips⟩ := statements_branch emitted
    rw [start] at named
    refine ⟨before, target, after ++ trailer options f frame, ?_, named, skips.append _⟩
    simp
  · intro before target after split
    rw [List.append_assoc] at split
    obtain ⟨lines, rfl, inBody⟩ := split_behind (not_mem_of_plain rfl (prologue_plain _ _)) split
    obtain ⟨front, condition, inner, back, shape, named, skips⟩ :=
      statements_jump emitted (jump_not_mem_trailer options f frame target) inBody
    rw [start] at named
    exact ⟨front, condition, inner, back, lines, shape, named, rfl, skips⟩
  · intro before label target after split
    have absent : Line.instr (.lea label target) ∉ prologue f.name frame ++ body := by
      rw [List.mem_append, not_or]
      exact ⟨not_mem_of_plain rfl (prologue_plain _ _), statements_no_address emitted⟩
    obtain ⟨lines, -, inTrailer⟩ := split_behind absent split
    exact trailer_address inTrailer

/-- Labels are defined once, and each function uses its own. The texts stand behind the code, in the
part for data that is only read. -/
structure WellLabelled (members : List Function) (lines : List Line) : Prop where
  once : ((labels lines).map Label.text).Nodup
  parts : ∃ parts : List Program,
    lines = .directive ".text" :: (parts.map Program.code).flatten ++
      (if ∀ part ∈ parts, part.data = [] then []
      else .blank :: .directive ".section .rodata" :: (parts.map Program.data).flatten) ∧
    List.Forall₂ (fun f p => ∃ frame, Frame.layout f.body = .ok frame ∧ References f frame p)
      members parts

end Assembly

open Assembly

/-- The labels in the text of a generated program are well formed: whatever the identifiers of its
functions are, no label is defined twice, every jump leads over the body of its own branch, and
every address is that of a text with the name of the variable that is printed. -/
theorem generate_wellLabelled {options : Options} {m : Module} {program : Program}
    (generated : Assembly.generate options m = .ok program) (distinct : Distinct m.members) :
    ∃ lines, readLines? program.text = some lines ∧ WellLabelled m.members lines := by
  refine ⟨program.lines, generate_read generated distinct,
    generate_labels_nodup generated distinct, ?_⟩
  obtain ⟨parts, lowered, rfl⟩ := functions_parts (generate_eq_ok generated).2
  exact ⟨parts, joined_lines parts, lowered.imp fun _ _ => function_references⟩

/-- Functions whose names look like parts of the labels of another function. -/
theorem generate_wellLabelled_lookalikes :
    ∃ program lines,
      Assembly.generate ⟨"", 3, true⟩ (.functions [shadowing, ⟨"main_endif0", [], none, []⟩,
        ⟨"dump_main", [], none, shadowing.body⟩]) = .ok program ∧
      Distinct [shadowing, ⟨"main_endif0", [], none, []⟩, ⟨"dump_main", [], none, shadowing.body⟩] ∧
      readLines? program.text = some lines ∧
      (labels lines).map Label.text = ["main", ".Lmain_endif0", "main_endif0", "dump_main",
        ".Ldump_main_endif0", ".Ldump_main_0", ".Ldump_main_1", ".Ldump_main_2"] ∧
      WellLabelled [shadowing, ⟨"main_endif0", [], none, []⟩,
        ⟨"dump_main", [], none, shadowing.body⟩] lines := by
  obtain ⟨program, generated⟩ : ∃ program, Assembly.generate ⟨"", 3, true⟩
      (.functions [shadowing, ⟨"main_endif0", [], none, []⟩,
        ⟨"dump_main", [], none, shadowing.body⟩]) = .ok program := ⟨_, rfl⟩
  have distinct : Distinct [shadowing, ⟨"main_endif0", [], none, []⟩,
      ⟨"dump_main", [], none, shadowing.body⟩] := ⟨by decide, by decide⟩
  obtain ⟨lines, read, labelled⟩ := generate_wellLabelled generated distinct
  refine ⟨program, lines, generated, distinct, read, ?_, labelled⟩
  cases (generate_read generated distinct).symm.trans read
  cases generated
  rfl

end DeltaLang
