import DeltaLang.Proofs.Assembly.Correctness
import Mathlib.Data.Int.ConditionallyCompleteOrder
import Mathlib.Order.CompletePartialOrder

namespace DeltaLang

theorem alignUp_le {n unit bound : Nat} (positive : 0 < unit) (multiple : unit ∣ bound)
    (above : n ≤ bound) : alignUp n unit ≤ bound := by
  obtain ⟨count, rfl⟩ := multiple
  have quotient : (n + unit - 1) / unit < count + 1 := by
    rw [Nat.div_lt_iff_lt_mul positive, Nat.succ_mul, Nat.mul_comm count unit]
    omega
  calc alignUp n unit ≤ count * unit := Nat.mul_le_mul_right unit (by omega)
    _ = unit * count := Nat.mul_comm count unit

/-- The bytes of a slot, by their distance from the frame pointer. -/
def Slot.bytes (slot : Slot) : Set Int :=
  Set.Ico (-(slot.offset : Int)) (-slot.offset + slot.width)

namespace Frame

/-- How the slots for the declarations of a body are arranged: none is empty, each is aligned to its
width, no two share a byte, they go downwards in the order of the declarations, all of them lie
below the eight bytes at the frame pointer and inside of the frame, and the frame is as small as a
multiple of 16 can be. -/
structure Arranged (body : List Stmt) (frame : Frame) : Prop where
  declared : frame.slots.map Slot.name = body.filterMap Stmt.declared?
  wide : ∀ slot ∈ frame.slots, 0 < slot.width
  aligned : ∀ slot ∈ frame.slots, slot.width ∣ slot.offset
  disjoint : frame.slots.Pairwise fun first second => Disjoint first.bytes second.bytes
  inside : ∀ slot ∈ frame.slots, slot.bytes ⊆ Set.Ico (-(frame.size : Int)) (-8)
  increasing : (frame.slots.map Slot.offset).Pairwise (· < ·)
  size : IsLeast {n | 16 ∣ n ∧ (frame.slots.getLast?.map Slot.offset).getD 8 ≤ n} frame.size

theorem Stacked.width_pos {offset : Nat} {slots : List Slot} (stacked : Stacked offset slots) :
    ∀ slot ∈ slots, 0 < slot.width := by
  intro slot member
  have valued := (stacked.below slot member).1
  rcases Slot.width_cases valued with number | boolean
  · omega
  · omega

theorem Stacked.aligned {offset : Nat} {slots : List Slot} (stacked : Stacked offset slots) :
    ∀ slot ∈ slots, slot.width ∣ slot.offset := by
  induction slots generalizing offset with
  | nil => simp
  | cons first rest ih =>
    have place : first.offset = alignUp offset first.width + first.width := stacked.2.1
    intro slot member
    rcases List.mem_cons.mp member with rfl | later
    · rw [place]
      exact Nat.dvd_add (dvd_alignUp offset slot.width) (Nat.dvd_refl slot.width)
    · exact ih stacked.2.2 slot later

/-- A slot that ends at or below the place where another one begins shares no byte with it. -/
theorem disjoint_of_below {earlier later : Slot}
    (below : earlier.offset + later.width ≤ later.offset) : Disjoint earlier.bytes later.bytes := by
  rw [Set.disjoint_left]
  intro place first second
  simp only [Slot.bytes, Set.mem_Ico] at first second
  omega

theorem WellFormed.arranged {body : List Stmt} {frame : Frame} (wellFormed : frame.WellFormed)
    (names : frame.slots.map Slot.name = body.filterMap Stmt.declared?) :
    frame.Arranged body := by
  have stacked := wellFormed.stacked
  have ordered := stacked.pairwise
  refine ⟨names, stacked.width_pos, stacked.aligned, ordered.imp disjoint_of_below, ?_, ?_, ?_, ?_⟩
  · intro slot member place inSlot
    have above := (stacked.below slot member).2
    have under := wellFormed.offset_le_size member
    simp only [Slot.bytes, Set.mem_Ico, returnSlot] at inSlot above ⊢
    omega
  · rw [List.pairwise_map]
    refine ordered.imp_of_mem ?_
    intro earlier later _ member below
    have wide := stacked.width_pos later member
    omega
  · refine ⟨wellFormed.aligned, ?_⟩
    rw [wellFormed.size]
    exact le_alignUp (depth frame.slots) (by decide)
  · rintro n ⟨multiple, above⟩
    rw [wellFormed.size]
    exact alignUp_le (by decide) multiple above

end Frame

namespace Assembly

/-- An instruction that leaves the stack pointer alone and goes on to the next line. -/
def Instr.KeepsStack : Instr → Prop
  | .mov _ _ target => target ≠ .register .rsp
  | .movzbl _ target => target ≠ .rsp
  | .lea _ target => target ≠ .rsp
  | .clear target => target ≠ .rsp
  | .sub _ target => target ≠ .rsp
  | .cmpl _ _ => True
  | .push _ => False
  | .jbe _ => False
  | .call _ => False
  | .leave => False
  | .ret => False

section Instructions

variable {image : Image} {core after : Core}

theorem exec?_keepsStack {i : Instr} (keeps : i.KeepsStack)
    (ran : image.exec? core i = some after) : after.registers .rsp = core.registers .rsp := by
  cases i with
  | mov width source target =>
    cases target with
    | immediate value => cases source <;> cases ran
    | register target =>
      cases ran
      have other : Register.rsp ≠ target := fun same => keeps (congrArg Operand.register same.symm)
      exact Core.load_other core width _ other
    | frame offset =>
      cases source with
      | frame _ => cases ran
      | immediate value =>
        cases ran
        rfl
      | register source =>
        cases ran
        rfl
  | movzbl source target =>
    cases source with
    | immediate value => cases ran
    | register source =>
      cases ran
      exact Core.load_other core .long _ (Ne.symm keeps)
    | frame offset =>
      cases ran
      exact Core.load_other core .long _ (Ne.symm keeps)
  | lea label target =>
    simp only [Image.exec?] at ran
    split at ran
    · cases ran
      exact core.set_other _ (Ne.symm keeps)
    · cases ran
  | clear target =>
    cases ran
    exact core.set_other _ (Ne.symm keeps)
  | sub amount target =>
    cases ran
    exact core.set_other _ (Ne.symm keeps)
  | cmpl source target =>
    cases ran
    rfl
  | push source => exact keeps.elim
  | jbe label => exact keeps.elim
  | call function => exact keeps.elim
  | leave => exact keeps.elim
  | ret => exact keeps.elim

theorem Instr.IsMove.keepsStack {i : Instr} (move : i.IsMove) : i.KeepsStack := by
  cases i with
  | mov => exact move
  | _ => exact move.elim

end Instructions

namespace Image

/-- A run that does not stand at a call, or has an aligned stack there. -/
def AlignedAt (image : Image) : Run → Prop
  | .running line core _ => ∀ function, image.lines[line]? = some (.instr (.call function)) →
      16 ∣ (core.registers .rsp).toNat
  | .returned .. => True
  | .exited .. => True

/-- The stack is aligned at every call from a point of a run on. -/
def CallsAligned (image : Image) (run : Run) : Prop :=
  ∀ later, image.Reaches run later → image.AlignedAt later

/-- A line from which on the stack is aligned at every call, provided that the stack pointer is
`rest` modulo 16 there. -/
def AlignedFrom (image : Image) (line rest : Nat) : Prop :=
  ∀ core calls, (core.registers .rsp).toNat % 16 = rest →
    image.CallsAligned (.running line core calls)

variable {image : Image} {line rest : Nat}

theorem CallsAligned.of_step {run : Run} (here : image.AlignedAt run)
    (next : ∀ after, image.step? run = some after → image.CallsAligned after) :
    image.CallsAligned run := by
  intro later reached
  rcases Relation.ReflTransGen.cases_head reached with rfl | ⟨after, stepped, others⟩
  · exact here
  · exact next after stepped later others

theorem callsAligned_returned (target : Word) (core : Core) (calls : List Call) :
    image.CallsAligned (.returned target core calls) :=
  .of_step trivial fun _ stepped => by cases stepped

theorem callsAligned_exited (status : Word) (calls : List Call) :
    image.CallsAligned (.exited status calls) :=
  .of_step trivial fun _ stepped => by cases stepped

theorem alignedAt_of_line {found : Line} (here : image.lines[line]? = some found)
    (other : ∀ function, found ≠ .instr (.call function)) (core : Core) (calls : List Call) :
    image.AlignedAt (.running line core calls) := by
  intro function called
  rw [here] at called
  exact absurd (Option.some.inj called) (other function)

theorem AlignedFrom.label {label : Label} (here : image.lines[line]? = some (.label label))
    (next : image.AlignedFrom (line + 1) rest) : image.AlignedFrom line rest := by
  intro core calls residue
  apply CallsAligned.of_step (alignedAt_of_line here (by simp) core calls)
  intro after stepped
  simp only [step?, here, Option.some.injEq] at stepped
  subst stepped
  exact next core calls residue

/-- A line with an instruction that is no jump, no call and no return passes on what the instruction
makes of the stack pointer. -/
theorem AlignedFrom.instr {i : Instr} {before : Nat}
    (here : image.lines[line]? = some (.instr i)) (notJump : ∀ label, i ≠ .jbe label)
    (notCall : ∀ function, i ≠ .call function) (notReturn : i ≠ .ret)
    (moves : ∀ core after, image.exec? core i = some after →
      (core.registers .rsp).toNat % 16 = before → (after.registers .rsp).toNat % 16 = rest)
    (next : image.AlignedFrom (line + 1) rest) : image.AlignedFrom line before := by
  intro core calls residue
  have other : ∀ function, Line.instr i ≠ .instr (.call function) := by
    intro function same
    exact notCall function (Line.instr.inj same)
  apply CallsAligned.of_step (alignedAt_of_line here other core calls)
  intro after stepped
  have ran : ∃ final, image.exec? core i = some final ∧
      after = .running (line + 1) final calls := by
    cases i with
    | jbe label => exact absurd rfl (notJump label)
    | call function => exact absurd rfl (notCall function)
    | ret => exact absurd rfl notReturn
    | _ =>
      simp only [step?, here] at stepped
      obtain ⟨final, executed, same⟩ := Option.bind_eq_some_iff.mp stepped
      exact ⟨final, executed, (Option.some.inj same).symm⟩
  obtain ⟨final, executed, rfl⟩ := ran
  exact next final calls (moves core final executed residue)

theorem AlignedFrom.keeps {i : Instr} (here : image.lines[line]? = some (.instr i))
    (keeps : i.KeepsStack) (next : image.AlignedFrom (line + 1) rest) :
    image.AlignedFrom line rest := by
  refine next.instr here ?_ ?_ ?_ ?_
  · rintro label rfl
    exact keeps
  · rintro function rfl
    exact keeps
  · rintro rfl
    exact keeps
  · intro core after ran residue
    rw [exec?_keepsStack keeps ran]
    exact residue

theorem AlignedFrom.code {code : List Instr} (placed : image.Has line (code.map .instr))
    (keeps : ∀ i ∈ code, i.KeepsStack) (next : image.AlignedFrom (line + code.length) rest) :
    image.AlignedFrom line rest := by
  induction code generalizing line with
  | nil => exact next
  | cons i others ih =>
    have shifted : line + (i :: others).length = line + 1 + others.length := by
      rw [List.length_cons]
      omega
    rw [shifted] at next
    have later := ih placed.tail (fun other member => keeps other (by simp [member])) next
    exact later.keeps placed.head (keeps i (by simp))

theorem AlignedFrom.jump {label : Label} {target : Nat}
    (here : image.lines[line]? = some (.instr (.jbe label)))
    (found : image.find? label.text = some target) (taken : image.AlignedFrom target rest)
    (next : image.AlignedFrom (line + 1) rest) : image.AlignedFrom line rest := by
  intro core calls residue
  apply CallsAligned.of_step (alignedAt_of_line here (by simp) core calls)
  intro after stepped
  simp only [step?, here, found, Option.bind_eq_bind, Option.bind_some, Option.some.injEq]
    at stepped
  subst stepped
  split
  · exact taken core calls residue
  · exact next core calls residue

/-- A call with an aligned stack comes back with an aligned stack, if at all. -/
theorem AlignedFrom.call {function : String}
    (here : image.lines[line]? = some (.instr (.call function)))
    (next : function ≠ "exit" → image.AlignedFrom (line + 1) 0) : image.AlignedFrom line 0 := by
  intro core calls residue
  apply CallsAligned.of_step
  · intro other called
    exact Nat.dvd_of_mod_eq_zero residue
  · intro after stepped
    simp only [step?, here] at stepped
    split at stepped
    · cases stepped
    · split at stepped
      · cases stepped
        exact callsAligned_exited _ calls
      · rename_i returns
        cases stepped
        apply next returns
        rw [image.library.keeps_rsp]
        exact residue

theorem AlignedFrom.ret (here : image.lines[line]? = some (.instr .ret)) :
    image.AlignedFrom line rest := by
  intro core calls residue
  apply CallsAligned.of_step (alignedAt_of_line here (by simp) core calls)
  intro after stepped
  simp only [step?, here, Option.some.injEq] at stepped
  subst stepped
  exact callsAligned_returned _ _ calls

end Image

section Functions

variable {image : Image} {line : Nat}

/-- The end of a function that returns. What `leave` makes of the stack pointer does not matter, for
`ret` is no call. -/
theorem alignedFrom_return (placed : image.Has line [.instr .leave, .instr .ret]) :
    image.AlignedFrom line 0 := by
  intro core calls residue
  apply Image.CallsAligned.of_step (Image.alignedAt_of_line placed.head (by simp) core calls)
  intro after stepped
  simp only [Image.step?, placed.head] at stepped
  obtain ⟨final, -, same⟩ := Option.bind_eq_some_iff.mp stepped
  cases same
  exact Image.AlignedFrom.ret placed.tail.head final calls rfl

/-- Each variable is printed by one call, in front of which only argument registers are set. -/
theorem alignedFrom_dump {owner : String} {slots : List Slot} {first : Nat}
    (placed : image.Has line ((dumpFrom owner slots first).map .instr))
    (next : image.AlignedFrom (line + (dumpFrom owner slots first).length) 0) :
    image.AlignedFrom line 0 := by
  induction slots generalizing line first with
  | nil => exact next
  | cons slot others ih =>
    rw [dumpFrom_cons, List.map_append] at placed
    rw [dumpFrom_cons, List.length_append, ← Nat.add_assoc] at next
    have behind := placed.right
    rw [List.length_map] at behind
    have later := ih behind next
    have own := placed.left
    have called : image.AlignedFrom (line + 3) 0 := .call own.tail.tail.tail.head fun _ => later
    have arguments : image.Has line (((dumpSlot owner first slot).take 3).map .instr) := own.left
    refine called.code arguments ?_
    intro i member
    simp only [dumpSlot, List.take_succ_cons, List.take_zero, List.mem_cons, List.not_mem_nil,
      or_false] at member
    rcases member with rfl | rfl | rfl
    · simp [Instr.KeepsStack]
    · split <;> simp [Instr.KeepsStack]
    · simp [Instr.KeepsStack]

theorem alignedFrom_trailer {options : Options} {f : Function} {frame : Frame}
    (placed : image.Has line (trailer options f frame)) : image.AlignedFrom line 0 := by
  unfold trailer at placed
  split at placed
  · exact alignedFrom_return placed
  · have behind := placed.right
    rw [List.length_map] at behind
    have exits : image.AlignedFrom _ 0 := .call behind.tail.head fun other => absurd rfl other
    have ended := exits.keeps behind.head (by simp [Instr.KeepsStack])
    exact alignedFrom_dump placed.left ended

section Body

variable (once : ((labels image.lines).map Label.text).Nodup)
include once

/-- A branch jumps to the label behind its own body, so both ways lead to the same line. -/
theorem alignedFrom_emits {owner : String} {slots : List Slot} {state after : State} {s : Stmt}
    {lines : List Line} (emitted : Emits owner slots state s lines after)
    (placed : image.Has line lines) (next : image.AlignedFrom (line + lines.length) 0) :
    image.AlignedFrom line 0 := by
  cases emitted with
  | declare there stored =>
    rw [List.length_map] at next
    exact next.code placed fun i member => (store_moves stored i member).keepsStack
  | evaluate assigned =>
    rw [List.length_map] at next
    exact next.code placed fun i member => (assign_moves assigned i member).keepsStack
  | @branch condition body left right code compared inner =>
    rw [branchLines_length, ← Nat.add_assoc, ← Nat.add_assoc] at next
    unfold branchLines at placed
    have jump := placed.left.left.tail.tail.head
    have inside : image.Has (line + 3) (code.map .instr) := placed.left.right
    have goal : image.lines[line + 3 + code.length]? =
        some (.label (.endif owner state.labels)) := by
      have behind := placed.right.head
      rwa [List.length_append, List.length_map, ← Nat.add_assoc] at behind
    have landed := next.label goal
    have entered := landed.code inside fun i member => (branchBody_moves inner i member).keepsStack
    have jumped := Image.AlignedFrom.jump jump (Image.find?_eq once goal rfl) landed entered
    have compared := jumped.keeps placed.left.left.tail.head (by simp [Instr.KeepsStack])
    exact compared.keeps placed.left.left.head (by simp [Instr.KeepsStack])

theorem alignedFrom_statements {owner : String} {slots : List Slot} {state after : State}
    {body : List Stmt} {lines : List Line}
    (emitted : statements owner slots state body = .ok (lines, after))
    (placed : image.Has line lines) (next : image.AlignedFrom (line + lines.length) 0) :
    image.AlignedFrom line 0 := by
  induction body generalizing state line lines with
  | nil =>
    cases emitted
    exact next
  | cons s rest ih =>
    obtain ⟨first, between, others, head, tail, rfl⟩ := statements_eq_ok emitted
    rw [List.length_append, ← Nat.add_assoc] at next
    exact alignedFrom_emits once head placed.left (ih tail placed.right next)

end Body

/-- The prologue pushes eight bytes and reserves a multiple of 16, which makes up for the return
address on top of an aligned stack. -/
theorem alignedFrom_prologue {name : String} {frame : Frame} (multiple : 16 ∣ frame.size)
    (placed : image.Has line (prologue name frame)) (next : image.AlignedFrom (line + 5) 0) :
    image.AlignedFrom (line + 1) 8 := by
  have code := placed.tail.tail
  have reserved : image.AlignedFrom (line + 4) 0 := by
    refine next.instr code.tail.tail.head (by simp) (by simp) (by simp) ?_
    intro core after ran residue
    cases ran
    have bounded := (core.registers .rsp).isLt
    simp only [Core.compare, Core.set_same, BitVec.toNat_sub, BitVec.toNat_ofNat]
    omega
  have moved : image.AlignedFrom (line + 3) 0 :=
    reserved.keeps code.tail.head (by simp [Instr.KeepsStack])
  have pushed : image.AlignedFrom (line + 2) 8 := by
    refine moved.instr code.head (by simp) (by simp) (by simp) ?_
    intro core after ran residue
    cases ran
    have bounded := (core.registers .rsp).isLt
    have eight : (8 : Word).toNat = 8 := rfl
    simp only [Core.set_same, BitVec.toNat_sub, eight]
    omega
  exact pushed.label placed.tail.head

theorem alignedFrom_function {options : Options} {f : Function} {p : Program}
    (lowered : function options f = .ok p) (once : ((labels image.lines).map Label.text).Nodup)
    (placed : image.Has line p.code) : image.AlignedFrom (line + 1) 8 := by
  obtain ⟨-, frame, body, state, laid, emitted, rfl⟩ := function_eq_ok lowered
  have ends := alignedFrom_trailer placed.right
  rw [List.length_append, ← Nat.add_assoc] at ends
  have runs := alignedFrom_statements once emitted placed.left.right ends
  exact alignedFrom_prologue (Frame.layout_wellFormed laid).aligned placed.left.left runs

end Functions

end Assembly

open Assembly

/-- What a layout makes of the stack. The slots are arranged in a frame of the least size; and
wherever the code of the function stands in a program without ambiguous labels, a run that enters it
at its label with the stack pointer eight bytes below a multiple of 16, as a call leaves it, stands
at every later call with the stack pointer at a multiple of 16. -/
theorem layout_arranges_stack {f : Function} {frame : Frame}
    (laid : Frame.layout f.body = .ok frame) :
    frame.Arranged f.body ∧
      ∀ (options : Options) (p : Program) (image : Image) (start : Nat),
        Assembly.function options f = .ok p → p.code <:+: image.lines →
        ((labels image.lines).map Label.text).Nodup → image.find? f.name = some start →
        ∀ core calls, (core.registers .rsp).toNat % 16 = 8 →
          ∀ later, image.Reaches (.running start core calls) later → image.AlignedAt later := by
  constructor
  · exact (Frame.layout_wellFormed laid).arranged (Frame.place_names (Frame.layout_placed laid))
  · intro options p image start lowered inside once found core calls entered
    obtain ⟨line, placed⟩ := Image.Has.of_infix inside
    have safe := alignedFrom_function lowered once placed
    -- No other line defines the name of the function, so the run starts behind its directive.
    obtain ⟨-, frame', body, state, -, -, rfl⟩ := function_eq_ok lowered
    have label := placed.left.left.tail.head
    have here := Image.find?_eq once label rfl
    have same : start = line + 1 := Option.some.inj (found.symm.trans here)
    subst same
    exact safe core calls entered

/-- Three variables that take 20 bytes, linked as a program of its own and entered with the stack
pointer at 8. -/
theorem layout_arranges_stack_shadowing :
    ∃ program, Assembly.generate ⟨"", 3, true⟩ (.functions [shadowing]) = .ok program ∧
      Frame.layout shadowing.body =
        .ok ⟨[⟨"a", .number, 12⟩, ⟨"b", .boolean, 13⟩, ⟨"a", .number, 20⟩], 32⟩ ∧
      Frame.Arranged shadowing.body
        ⟨[⟨"a", .number, 12⟩, ⟨"b", .boolean, 13⟩, ⟨"a", .number, 20⟩], 32⟩ ∧
      ∀ later, (Image.mk program.lines (fun _ => 4096) .printing).Reaches
          (.running 2 ⟨fun _ => 8, fun _ => 0, false, false⟩ []) later →
        (Image.mk program.lines (fun _ => 4096) .printing).AlignedAt later := by
  obtain ⟨program, generated⟩ : ∃ program,
      Assembly.generate ⟨"", 3, true⟩ (.functions [shadowing]) = .ok program := ⟨_, rfl⟩
  have laid : Frame.layout shadowing.body =
      .ok ⟨[⟨"a", .number, 12⟩, ⟨"b", .boolean, 13⟩, ⟨"a", .number, 20⟩], 32⟩ := rfl
  have once := generate_labels_nodup generated ⟨by decide, by decide⟩
  obtain ⟨p, lowered, code, -⟩ :=
    functions_eq_ok (generate_eq_ok generated).2 (List.mem_singleton.mpr rfl)
  obtain ⟨arranged, aligned⟩ := layout_arranges_stack laid
  refine ⟨program, generated, laid, arranged, ?_⟩
  refine aligned ⟨"", 3, true⟩ p _ 2 lowered (code.trans (lines_code program)) once ?_ _ [] rfl
  cases generated
  rfl

end DeltaLang
