import DeltaLang.Assembly.Program
import DeltaLang.Proofs.Assembly.Memory
import Mathlib.Logic.Function.Basic
import Mathlib.Logic.Relation

/-!
What the lines of a program do to a processor. A jump goes to the line that its label names in the
whole program, and a call leaves the program for a library.
-/

namespace DeltaLang.Assembly

def Width.bytes : Width → Nat
  | .byte => 1
  | .long => 4
  | .quad => 8

/-- Registers, memory and the flags that a comparison sets. -/
structure Core where
  registers : Register → Word
  memory : Memory
  carry : Bool
  zero : Bool

namespace Core

def set (core : Core) (target : Register) (value : Word) : Core :=
  { core with registers := Function.update core.registers target value }

def address (core : Core) (offset : Nat) : Word :=
  core.registers .rbp - BitVec.ofNat 64 offset

def value (core : Core) (width : Width) : Operand → Nat
  | .immediate value => (value % (256 ^ width.bytes : Nat)).toNat
  | .register register => (core.registers register).toNat % 256 ^ width.bytes
  | .frame offset => core.memory.read (core.address offset) width.bytes

/-- A byte leaves the rest of a register alone, and 32 bits clear it. -/
def load (core : Core) (width : Width) (target : Register) (value : Nat) : Core :=
  match width with
  | .byte =>
    core.set target (BitVec.ofNat 64 ((core.registers target).toNat / 256 * 256 + value % 256))
  | .long | .quad => core.set target (BitVec.ofNat 64 (value % 256 ^ width.bytes))

def save (core : Core) (width : Width) (offset value : Nat) : Core :=
  { core with memory := core.memory.write (core.address offset) width.bytes value }

/-- The flags after the second number was taken from the first. -/
def compare (core : Core) (first second : Nat) : Core :=
  { core with carry := decide (first < second), zero := decide (first = second) }

@[simp]
theorem set_same (core : Core) (target : Register) (value : Word) :
    (core.set target value).registers target = value := by
  simp [set]

@[simp]
theorem set_other (core : Core) {target register : Register} (value : Word)
    (different : register ≠ target) :
    (core.set target value).registers register = core.registers register := by
  simp [set, different]

@[simp]
theorem load_memory (core : Core) (width : Width) (target : Register) (value : Nat) :
    (core.load width target value).memory = core.memory := by
  cases width <;> rfl

@[simp]
theorem load_other (core : Core) (width : Width) {target register : Register} (value : Nat)
    (different : register ≠ target) :
    (core.load width target value).registers register = core.registers register := by
  cases width <;> simp [load, different]

/-- A register gives back at a width what was loaded into it at that width. -/
theorem value_load (core : Core) (width : Width) (target : Register) (value : Nat) :
    (core.load width target value).value width (.register target) =
      value % 256 ^ width.bytes := by
  have bounded := (core.registers target).isLt
  cases width with
  | byte =>
    simp only [Core.value, load, set_same, BitVec.toNat_ofNat, Width.bytes]
    omega
  | long =>
    simp only [Core.value, load, set_same, BitVec.toNat_ofNat, Width.bytes]
    omega
  | quad =>
    simp only [Core.value, load, set_same, BitVec.toNat_ofNat, Width.bytes]
    omega

theorem load_long (core : Core) (target : Register) {value : Nat} (small : value < 256 ^ 4) :
    core.load .long target value = core.set target (BitVec.ofNat 64 value) := by
  simp only [load, Width.bytes, Nat.mod_eq_of_lt small]

theorem value_immediate (core : Core) (width : Width) {value : Nat}
    (small : value < 256 ^ width.bytes) :
    core.value width (.immediate value) = value := by
  rw [Core.value, Int.emod_eq_of_lt (Int.natCast_nonneg value) (by exact_mod_cast small),
    Int.toNat_natCast]

end Core

/-- A call out of the program, with the registers that hold its arguments. -/
structure Call where
  function : String
  rdi : Word
  rsi : Word
  rax : Word
  deriving DecidableEq

/-- What is behind the calls. A function may do anything that leaves the frame of its caller and
the way back as they are; what it does can depend on all the calls so far. -/
structure Library where
  call : List Call → Core → Core
  keeps_rsp : ∀ calls core, (call calls core).registers .rsp = core.registers .rsp
  keeps_rbp : ∀ calls core, (call calls core).registers .rbp = core.registers .rbp
  keeps_frame : ∀ calls core place,
    (place - core.registers .rsp).toNat < (core.registers .rbp - core.registers .rsp).toNat →
    (call calls core).memory place = core.memory place

/-- A program with the addresses of its labels and the library that it is linked to. -/
structure Image where
  lines : List Line
  address : String → Word
  library : Library

/-- A run that goes on at a line, or one that has come to its end. -/
inductive Run where
  | running (line : Nat) (core : Core) (calls : List Call)
  | returned (target : Word) (core : Core) (calls : List Call)
  | exited (status : Word) (calls : List Call)

def Line.label? : Line → Option Label
  | .label name => some name
  | .string name _ => some name
  | _ => none

def labels (lines : List Line) : List Label :=
  lines.filterMap Line.label?

namespace Image

def find? (image : Image) (name : String) : Option Nat :=
  image.lines.findIdx? fun line => line.label?.any (·.text = name)

/-- The text that stands at a name. -/
def text? (image : Image) (name : String) : Option String :=
  match (image.find? name).bind (image.lines[·]?) with
  | some (.string _ text) => some text
  | _ => none

/-- The effect of an instruction behind which the next one follows. -/
def exec? (image : Image) (core : Core) : Instr → Option Core
  | .push source =>
    let top := core.registers .rsp - 8
    some { core.set .rsp top with
      memory := core.memory.write top 8 (core.registers source).toNat }
  | .mov width source (.register target) => some (core.load width target (core.value width source))
  | .mov _ (.frame _) (.frame _) => none
  | .mov width source (.frame offset) => some (core.save width offset (core.value width source))
  | .mov _ _ (.immediate _) => none
  | .movzbl (.immediate _) _ => none
  | .movzbl source target => some (core.load .long target (core.value .byte source))
  | .sub amount target =>
    let before := core.registers target
    some ((core.set target (before - BitVec.ofNat 64 amount)).compare before.toNat
      (BitVec.ofNat 64 amount).toNat)
  | .cmpl source target =>
    some (core.compare (core.value .long (.register target)) (core.value .long source))
  | .lea label target =>
    if (image.find? label.text).isSome then some (core.set target (image.address label.text))
    else none
  | .clear target => some ((core.set target 0).compare 0 0)
  | .leave =>
    let base := core.registers .rbp
    some ((core.set .rsp (base + 8)).set .rbp (BitVec.ofNat 64 (core.memory.read base 8)))
  | .jbe _ | .call _ | .ret => none

/-- One line of a run. A text is not executed, and a program does not call its own functions. -/
def step? (image : Image) : Run → Option Run
  | .running line core calls =>
    match image.lines[line]? with
    | some (.directive _) | some (.label _) | some .blank => some (.running (line + 1) core calls)
    | some (.instr (.jbe label)) => do
      let target ← image.find? label.text
      some (.running (if core.carry || core.zero then target else line + 1) core calls)
    | some (.instr (.call function)) =>
      if (image.find? function).isSome then none
      else if function = "exit" then some (.exited (core.registers .rdi) calls)
      else
        let call : Call :=
          ⟨function, core.registers .rdi, core.registers .rsi, core.registers .rax⟩
        some (.running (line + 1) (image.library.call (calls ++ [call]) core) (calls ++ [call]))
    | some (.instr .ret) =>
      let top := core.registers .rsp
      some (.returned (BitVec.ofNat 64 (core.memory.read top 8)) (core.set .rsp (top + 8)) calls)
    | some (.instr other) => do
      let core ← image.exec? core other
      some (.running (line + 1) core calls)
    | some (.string ..) | none => none
  | .returned .. | .exited .. => none

def Reaches (image : Image) : Run → Run → Prop :=
  Relation.ReflTransGen fun before after => image.step? before = some after

def execAll? (image : Image) (core : Core) (code : List Instr) : Option Core :=
  code.foldlM image.exec? core

/-- Where some code stands among the lines. -/
def Has (image : Image) (line : Nat) (code : List Line) : Prop :=
  code <+: image.lines.drop line

variable {image : Image} {line : Nat}

theorem Has.head {first : Line} {rest : List Line} (placed : image.Has line (first :: rest)) :
    image.lines[line]? = some first := by
  obtain ⟨behind, shape⟩ := placed
  rw [← List.head?_drop, ← shape]
  rfl

theorem Has.tail {first : Line} {rest : List Line} (placed : image.Has line (first :: rest)) :
    image.Has (line + 1) rest := by
  obtain ⟨behind, shape⟩ := placed
  refine ⟨behind, ?_⟩
  rw [← List.tail_drop, ← shape]
  rfl

theorem Has.left {front back : List Line} (placed : image.Has line (front ++ back)) :
    image.Has line front :=
  (List.prefix_append front back).trans placed

theorem Has.right {front back : List Line} (placed : image.Has line (front ++ back)) :
    image.Has (line + front.length) back := by
  obtain ⟨behind, shape⟩ := placed
  refine ⟨behind, ?_⟩
  rw [← List.drop_drop, ← shape, List.append_assoc, List.drop_left]

theorem Has.of_infix {code : List Line} (inside : code <:+: image.lines) :
    ∃ line, image.Has line code := by
  obtain ⟨front, back, shape⟩ := inside
  refine ⟨front.length, back, ?_⟩
  rw [← shape, List.append_assoc, List.drop_left]

/-- A label that is defined once is found where it is defined. -/
theorem find?_eq {label : Label} (once : ((labels image.lines).map Label.text).Nodup)
    {defining : Line} (here : image.lines[line]? = some defining)
    (defined : defining.label? = some label) : image.find? label.text = some line := by
  obtain ⟨bound, rfl⟩ := List.getElem?_eq_some_iff.mp here
  rw [find?, List.findIdx?_eq_some_iff_getElem]
  refine ⟨bound, by simp [defined], fun earlier before => ?_⟩
  have split : image.lines =
      image.lines.take line ++ image.lines[line] :: image.lines.drop (line + 1) := by
    rw [List.getElem_cons_drop, List.take_append_drop]
  rw [split, labels, List.filterMap_append, List.filterMap_cons_some defined, List.map_append,
    List.nodup_append] at once
  have apart := once.2.2
  cases other : (image.lines[earlier]).label? with
  | none => simp
  | some name =>
    have inFront : name.text ∈ ((image.lines.take line).filterMap Line.label?).map Label.text := by
      refine List.mem_map_of_mem (List.mem_filterMap.mpr ⟨image.lines[earlier], ?_, other⟩)
      exact List.mem_take_iff_getElem.mpr ⟨earlier, by omega, rfl⟩
    simpa using apart _ inFront label.text (by simp)

theorem find?_eq_none {name : String} (absent : ∀ label ∈ labels image.lines, label.text ≠ name) :
    image.find? name = none := by
  rw [find?, List.findIdx?_eq_none_iff]
  intro line member
  cases defined : line.label? with
  | none => rfl
  | some label =>
    have inLabels : label ∈ labels image.lines := List.mem_filterMap.mpr ⟨line, member, defined⟩
    simpa using absent label inLabels

theorem text?_eq {name : String} {label : Label} {text : String}
    (found : image.find? name = some line) (here : image.lines[line]? = some (.string label text)) :
    image.text? name = some text := by
  rw [text?, found, Option.bind_some, here]

theorem reaches_exec {core after : Core} {calls : List Call} {i : Instr}
    (here : image.lines[line]? = some (.instr i)) (ran : image.exec? core i = some after) :
    image.Reaches (.running line core calls) (.running (line + 1) after calls) := by
  refine .single ?_
  cases i with
  | jbe => cases ran
  | call => cases ran
  | ret => cases ran
  | _ => simp only [step?, here, ran, Option.bind_eq_bind, Option.bind_some]

theorem reaches_execAll {core after : Core} {calls : List Call} {code : List Instr}
    (placed : image.Has line (code.map .instr)) (ran : image.execAll? core code = some after) :
    image.Reaches (.running line core calls) (.running (line + code.length) after calls) := by
  induction code generalizing line core with
  | nil =>
    cases ran
    exact .refl
  | cons i rest ih =>
    rw [execAll?, List.foldlM_cons] at ran
    obtain ⟨between, first, others⟩ := Option.bind_eq_some_iff.mp ran
    have later := ih placed.tail others
    rw [List.length_cons, Nat.add_comm rest.length 1, ← Nat.add_assoc]
    exact (reaches_exec placed.head first).trans later

theorem reaches_label {core : Core} {calls : List Call} {label : Label}
    (here : image.lines[line]? = some (.label label)) :
    image.Reaches (.running line core calls) (.running (line + 1) core calls) := by
  refine .single ?_
  simp only [step?, here]

theorem reaches_jbe {core : Core} {calls : List Call} {label : Label} {target : Nat}
    (here : image.lines[line]? = some (.instr (.jbe label)))
    (found : image.find? label.text = some target) :
    image.Reaches (.running line core calls)
      (.running (if core.carry || core.zero then target else line + 1) core calls) := by
  refine .single ?_
  simp only [step?, here, found, Option.bind_eq_bind, Option.bind_some]

theorem execAll?_append (core : Core) (front back : List Instr) :
    image.execAll? core (front ++ back) =
      (image.execAll? core front).bind fun between => image.execAll? between back :=
  List.foldlM_append

end Image

end DeltaLang.Assembly
