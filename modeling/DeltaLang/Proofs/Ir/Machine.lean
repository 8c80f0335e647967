import DeltaLang.Ir.Module
import Mathlib.Logic.Function.Basic
import Mathlib.Logic.Relation

/-!
What the blocks of a function do. A run is stuck when it takes the value of a cell or of a temporary
that has none, and when it gets to a point that cannot be reached.
-/

namespace DeltaLang.Ir

/-- A value of one bit or of 32 bits. -/
inductive Scalar where
  | i1 (bit : BitVec 1)
  | i32 (word : BitVec 32)
  deriving DecidableEq

namespace Scalar

def type : Scalar → Ty
  | .i1 _ => .i1
  | .i32 _ => .i32

/-- A constant in the bits of its type. A number that does not fit loses its upper bits. -/
def ofConstant : Constant → Scalar
  | .number n => .i32 (BitVec.ofNat 32 n)
  | .boolean b => .i1 (BitVec.ofBool b)

/-- What the bits stand for. A number has no sign. -/
def constant : Scalar → Constant
  | .i1 bit => .boolean (bit = 1#1)
  | .i32 word => .number word.toNat

/-- Nothing is lost of a number that fits. -/
theorem constant_ofConstant {value : Constant} (small : value.toNat < 0x100000000) :
    (ofConstant value).constant = value := by
  cases value with
  | number n => exact congrArg Constant.number (Nat.mod_eq_of_lt small)
  | boolean b => cases b <;> rfl

theorem constant_eq_number {scalar : Scalar} {n : Nat} (shows : scalar.constant = .number n) :
    ∃ word, scalar = .i32 word ∧ word.toNat = n := by
  cases scalar with
  | i1 bit => cases shows
  | i32 word => exact ⟨word, rfl, Constant.number.inj shows⟩

theorem constant_eq_boolean {scalar : Scalar} {b : Bool} (shows : scalar.constant = .boolean b) :
    scalar = .i1 (BitVec.ofBool b) := by
  cases scalar with
  | i1 bit =>
    cases shows
    revert bit
    decide
  | i32 word => cases shows

end Scalar

/-- What a temporary stands for: a value, or the address of a text. -/
inductive Datum where
  | scalar (scalar : Scalar)
  | text (text : Global)
  deriving DecidableEq

/-- The cells that are allocated, with the value that was last stored in them, and the temporaries
that are defined. -/
structure Memory where
  cells : Cell → Option (Option Scalar)
  temps : Temp → Option Datum

namespace Memory

def blank : Memory :=
  ⟨fun _ => none, fun _ => none⟩

def setCell (memory : Memory) (cell : Cell) (content : Option Scalar) : Memory :=
  { memory with cells := Function.update memory.cells cell (some content) }

def setTemp (memory : Memory) (temp : Temp) (datum : Datum) : Memory :=
  { memory with temps := Function.update memory.temps temp (some datum) }

def value? (memory : Memory) : Value → Option Scalar
  | .constant value => some (.ofConstant value)
  | .temp temp =>
    match memory.temps temp with
    | some (.scalar value) => some value
    | _ => none

/-- What the value in a cell stands for, none if nothing was stored in it. -/
def content? (memory : Memory) (cell : Cell) : Option Constant :=
  (memory.cells cell).join.map Scalar.constant

theorem content?_eq_some {memory : Memory} {cell : Cell} {value : Constant} :
    memory.content? cell = some value ↔
      ∃ scalar, memory.cells cell = some (some scalar) ∧ scalar.constant = value := by
  simp [content?, Option.join_eq_some_iff]

theorem content?_congr {memory after : Memory} {cell : Cell}
    (same : after.cells cell = memory.cells cell) : after.content? cell = memory.content? cell :=
  congrArg (Option.map Scalar.constant ∘ Option.join) same

@[simp]
theorem setTemp_cells (memory : Memory) (temp : Temp) (datum : Datum) :
    (memory.setTemp temp datum).cells = memory.cells := rfl

@[simp]
theorem setTemp_same (memory : Memory) (temp : Temp) (datum : Datum) :
    (memory.setTemp temp datum).temps temp = some datum := by
  simp [setTemp]

@[simp]
theorem setTemp_other (memory : Memory) {temp other : Temp} (datum : Datum)
    (different : other ≠ temp) : (memory.setTemp temp datum).temps other = memory.temps other := by
  simp [setTemp, different]

@[simp]
theorem setCell_same (memory : Memory) (cell : Cell) (content : Option Scalar) :
    (memory.setCell cell content).cells cell = some content := by
  simp [setCell]

@[simp]
theorem setCell_other (memory : Memory) {cell other : Cell} (content : Option Scalar)
    (different : other ≠ cell) :
    (memory.setCell cell content).cells other = memory.cells other := by
  simp [setCell, different]

/-- The effect of an instruction that stays in the function. -/
def exec? (globals : List Global) (memory : Memory) : Instr → Option Memory
  | .alloca cell =>
    match memory.cells cell with
    | none => some (memory.setCell cell none)
    | some _ => none
  | .store value cell =>
    match memory.value? value, memory.cells cell with
    | some scalar, some _ =>
      if scalar.type = cell.type then some (memory.setCell cell (some scalar)) else none
    | _, _ => none
  | .load result cell =>
    match memory.cells cell with
    | some (some scalar) =>
      if result.type = cell.type then some (memory.setTemp result (.scalar scalar)) else none
    | _ => none
  | .icmpUgt result left right =>
    match memory.value? left, memory.value? right with
    | some (.i32 l), some (.i32 r) =>
      some (memory.setTemp result (.scalar (.i1 (BitVec.ofBool (r.ult l)))))
    | _, _ => none
  | .zext result value =>
    match memory.value? (.temp value) with
    | some (.i1 bit) => some (memory.setTemp result (.scalar (.i32 (bit.setWidth 32))))
    | _ => none
  | .bitcast result text =>
    if text ∈ globals then some (memory.setTemp result (.text text)) else none
  | .printf .. | .exit _ => none

end Memory

/-- A number that is printed with a format. -/
structure Call where
  format : List UInt8
  value : Nat
  deriving DecidableEq

/-- A run with the part of a block that is still before it, or one that has come to its end. -/
inductive Run where
  | running (here : Block) (memory : Memory) (calls : List Call)
  | returned (memory : Memory) (calls : List Call)
  | exited (status : BitVec 32) (calls : List Call)

structure Image where
  globals : List Global
  blocks : List Block

namespace Image

def find? (image : Image) (name : BlockName) : Option Block :=
  image.blocks.find? fun block => block.name = name

/-- The next instruction of a run, or the end of its block. What a call gives back is not known. -/
def step? (image : Image) : Run → Option Run
  | .running ⟨name, i :: rest, terminator⟩ memory calls =>
    match i with
    | .printf _ format value =>
      match memory.temps format, memory.temps value with
      | some (.text text), some (.scalar (.i32 word)) =>
        some (.running ⟨name, rest, terminator⟩ memory (calls ++ [⟨text.bytes, word.toNat⟩]))
      | _, _ => none
    | .exit status => some (.exited (BitVec.ofInt 32 status) calls)
    | other => do
      let memory ← memory.exec? image.globals other
      some (.running ⟨name, rest, terminator⟩ memory calls)
  | .running ⟨_, [], terminator⟩ memory calls =>
    match terminator with
    | .br target => do
      let block ← image.find? target
      some (.running block memory calls)
    | .condBr condition yes no =>
      match memory.temps condition with
      | some (.scalar (.i1 bit)) => do
        let block ← image.find? (if bit = 1#1 then yes else no)
        some (.running block memory calls)
      | _ => none
    | .ret => some (.returned memory calls)
    | .unreachable => none
  | .returned .. | .exited .. => none

def Reaches (image : Image) : Run → Run → Prop :=
  Relation.ReflTransGen fun before after => image.step? before = some after

def execAll? (image : Image) (memory : Memory) (code : List Instr) : Option Memory :=
  code.foldlM (Memory.exec? image.globals) memory

variable {image : Image}

theorem execAll?_append (memory : Memory) (front back : List Instr) :
    image.execAll? memory (front ++ back) =
      (image.execAll? memory front).bind fun between => image.execAll? between back :=
  List.foldlM_append

theorem reaches_exec {name : BlockName} {i : Instr} {rest : List Instr} {terminator : Terminator}
    {memory after : Memory} {calls : List Call} (ran : memory.exec? image.globals i = some after) :
    image.Reaches (.running ⟨name, i :: rest, terminator⟩ memory calls)
      (.running ⟨name, rest, terminator⟩ after calls) := by
  refine .single ?_
  cases i with
  | printf => cases ran
  | exit => cases ran
  | _ => simp only [step?, ran, Option.bind_eq_bind, Option.bind_some]

theorem reaches_execAll {name : BlockName} {code rest : List Instr} {terminator : Terminator}
    {memory after : Memory} {calls : List Call} (ran : image.execAll? memory code = some after) :
    image.Reaches (.running ⟨name, code ++ rest, terminator⟩ memory calls)
      (.running ⟨name, rest, terminator⟩ after calls) := by
  induction code generalizing memory with
  | nil =>
    cases ran
    exact .refl
  | cons i code ih =>
    rw [execAll?, List.foldlM_cons] at ran
    obtain ⟨between, first, others⟩ := Option.bind_eq_some_iff.mp ran
    exact (reaches_exec first).trans (ih others)

theorem reaches_end {name : BlockName} {code : List Instr} {terminator : Terminator}
    {memory after : Memory} {calls : List Call} (ran : image.execAll? memory code = some after) :
    image.Reaches (.running ⟨name, code, terminator⟩ memory calls)
      (.running ⟨name, [], terminator⟩ after calls) := by
  rw [← List.append_nil code]
  exact reaches_execAll ran

/-- A block whose name is used once is found by it. -/
theorem find?_eq {block : Block} (once : (image.blocks.map Block.name).Nodup)
    (member : block ∈ image.blocks) : image.find? block.name = some block := by
  obtain ⟨front, back, shape⟩ := List.append_of_mem member
  rw [find?, List.find?_eq_some_iff_append]
  refine ⟨by simp, front, back, shape, fun other inFront => ?_⟩
  rw [shape, List.map_append, List.map_cons, List.nodup_append] at once
  have apart := once.2.2 other.name (List.mem_map_of_mem inFront) block.name List.mem_cons_self
  simpa using apart

theorem reaches_br {name target : BlockName} {block : Block} {memory : Memory} {calls : List Call}
    (found : image.find? target = some block) :
    image.Reaches (.running ⟨name, [], .br target⟩ memory calls) (.running block memory calls) := by
  refine .single ?_
  simp only [step?, found, Option.bind_eq_bind, Option.bind_some]

theorem reaches_condBr {name yes no : BlockName} {condition : Temp} {b : Bool} {block : Block}
    {memory : Memory} {calls : List Call}
    (decided : memory.temps condition = some (.scalar (.i1 (BitVec.ofBool b))))
    (found : image.find? (if b then yes else no) = some block) :
    image.Reaches (.running ⟨name, [], .condBr condition yes no⟩ memory calls)
      (.running block memory calls) := by
  have bit : BitVec.ofBool b = 1#1 ↔ b = true := by cases b <;> decide
  refine .single ?_
  simp only [step?, decided, bit, found, Option.bind_eq_bind, Option.bind_some]

end Image

end DeltaLang.Ir
