import DeltaLang.Literal

/-!
Modules of LLVM IR, as far as generated code needs them. A function keeps each variable in a memory
cell of its own; the value of a cell passes through temporaries, each of which is defined once.
-/

namespace DeltaLang.Ir

/-- The types of values that instructions work on. `pointer` is an address of bytes. -/
inductive Ty where
  | i1
  | i32
  | pointer
  deriving DecidableEq, Repr

/-- The type that values of a primitive type have, none for a type without values. -/
def Ty.ofPrimitive? : Primitive → Option Ty
  | .number => some .i32
  | .boolean => some .i1
  | .void => none
  | .other _ => none

/-- The memory cell of a declaration. `index` counts the declarations of the function, `variable`
is the declared name, and `name` is the name that the cell has in the module. -/
structure Cell where
  index : Nat
  variableName : String
  name : String
  kind : Primitive
  type : Ty
  deriving DecidableEq, Repr

/-- A value that an instruction defines. -/
structure Temp where
  index : Nat
  type : Ty
  deriving DecidableEq, Repr

inductive Value where
  | constant (constant : Constant)
  | temp (temp : Temp)
  deriving DecidableEq, Repr

namespace Value

def type : Value → Ty
  | .constant (.number _) => .i32
  | .constant (.boolean _) => .i1
  | .temp t => t.type

end Value

/-- The names of the blocks of a function. -/
inductive BlockName where
  | entry
  | thenBranch (index : Nat)
  | endif (index : Nat)
  deriving DecidableEq, Repr

/-- A constant text of the module. -/
structure Global where
  name : String
  bytes : List UInt8
  deriving DecidableEq, Repr

inductive Instr where
  | alloca (cell : Cell)
  | store (value : Value) (cell : Cell)
  | load (result : Temp) (cell : Cell)
  | icmpUgt (result : Temp) (left right : Value)
  | zext (result : Temp) (value : Temp)
  | bitcast (result : Temp) (text : Global)
  | printf (result : Temp) (format : Temp) (value : Temp)
  | exit (status : Int)
  deriving DecidableEq, Repr

namespace Instr

/-- The temporary that an instruction defines. -/
def result? : Instr → Option Temp
  | .alloca _ => none
  | .store _ _ => none
  | .load result _ => some result
  | .icmpUgt result _ _ => some result
  | .zext result _ => some result
  | .bitcast result _ => some result
  | .printf result _ _ => some result
  | .exit _ => none

end Instr

inductive Terminator where
  | br (target : BlockName)
  | condBr (condition : Temp) (then' else' : BlockName)
  | ret
  | unreachable
  deriving DecidableEq, Repr

structure Block where
  name : BlockName
  instrs : List Instr
  terminator : Terminator
  deriving DecidableEq, Repr

/-- A function definition. The entry function has a status as its result, all others have none. -/
structure Definition where
  name : String
  isEntry : Bool
  blocks : List Block
  deriving DecidableEq, Repr

structure Module where
  globals : List Global
  definitions : List Definition
  deriving DecidableEq, Repr

namespace Module

/-- Adds a definition with its texts. -/
def add (m : Module) (definition : Definition) (globals : List Global) : Module :=
  ⟨m.globals ++ globals, m.definitions ++ [definition]⟩

end Module

end DeltaLang.Ir
