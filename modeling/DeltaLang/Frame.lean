import DeltaLang.Typing

/-!
Stack frames. Every declaration of a function body has a slot of its own below the frame pointer,
in the order of the program.
-/

namespace DeltaLang

/-- The bytes that a value of a type takes, none for a type without values. -/
def Primitive.width? : Primitive → Option Nat
  | .number => some 4
  | .boolean => some 1
  | .void => none
  | .other _ => none

/-- The place of a variable: the bytes from `offset` below the frame pointer upwards. -/
structure Slot where
  name : String
  type : Primitive
  offset : Nat
  deriving DecidableEq, Repr

namespace Slot

def width (s : Slot) : Nat :=
  s.type.width?.getD 0

/-- The slot as an address relative to the frame pointer. -/
def operand (s : Slot) : String :=
  toString (-(s.offset : Int)) ++ "(%rbp)"

end Slot

/-- The least multiple of `unit` that is not below `n`. -/
def alignUp (n unit : Nat) : Nat :=
  (n + unit - 1) / unit * unit

structure Frame where
  slots : List Slot
  size : Nat
  deriving DecidableEq, Repr

namespace Frame

/-- The bytes right below the frame pointer that no slot uses. -/
def returnSlot : Nat := 8

def stackAlignment : Nat := 16

/-- Slots for the declarations of a body, and the fault that ended the placement early. `scope`
holds the types of the variables so far, the latest first, and `offset` says how far down their
slots reach. -/
def place (scope : List (String × Primitive)) (offset : Nat) :
    List Stmt → List Slot × Option Error
  | [] => ([], none)
  | .declare name value :: rest =>
    match value.typeOf (scope.lookup ·) with
    | .error fault => ([], some fault)
    | .ok type =>
      match type.width? with
      | none => ([], some (.invalidDeclarationType name type))
      | some width =>
        let offset := alignUp offset width + width
        let (slots, fault) := place ((name, type) :: scope) offset rest
        (⟨name, type, offset⟩ :: slots, fault)
  | _ :: rest => place scope offset rest

/-- How far down the slots reach. -/
def depth (slots : List Slot) : Nat :=
  (slots.getLast?.map Slot.offset).getD returnSlot

/-- The slots that a body is given before the first fault. -/
def placed (body : List Stmt) : List Slot :=
  (place [] returnSlot body).1

def layout (body : List Stmt) : Except Error Frame :=
  match place [] returnSlot body with
  | (slots, none) => .ok ⟨slots, alignUp (depth slots) stackAlignment⟩
  | (_, some fault) => .error fault

end Frame

end DeltaLang
