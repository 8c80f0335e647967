import DeltaLang.Ir.Integer
import DeltaLang.Ir.Module
import DeltaLang.Ir.Name

/-!
The text of a module. Values without a name are numbered in the order in which they are printed,
from zero in every function.
-/

namespace DeltaLang.Ir

def Ty.text : Ty → String
  | .i1 => "i1"
  | .i32 => "i32"
  | .pointer => "i8*"

def BlockName.text : BlockName → String
  | .entry => "bb.entry"
  | .thenBranch index => "bb.then." ++ toString index
  | .endif index => "bb.endif." ++ toString index

/-- What has a place in the numbering of a function: the cells without a name, by the index of
their declaration, and the temporaries. -/
inductive Unnamed where
  | cell (index : Nat)
  | temp (index : Nat)
  deriving DecidableEq, Repr

def Instr.unnamed? : Instr → Option Unnamed
  | .alloca cell => if cell.name = "" then some (.cell cell.index) else none
  | instr => instr.result?.map fun temp => .temp temp.index

/-- The values without a name, in the order in which they are printed. -/
abbrev Numbering := List Unnamed

def Definition.numbering (d : Definition) : Numbering :=
  d.blocks.flatMap fun block => block.instrs.filterMap Instr.unnamed?

namespace Numbering

def cell (numbering : Numbering) (c : Cell) : String :=
  if c.name = "" then "%" ++ toString (numbering.idxOf (.cell c.index))
  else "%" ++ Name.text c.name

def temp (numbering : Numbering) (t : Temp) : String :=
  "%" ++ toString (numbering.idxOf (.temp t.index))

def value (numbering : Numbering) : Value → String
  | .constant (.number n) => Integer.text n
  | .constant (.boolean b) => if b then "true" else "false"
  | .temp t => numbering.temp t

end Numbering

namespace Global

def arrayType (g : Global) : String :=
  "[" ++ toString g.bytes.length ++ " x i8]"

def ref (g : Global) : String :=
  "@" ++ Name.text g.name

def text (g : Global) : String :=
  g.ref ++ " = constant " ++ g.arrayType ++ " c\"" ++ Name.escape g.bytes ++ "\""

end Global

def Instr.text (n : Numbering) : Instr → String
  | .alloca cell => n.cell cell ++ " = alloca " ++ cell.type.text
  | .store value cell =>
    "store " ++ value.type.text ++ " " ++ n.value value ++ ", " ++ cell.type.text ++ "* " ++
      n.cell cell
  | .load result cell =>
    n.temp result ++ " = load " ++ cell.type.text ++ ", " ++ cell.type.text ++ "* " ++ n.cell cell
  | .icmpUgt result left right =>
    n.temp result ++ " = icmp ugt " ++ left.type.text ++ " " ++ n.value left ++ ", " ++
      n.value right
  | .zext result value =>
    n.temp result ++ " = zext " ++ value.type.text ++ " " ++ n.temp value ++ " to " ++
      result.type.text
  | .bitcast result text =>
    n.temp result ++ " = bitcast " ++ text.arrayType ++ "* " ++ text.ref ++ " to " ++
      result.type.text
  | .printf result format value =>
    n.temp result ++ " = call " ++ result.type.text ++ " (i8*, ...) @printf(" ++ format.type.text ++
      " " ++ n.temp format ++ ", " ++ value.type.text ++ " " ++ n.temp value ++ ")"
  | .exit status => "call void @exit(i32 " ++ Integer.text status ++ ")"

def Terminator.text (n : Numbering) : Terminator → String
  | .br target => "br label %" ++ target.text
  | .condBr condition then' else' =>
    "br i1 " ++ n.temp condition ++ ", label %" ++ then'.text ++ ", label %" ++ else'.text
  | .ret => "ret void"
  | .unreachable => "unreachable"

def Block.text (n : Numbering) (b : Block) : String :=
  b.name.text ++ ":\n" ++ String.join (b.instrs.map fun i => "\t" ++ i.text n ++ "\n") ++
    "\t" ++ b.terminator.text n ++ "\n"

namespace Definition

/-- A function without a name has the number zero. -/
def ref (d : Definition) : String :=
  if d.name = "" then "@0" else "@" ++ Name.text d.name

def text (d : Definition) : String :=
  "define " ++ (if d.isEntry then "i32" else "void") ++ " " ++ d.ref ++ "() \x7b\n" ++
    "\n".intercalate (d.blocks.map (Block.text d.numbering)) ++ "\x7d\n"

end Definition

namespace Module

def declarations : List String :=
  ["declare void @exit(i32 %status)\n", "declare i32 @printf(i8* %format, ...)\n"]

def text (m : Module) : String :=
  String.join (m.globals.map fun g => g.text ++ "\n") ++ "\n" ++
    "\n".intercalate (declarations ++ m.definitions.map Definition.text)

end Module

end DeltaLang.Ir
