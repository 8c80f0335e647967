import DeltaLang.Assembly.Listing
import DeltaLang.Text.Quoted

/-!
Assembly programs for x86-64, as far as generated code needs them, and their text in AT&T syntax.
-/

namespace DeltaLang.Assembly

inductive Width where
  | byte
  | long
  | quad
  deriving DecidableEq, Repr

inductive Register where
  | rax
  | rdi
  | rsi
  | rbp
  | rsp
  deriving DecidableEq, Repr

/-- What an instruction works on. `frame` is the memory at `offset` bytes below the frame
pointer. -/
inductive Operand where
  | immediate (value : Int)
  | register (register : Register)
  | frame (offset : Nat)
  deriving DecidableEq, Repr

/-- A name for a place in the program. -/
inductive Label where
  | function (name : String)
  | endif (owner : String) (index : Nat)
  | dump (owner : String) (index : Nat)
  deriving DecidableEq, Repr

inductive Instr where
  | push (register : Register)
  | mov (width : Width) (source target : Operand)
  | movzbl (source : Operand) (target : Register)
  | sub (amount : Nat) (target : Register)
  | cmpl (source : Operand) (target : Register)
  | jbe (target : Label)
  | lea (label : Label) (target : Register)
  | clear (target : Register)
  | call (function : String)
  | leave
  | ret
  deriving DecidableEq, Repr

/-- A line of a program. `string` is a label with a text that ends in a zero byte. -/
inductive Line where
  | directive (text : String)
  | label (name : Label)
  | instr (instr : Instr)
  | string (name : Label) (text : String)
  | blank
  deriving DecidableEq, Repr

namespace Width

def suffix : Width → String
  | .byte => "b"
  | .long => "l"
  | .quad => ""

end Width

namespace Register

def name : Width → Register → String
  | .byte, .rax => "%al"
  | .byte, .rdi => "%dil"
  | .byte, .rsi => "%sil"
  | .byte, .rbp => "%bpl"
  | .byte, .rsp => "%spl"
  | .long, .rax => "%eax"
  | .long, .rdi => "%edi"
  | .long, .rsi => "%esi"
  | .long, .rbp => "%ebp"
  | .long, .rsp => "%esp"
  | .quad, .rax => "%rax"
  | .quad, .rdi => "%rdi"
  | .quad, .rsi => "%rsi"
  | .quad, .rbp => "%rbp"
  | .quad, .rsp => "%rsp"

end Register

namespace Operand

def text (width : Width) : Operand → String
  | .immediate value => "$" ++ toString value
  | .register r => r.name width
  | .frame offset => toString (-(offset : Int)) ++ "(%rbp)"

end Operand

namespace Label

def text : Label → String
  | .function name => name
  | .endif owner index => ".L" ++ owner ++ "_endif" ++ toString index
  | .dump owner index => ".Ldump_" ++ owner ++ "_" ++ toString index

end Label

namespace Instr

/-- The text of an instruction, with a place for each operand. -/
def template : Instr → String
  | .push _ => "push %s"
  | .mov .. => "mov%s %s, %s"
  | .movzbl .. => "movzbl %s, %s"
  | .sub .. => "sub $%d, %s"
  | .cmpl .. => "cmpl %s, %s"
  | .jbe _ => "jbe %s"
  | .lea .. => "lea %s(%%rip), %s"
  | .clear _ => "xor %s, %s"
  | .call _ => "call %s@PLT"
  | .leave => "leave"
  | .ret => "ret"

def operands : Instr → List Template.Argument
  | .push register => [.text (register.name .quad)]
  | .mov width source target =>
    [.text width.suffix, .text (source.text width), .text (target.text width)]
  | .movzbl source target => [.text (source.text .byte), .text (target.name .long)]
  | .sub amount target => [.number amount, .text (target.name .quad)]
  | .cmpl source target => [.text (source.text .long), .text (target.name .long)]
  | .jbe target => [.text target.text]
  | .lea label target => [.text label.text, .text (target.name .quad)]
  | .clear target => [.text (target.name .long), .text (target.name .long)]
  | .call function => [.text function]
  | .leave | .ret => []

end Instr

namespace Listing

def add (l : Listing) : Line → Listing
  | .directive text => l.instr "%s" [.text text]
  | .label name => l.label name.text
  | .instr i => l.instr i.template i.operands
  | .string name text => l.value name.text (".asciz " ++ Quoted.quote text)
  | .blank => l.raw ""

def addAll (l : Listing) (lines : List Line) : Listing :=
  lines.foldl add l

end Listing

/-- The lines that end the program. -/
def exitLines (status : Int) : List Line :=
  [.instr (.mov .quad (.immediate status) (.register .rdi)), .instr (.call "exit")]

def Listing.exit (l : Listing) (status : Int) : Listing :=
  l.addAll (exitLines status)

/-- The lines of code of a program and the texts it prints with. -/
structure Program where
  code : List Line
  data : List Line
  deriving DecidableEq, Repr

namespace Program

def lines (p : Program) : List Line :=
  .directive ".text" :: p.code ++
    (if p.data.isEmpty then [] else .blank :: .directive ".section .rodata" :: p.data)

def text (p : Program) : String :=
  (Listing.empty.addAll p.lines).text

end Program

end DeltaLang.Assembly
