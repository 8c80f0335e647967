import DeltaLang.Proofs.Assembly.Simulation
import DeltaLang.Proofs.Text.Quoted

/-!
Reading assembly text. The reader knows the names of registers and mnemonics and the forms of labels
for itself, and what a program is printed as reads as the lines of the program.
-/

namespace DeltaLang

namespace Template

variable (rest : List Char) (arguments : List Argument)

@[simp]
theorem fillAll_nil : fillAll [] [] = "" := rfl

@[simp]
theorem fillAll_text (value : String) :
    fillAll ('%' :: 's' :: rest) (.text value :: arguments) = value ++ fillAll rest arguments :=
  rfl

@[simp]
theorem fillAll_number (value : Int) : fillAll ('%' :: 'd' :: rest) (.number value :: arguments) =
    toString value ++ fillAll rest arguments :=
  rfl

@[simp]
theorem fillAll_percent :
    fillAll ('%' :: '%' :: rest) arguments = "%" ++ fillAll rest arguments := rfl

@[simp]
theorem fillAll_char {c : Char} (plain : c ≠ '%') :
    fillAll (c :: rest) arguments = c.toString ++ fillAll rest arguments := by
  rw [fillAll]
  all_goals simp [plain]

end Template

namespace Assembly

/-- What stands before the first `c` of a text, and what stands behind it. -/
def cut (c : Char) (text : List Char) : Option (List Char × List Char) :=
  match text.dropWhile (· ≠ c) with
  | [] => none
  | _ :: behind => some (text.takeWhile (· ≠ c), behind)

/-- Two operands with a comma between them. -/
def pair? (text : List Char) : Option (List Char × List Char) := do
  let (source, behind) ← cut ',' text
  let target ← behind.dropPrefix? [' ']
  some (source, target)

def integer? (text : List Char) : Option Int :=
  if text.head? = some '-' then
    (Literal.numeral? (String.ofList text.tail)).map fun n : Nat => -(n : Int)
  else (Literal.numeral? (String.ofList text)).map Int.ofNat

/-- A register with the width at which a name reaches it. -/
def register? (name : String) : Option (Width × Register) :=
  match name with
  | "%al" => some (.byte, .rax)
  | "%eax" => some (.long, .rax)
  | "%rax" => some (.quad, .rax)
  | "%dil" => some (.byte, .rdi)
  | "%edi" => some (.long, .rdi)
  | "%rdi" => some (.quad, .rdi)
  | "%sil" => some (.byte, .rsi)
  | "%esi" => some (.long, .rsi)
  | "%rsi" => some (.quad, .rsi)
  | "%bpl" => some (.byte, .rbp)
  | "%ebp" => some (.long, .rbp)
  | "%rbp" => some (.quad, .rbp)
  | "%spl" => some (.byte, .rsp)
  | "%esp" => some (.long, .rsp)
  | "%rsp" => some (.quad, .rsp)
  | _ => none

def Register.read? (width : Width) (text : List Char) : Option Register := do
  let (found, register) ← register? (String.ofList text)
  if found = width then some register else none

def Operand.read? (width : Width) (text : List Char) : Option Operand :=
  if text.head? = some '$' then (integer? text.tail).map .immediate
  else if text.head? = some '%' then (Register.read? width text).map .register
  else do
    let number ← text.dropSuffix? "(%rbp)".toList
    let offset ← integer? number
    if offset ≤ 0 then some (.frame offset.natAbs) else none

namespace Instr

def move? (width : Width) (text : List Char) : Option Instr := do
  let (source, target) ← pair? text
  some (.mov width (← Operand.read? width source) (← Operand.read? width target))

def decode? (mnemonic : String) (text : List Char) : Option Instr :=
  match mnemonic with
  | "push" => (Register.read? .quad text).map .push
  | "mov" => move? .quad text
  | "movl" => move? .long text
  | "movb" => move? .byte text
  | "movzbl" => do
    let (source, target) ← pair? text
    some (.movzbl (← Operand.read? .byte source) (← Register.read? .long target))
  | "sub" => do
    let (source, target) ← pair? text
    match ← Operand.read? .quad source with
    | .immediate (.ofNat amount) => some (.sub amount (← Register.read? .quad target))
    | _ => none
  | "cmpl" => do
    let (source, target) ← pair? text
    some (.cmpl (← Operand.read? .long source) (← Register.read? .long target))
  | "jbe" => (Label.read? text).map .jbe
  | "lea" => do
    let (source, target) ← pair? text
    let label ← source.dropSuffix? "(%rip)".toList
    some (.lea (← Label.read? label) (← Register.read? .quad target))
  | "xor" => do
    let (source, target) ← pair? text
    if source = target then some (.clear (← Register.read? .long target)) else none
  | "call" => do
    let name ← text.dropSuffix? "@PLT".toList
    some (.call (← name? name))
  | _ => none

def read? (text : List Char) : Option Instr :=
  match cut ' ' text with
  | some (mnemonic, operands) => decode? (String.ofList mnemonic) operands
  | none =>
    if text = "leave".toList then some .leave
    else if text = "ret".toList then some .ret
    else none

end Instr

namespace Line

/-- A label at the front of a line, and the text behind it if there is one. -/
def definition? (text : List Char) : Option Line := do
  let (name, behind) ← cut ':' text
  let label ← Label.read? name
  if behind = [] then some (.label label)
  else do
    let quoted ← behind.dropPrefix? " .asciz ".toList
    (Unquote.unquote? (String.ofList quoted)).map (.string label)

def statement? (text : List Char) : Option Line :=
  if text.head? = some '.' then some (.directive (String.ofList text))
  else (Instr.read? text).map .instr

def read? (text : List Char) : Option Line :=
  if text = [] then some .blank
  else if text.head? = some ' ' then statement? (text.dropWhile (· = ' '))
  else definition? text

end Line

/-- The lines of a text, each with a line end behind it. -/
def readLines? (text : String) : Option (List Line) :=
  (text.toList.splitOn '\n').dropLast.mapM Line.read?

section Pieces

theorem cut_append {c : Char} {front : List Char} (absent : c ∉ front) (back : List Char) :
    cut c (front ++ c :: back) = some (front, back) := by
  have inFront : ∀ d ∈ front, decide (d ≠ c) = true := by
    intro d member
    apply decide_eq_true
    rintro rfl
    exact absent member
  have dropped : (front ++ c :: back).dropWhile (· ≠ c) = c :: back := by
    rw [List.dropWhile_append_of_pos inFront, List.dropWhile_cons_of_neg (by simp)]
  have taken : (front ++ c :: back).takeWhile (· ≠ c) = front := by
    rw [List.takeWhile_append_of_pos inFront, List.takeWhile_cons_of_neg (by simp),
      List.append_nil]
  rw [cut, dropped, taken]

theorem pair?_append {source : List Char} (absent : ',' ∉ source) (target : List Char) :
    pair? (source ++ ',' :: ' ' :: target) = some (source, target) := by
  simp [pair?, cut_append absent, List.dropPrefix?]

theorem toString_ofNat (n : Nat) : (toString (Int.ofNat n)).toList = Nat.toDigits 10 n := by
  simp [toString, Int.repr]

theorem toString_negSucc (n : Nat) :
    (toString (Int.negSucc n)).toList = '-' :: Nat.toDigits 10 (n + 1) := by
  simp [toString, Int.repr]

theorem toString_chars (n : Int) : ∀ c ∈ (toString n).toList, c.isDigit = true ∨ c = '-' := by
  intro c member
  cases n with
  | ofNat n =>
    rw [toString_ofNat] at member
    exact .inl (isDigit_of_toDigits member)
  | negSucc n =>
    rw [toString_negSucc, List.mem_cons] at member
    rcases member with sign | digit
    · exact .inr sign
    · exact .inl (isDigit_of_toDigits digit)

theorem toString_absent {c : Char} (digit : c.isDigit = false) (sign : c ≠ '-') (n : Int) :
    c ∉ (toString n).toList := by
  intro member
  rcases toString_chars n c member with isDigit | isSign
  · rw [isDigit] at digit
    cases digit
  · exact sign isSign

theorem head?_toString (n : Int) :
    ∃ c, (toString n).toList.head? = some c ∧ (c.isDigit = true ∨ c = '-') := by
  have filled : (toString n).toList ≠ [] := by
    cases n with
    | ofNat n =>
      rw [toString_ofNat]
      exact Nat.toDigits_ne_nil
    | negSucc n =>
      rw [toString_negSucc]
      exact List.cons_ne_nil _ _
  exact ⟨_, List.head?_eq_some_head filled, toString_chars n _ (List.head_mem filled)⟩

theorem integer?_toString (n : Int) : integer? (toString n).toList = some n := by
  cases n with
  | ofNat n =>
    have unsigned : (Nat.toDigits 10 n).head? ≠ some '-' := by
      intro sign
      exact absurd (isDigit_of_toDigits (List.mem_of_head? sign)) (by decide)
    rw [toString_ofNat, integer?, if_neg unsigned, Literal.numeral?_toDigits, Option.map_some]
  | negSucc n =>
    rw [toString_negSucc, integer?, if_pos List.head?_cons, List.tail_cons,
      Literal.numeral?_toDigits, Option.map_some]
    rfl

theorem Register.read?_name (width : Width) (r : Register) :
    Register.read? width (r.name width).toList = some r := by
  rw [Register.read?, String.ofList_toList]
  cases width <;> cases r <;> rfl

theorem Operand.read?_text (width : Width) (o : Operand) :
    Operand.read? width (o.text width).toList = some o := by
  cases o with
  | immediate value =>
    have text : ((Operand.immediate value).text width).toList = '$' :: (toString value).toList := by
      simp [Operand.text]
    rw [text, Operand.read?, if_pos List.head?_cons, List.tail_cons, integer?_toString,
      Option.map_some]
  | register r =>
    have text : (Operand.register r).text width = r.name width := rfl
    have first : (r.name width).toList.head? = some '%' := by
      cases width <;> cases r <;> rfl
    rw [text, Operand.read?, if_neg (by simp [first]), if_pos first, Register.read?_name,
      Option.map_some]
  | frame offset =>
    have text : ((Operand.frame offset).text width).toList =
        (toString (-(offset : Int))).toList ++ "(%rbp)".toList :=
      String.toList_append
    obtain ⟨c, head, first⟩ := head?_toString (-(offset : Int))
    have begins : ((toString (-(offset : Int))).toList ++ "(%rbp)".toList).head? = some c := by
      rw [List.head?_append, head]
      rfl
    have noImmediate : c ≠ '$' := by
      rintro rfl
      exact absurd first (by decide)
    have noRegister : c ≠ '%' := by
      rintro rfl
      exact absurd first (by decide)
    rw [text, Operand.read?, begins, if_neg (by simpa using noImmediate),
      if_neg (by simpa using noRegister), dropSuffix?_append]
    simp only [integer?_toString, Option.bind_eq_bind, Option.bind_some]
    rw [if_pos (by omega), Int.natAbs_neg, Int.natAbs_natCast]

/-- Characters that end an operand or a line. -/
def isEnd (c : Char) : Bool :=
  c = ',' || c = '\n'

theorem isEnd_cases {c : Char} (ends : isEnd c = true) : c = ',' ∨ c = '\n' := by
  simpa [isEnd] using ends

theorem Register.not_mem_name {c : Char} (ends : isEnd c = true) (width : Width) (r : Register) :
    c ∉ (r.name width).toList := by
  rcases isEnd_cases ends with rfl | rfl <;> cases width <;> cases r <;> decide

theorem Operand.not_mem_text {c : Char} (ends : isEnd c = true) (width : Width) (o : Operand) :
    c ∉ (o.text width).toList := by
  have inNumber (n : Int) : c ∉ (toString n).toList := by
    rcases isEnd_cases ends with rfl | rfl <;> exact toString_absent rfl (by decide) n
  cases o with
  | immediate value =>
    have sign : c ≠ '$' := by
      rintro rfl
      cases ends
    simpa [Operand.text, sign] using inNumber value
  | register r => exact Register.not_mem_name ends width r
  | frame offset =>
    have base : c ∉ "(%rbp)".toList := by
      rcases isEnd_cases ends with rfl | rfl <;> decide
    rw [Operand.text, String.toList_append, List.mem_append, not_or]
    exact ⟨inNumber _, base⟩

theorem Label.not_end {label : Label} (proper : isIdentifier label.owner = true) {c : Char}
    (ends : isEnd c = true) : c ∉ label.text.toList := by
  apply Label.not_mem_text proper
  rcases isEnd_cases ends with rfl | rfl <;> rfl

end Pieces

namespace Instr

/-- What an instruction is printed as. -/
def text (i : Instr) : List Char :=
  (Template.format i.template i.operands).toList

/-- Only names have to be proper for an instruction to be read back. -/
def Readable : Instr → Prop
  | .jbe label | .lea label _ => isIdentifier label.owner = true
  | .call function => isIdentifier function = true
  | _ => True

theorem read?_words {mnemonic : String} (absent : ' ' ∉ mnemonic.toList) (operands : List Char) :
    read? (mnemonic.toList ++ ' ' :: operands) = decode? mnemonic operands := by
  simp only [read?, cut_append absent, String.ofList_toList]

/-- Two operands are read one by one. -/
theorem pair?_operands (width : Width) (source : Operand) (target : List Char) :
    pair? ((source.text width).toList ++ ',' :: ' ' :: target) =
      some ((source.text width).toList, target) :=
  pair?_append (source.not_mem_text rfl width) target

theorem read?_text {i : Instr} (readable : i.Readable) : read? i.text = some i := by
  cases i with
  | push r =>
    have words : (push r).text = "push".toList ++ ' ' :: (r.name .quad).toList := by
      simp [text, template, operands, Template.format]
    rw [words, read?_words (by decide)]
    simp only [decode?, Register.read?_name, Option.map_some]
  | mov width source target =>
    have words : (mov width source target).text = ("mov" ++ width.suffix).toList ++ ' ' ::
        ((source.text width).toList ++ ',' :: ' ' :: (target.text width).toList) := by
      simp [text, template, operands, Template.format]
    have moved : move? width ((source.text width).toList ++ ',' :: ' ' ::
        (target.text width).toList) = some (.mov width source target) := by
      simp only [move?, pair?_operands, Operand.read?_text, Option.bind_eq_bind, Option.bind_some]
    rw [words]
    cases width with
    | byte => exact (read?_words (by decide) _).trans moved
    | long => exact (read?_words (by decide) _).trans moved
    | quad => exact (read?_words (by decide) _).trans moved
  | movzbl source target =>
    have words : (movzbl source target).text = "movzbl".toList ++ ' ' ::
        ((source.text .byte).toList ++ ',' :: ' ' :: (target.name .long).toList) := by
      simp [text, template, operands, Template.format]
    rw [words, read?_words (by decide)]
    simp only [decode?, pair?_operands, Operand.read?_text, Register.read?_name,
      Option.bind_eq_bind, Option.bind_some]
  | sub amount target =>
    have words : (sub amount target).text = "sub".toList ++ ' ' ::
        (((Operand.immediate amount).text .quad).toList ++ ',' :: ' ' ::
          (target.name .quad).toList) := by
      simp [text, template, operands, Template.format, Operand.text]
    rw [words, read?_words (by decide)]
    simp only [decode?, pair?_operands, Operand.read?_text, Register.read?_name,
      Option.bind_eq_bind, Option.bind_some]
  | cmpl source target =>
    have words : (cmpl source target).text = "cmpl".toList ++ ' ' ::
        ((source.text .long).toList ++ ',' :: ' ' :: (target.name .long).toList) := by
      simp [text, template, operands, Template.format]
    rw [words, read?_words (by decide)]
    simp only [decode?, pair?_operands, Operand.read?_text, Register.read?_name,
      Option.bind_eq_bind, Option.bind_some]
  | jbe target =>
    have words : (jbe target).text = "jbe".toList ++ ' ' :: target.text.toList := by
      simp [text, template, operands, Template.format]
    rw [words, read?_words (by decide)]
    simp only [decode?, Label.read?_text readable, Option.map_some]
  | lea label target =>
    have words : (lea label target).text = "lea".toList ++ ' ' ::
        ((label.text.toList ++ "(%rip)".toList) ++ ',' :: ' ' :: (target.name .quad).toList) := by
      simp [text, template, operands, Template.format]
    have absent : ',' ∉ label.text.toList ++ "(%rip)".toList := by
      rw [List.mem_append, not_or]
      exact ⟨Label.not_end readable rfl, by decide⟩
    rw [words, read?_words (by decide)]
    simp only [decode?, pair?_append absent, dropSuffix?_append, Label.read?_text readable,
      Register.read?_name, Option.bind_eq_bind, Option.bind_some]
  | clear target =>
    have words : (clear target).text = "xor".toList ++ ' ' ::
        ((target.name .long).toList ++ ',' :: ' ' :: (target.name .long).toList) := by
      simp [text, template, operands, Template.format]
    have pair := pair?_append (Register.not_mem_name rfl .long target) (target.name .long).toList
    rw [words, read?_words (by decide)]
    simp only [decode?, pair, Register.read?_name, Option.bind_eq_bind, Option.bind_some, if_true]
  | call function =>
    have words : (call function).text = "call".toList ++ ' ' ::
        (function.toList ++ "@PLT".toList) := by
      simp [text, template, operands, Template.format]
    rw [words, read?_words (by decide)]
    simp only [decode?, dropSuffix?_append, name?_eq readable, Option.bind_eq_bind,
      Option.bind_some]
  | leave => rfl
  | ret => rfl

theorem text_head (i : Instr) : ∃ c rest, i.text = c :: rest ∧ c ≠ ' ' ∧ c ≠ '.' := by
  cases i <;> simp [text, template, operands, Template.format]

theorem line_not_mem_text {i : Instr} (readable : i.Readable) : '\n' ∉ i.text := by
  have inRegister (width : Width) (r : Register) := r.not_mem_name (c := '\n') rfl width
  have inOperand (width : Width) (o : Operand) := o.not_mem_text (c := '\n') rfl width
  have inNumber (n : Int) := toString_absent (c := '\n') rfl (by decide) n
  cases i with
  | push r => simp [text, template, operands, Template.format, inRegister]
  | mov width source target =>
    have inSuffix : '\n' ∉ width.suffix.toList := by cases width <;> decide
    simp [text, template, operands, Template.format, inOperand, inSuffix]
  | movzbl source target => simp [text, template, operands, Template.format, inOperand, inRegister]
  | sub amount target =>
    have inAmount := inNumber amount
    simpa [text, template, operands, Template.format, inRegister] using inAmount
  | cmpl source target => simp [text, template, operands, Template.format, inOperand, inRegister]
  | jbe target =>
    have inLabel : '\n' ∉ target.text.toList := Label.not_end readable rfl
    simp [text, template, operands, Template.format, inLabel]
  | lea label target =>
    have inLabel : '\n' ∉ label.text.toList := Label.not_end readable rfl
    simp [text, template, operands, Template.format, inLabel, inRegister]
  | clear target => simp [text, template, operands, Template.format, inRegister]
  | call function =>
    have inName : '\n' ∉ function.toList := isIdentifier_absent readable rfl
    simp [text, template, operands, Template.format, inName]
  | leave => decide
  | ret => decide

end Instr

namespace Line

/-- A line by itself. -/
def text (line : Line) : String :=
  "\n".intercalate (Listing.empty.add line).lines

/-- A line that is read back: its names are identifiers, and a directive looks like one. -/
def Readable : Line → Prop
  | .directive text => text.toList.head? = some '.' ∧ '\n' ∉ text.toList
  | .label name | .string name _ => isIdentifier name.owner = true
  | .instr i => i.Readable
  | .blank => True

theorem add_eq (l : Listing) (line : Line) : l.add line = l.raw line.text := by
  cases line <;> simp [text, Listing.add, Listing.raw, Listing.instr, Listing.label, Listing.value,
    Listing.empty]

theorem text_directive (directive : String) :
    (Line.directive directive).text.toList = "    ".toList ++ directive.toList := by
  simp [text, Listing.add, Listing.instr, Listing.raw, Listing.empty, Listing.indentation,
    Template.format]

theorem text_label (name : Label) :
    (Line.label name).text.toList = name.text.toList ++ [':'] := by
  simp [text, Listing.add, Listing.label, Listing.raw, Listing.empty]

theorem text_instr (i : Instr) : (Line.instr i).text.toList = "    ".toList ++ i.text := by
  simp [text, Instr.text, Listing.add, Listing.instr, Listing.raw, Listing.empty,
    Listing.indentation]

theorem text_string (name : Label) (value : String) :
    (Line.string name value).text.toList =
      name.text.toList ++ ':' :: (" .asciz ".toList ++ (Quoted.quote value).toList) := by
  simp [text, Listing.add, Listing.value, Listing.raw, Listing.empty]

/-- A line that begins with a label is no other line. -/
theorem read?_definition {label : Label} (proper : isIdentifier label.owner = true)
    (behind : List Char) :
    read? (label.text.toList ++ behind) = definition? (label.text.toList ++ behind) := by
  have blank : ' ' ∉ label.text.toList := Label.not_mem_text proper rfl
  cases shape : label.text.toList with
  | nil =>
    have read := Label.read?_text proper
    rw [shape] at read
    cases read
  | cons c rest =>
    rw [shape, List.mem_cons, not_or] at blank
    rw [List.cons_append, read?, if_neg (List.cons_ne_nil _ _), List.head?_cons, if_neg]
    intro same
    exact blank.1 (Option.some.inj same).symm

theorem read?_indented {text : List Char} (first : text.head?.all (· ≠ ' ') = true) :
    read? ("    ".toList ++ text) = statement? text := by
  cases text with
  | nil => rfl
  | cons c rest =>
    have visible : c ≠ ' ' := by simpa using first
    simp [read?, visible]

theorem read?_text {line : Line} (readable : line.Readable) :
    read? line.text.toList = some line := by
  cases line with
  | directive directive =>
    obtain ⟨dot, -⟩ := readable
    have first : directive.toList.head?.all (· ≠ ' ') = true := by rw [dot]; rfl
    rw [text_directive, read?_indented first, statement?, if_pos dot, String.ofList_toList]
  | label name =>
    have place := cut_append (Label.not_mem_text readable (c := ':') rfl) []
    rw [text_label, read?_definition readable]
    simp only [definition?, place, Label.read?_text readable, Option.bind_eq_bind,
      Option.bind_some, if_true]
  | instr i =>
    obtain ⟨c, rest, shape, blank, dot⟩ := i.text_head
    have first : i.text.head?.all (· ≠ ' ') = true := by simp [shape, blank]
    have noDirective : i.text.head? ≠ some '.' := by simp [shape, dot]
    rw [text_instr, read?_indented first, statement?, if_neg noDirective,
      Instr.read?_text readable, Option.map_some]
  | string name value =>
    have place := cut_append (Label.not_mem_text readable (c := ':') rfl)
      (" .asciz ".toList ++ (Quoted.quote value).toList)
    have filled : " .asciz ".toList ++ (Quoted.quote value).toList ≠ [] := by simp
    rw [text_string, read?_definition readable]
    simp only [definition?, place, Label.read?_text readable, filled, dropPrefix?_append,
      String.ofList_toList, Unquote.unquote?_quote, Option.bind_eq_bind, Option.bind_some,
      Option.map_some, if_false]
  | blank => rfl

theorem line_not_mem_text {line : Line} (readable : line.Readable) : '\n' ∉ line.text.toList := by
  cases line with
  | directive directive => simpa [text_directive] using readable.2
  | label name => simpa [text_label] using Label.not_end readable (c := '\n') rfl
  | instr i => simpa [text_instr] using Instr.line_not_mem_text readable
  | string name value =>
    have inLabel := Label.not_end readable (c := '\n') rfl
    simpa [text_string, inLabel] using Unquote.line_not_mem_quote value
  | blank => decide

end Line

theorem lines_addAll (l : Listing) (lines : List Line) :
    (l.addAll lines).lines = l.lines ++ lines.map Line.text := by
  induction lines generalizing l with
  | nil => rw [List.map_nil, List.append_nil]; rfl
  | cons line rest ih =>
    have step : l.addAll (line :: rest) = (l.add line).addAll rest := rfl
    rw [step, ih, Line.add_eq, Listing.raw, List.append_assoc]
    rfl

theorem intercalate_concat_nil {lines : List (List Char)} (filled : lines ≠ []) :
    ['\n'].intercalate (lines ++ [[]]) = ['\n'].intercalate lines ++ ['\n'] := by
  induction lines with
  | nil => exact absurd rfl filled
  | cons line rest ih =>
    cases rest with
    | nil => simp
    | cons next rest =>
      rw [List.cons_append, List.cons_append, List.intercalate_cons_cons, ← List.cons_append,
        ih (List.cons_ne_nil _ _), List.intercalate_cons_cons]
      simp only [List.append_assoc]

theorem toList_text (program : Program) : program.text.toList =
    ['\n'].intercalate (program.lines.map (·.text.toList) ++ [[]]) := by
  rw [intercalate_concat_nil (by simp [Program.lines]), Program.text, Listing.text, lines_addAll,
    String.toList_append, String.toList_intercalate]
  simp [Listing.empty, Function.comp_def]

theorem mapM_read? {lines : List Line} (readable : ∀ line ∈ lines, line.Readable) :
    (lines.map (·.text.toList)).mapM Line.read? = some lines := by
  induction lines with
  | nil => rfl
  | cons line rest ih =>
    rw [List.forall_mem_cons] at readable
    rw [List.map_cons, List.mapM_cons, Line.read?_text readable.1, ih readable.2]
    rfl

/-- What is printed is read back, line by line. -/
theorem readLines?_text {program : Program} (readable : ∀ line ∈ program.lines, line.Readable) :
    readLines? program.text = some program.lines := by
  have oneLine : ∀ text ∈ program.lines.map (·.text.toList) ++ [[]], '\n' ∉ text := by
    intro text member
    rcases List.mem_append.mp member with printed | last
    · obtain ⟨line, inProgram, rfl⟩ := List.mem_map.mp printed
      exact Line.line_not_mem_text (readable line inProgram)
    · rw [List.mem_singleton.mp last]
      exact List.not_mem_nil
  rw [readLines?, toList_text, List.splitOn_intercalate '\n' oneLine (by simp),
    List.dropLast_concat, mapM_read? readable]

example : readLines? "    .globl f\nf:\n    movl $7, -4(%rbp)\n    jbe .Lf_endif0\n.Lf_endif0:\n" =
    some [.directive ".globl f", .label (.function "f"),
      .instr (.mov .long (.immediate 7) (.frame 4)), .instr (.jbe (.endif "f" 0)),
      .label (.endif "f" 0)] := by
  decide +kernel

section Generated

theorem BodyLine.readable {owner : String} (proper : isIdentifier owner = true) {line : Line}
    (shape : BodyLine owner line) : line.Readable := by
  cases shape with
  | @move i move =>
    cases i with
    | mov => trivial
    | _ => exact move.elim
  | compare => trivial
  | jump => exact proper
  | label => exact proper

theorem prologue_readable {name : String} (proper : isIdentifier name = true) (frame : Frame) :
    ∀ line ∈ prologue name frame, line.Readable := by
  have inName : '\n' ∉ name.toList := isIdentifier_absent proper rfl
  have exported : (Line.directive (".globl " ++ name)).Readable :=
    ⟨by simp, by simpa using inName⟩
  simp only [prologue, List.forall_mem_cons]
  exact ⟨exported, proper, trivial, trivial, trivial, nofun⟩

theorem dumpCode_readable {owner : String} (proper : isIdentifier owner = true)
    (slots : List Slot) : ∀ i ∈ dumpCode owner slots, i.Readable := by
  intro i member
  obtain ⟨part, inParts, inPart⟩ := List.mem_flatten.mp member
  obtain ⟨⟨slot, index⟩, -, rfl⟩ := List.mem_map.mp inParts
  simp only [dumpSlot, List.mem_cons, List.not_mem_nil, or_false] at inPart
  rcases inPart with rfl | rfl | rfl | rfl
  · exact proper
  · split <;> trivial
  · trivial
  · exact (by decide : isIdentifier "printf" = true)

theorem trailer_readable (options : Options) {f : Function} (proper : isIdentifier f.name = true)
    (frame : Frame) : ∀ line ∈ trailer options f frame, line.Readable := by
  intro line member
  unfold trailer at member
  split at member
  · simp only [List.mem_cons, List.not_mem_nil, or_false] at member
    rcases member with rfl | rfl <;> trivial
  · rcases List.mem_append.mp member with printing | ending
    · obtain ⟨i, inCode, rfl⟩ := List.mem_map.mp printing
      exact dumpCode_readable proper _ i inCode
    · simp only [List.mem_cons, List.not_mem_nil, or_false] at ending
      rcases ending with rfl | rfl
      · trivial
      · exact (by decide : isIdentifier "exit" = true)

theorem texts_readable (options : Options) {f : Function} (proper : isIdentifier f.name = true)
    (frame : Frame) : ∀ line ∈ texts options f frame, line.Readable := by
  intro line member
  unfold texts at member
  split at member
  · cases member
  · obtain ⟨⟨slot, index⟩, -, rfl⟩ := List.mem_map.mp member
    exact proper

theorem function_readable {options : Options} {f : Function} {p : Program}
    (lowered : function options f = .ok p) (proper : isIdentifier f.name = true) :
    (∀ line ∈ p.code, line.Readable) ∧ ∀ line ∈ p.data, line.Readable := by
  obtain ⟨-, frame, body, state, -, emitted, rfl⟩ := function_eq_ok lowered
  refine ⟨?_, texts_readable options proper frame⟩
  intro line member
  rw [List.mem_append, List.mem_append] at member
  rcases member with (opening | inBody) | closing
  · exact prologue_readable proper frame line opening
  · exact (statements_bodyLine emitted line inBody).readable proper
  · exact trailer_readable options proper frame line closing

theorem functions_readable {options : Options} {members : List Function} {program : Program}
    (lowered : functions options members = .ok program)
    (proper : ∀ f ∈ members, isIdentifier f.name = true) :
    (∀ line ∈ program.code, line.Readable) ∧ ∀ line ∈ program.data, line.Readable := by
  induction members generalizing program with
  | nil =>
    cases lowered
    simp
  | cons f rest ih =>
    obtain ⟨p, head, tail⟩ := bind_eq_ok.mp lowered
    obtain ⟨others, later, same⟩ := bind_eq_ok.mp tail
    cases same
    rw [List.forall_mem_cons] at proper
    obtain ⟨code, data⟩ := function_readable head proper.1
    obtain ⟨otherCode, otherData⟩ := ih later proper.2
    exact ⟨List.forall_mem_append.mpr ⟨code, otherCode⟩,
      List.forall_mem_append.mpr ⟨data, otherData⟩⟩

theorem generate_readable {options : Options} {m : Module} {program : Program}
    (generated : generate options m = .ok program) (distinct : Distinct m.members) :
    ∀ line ∈ program.lines, line.Readable := by
  obtain ⟨code, data⟩ := functions_readable (generate_eq_ok generated).2 distinct.identifiers
  intro line member
  rw [Program.lines, List.cons_append, List.mem_cons, List.mem_append] at member
  rcases member with rfl | inCode | behind
  · exact ⟨rfl, by decide⟩
  · exact code line inCode
  · split at behind
    · cases behind
    · rw [List.mem_cons, List.mem_cons] at behind
      rcases behind with rfl | rfl | inData
      · trivial
      · exact ⟨rfl, by decide⟩
      · exact data line inData

/-- The text of a generated program is that of its lines. -/
theorem generate_read {options : Options} {m : Module} {program : Program}
    (generated : generate options m = .ok program) (distinct : Distinct m.members) :
    readLines? program.text = some program.lines :=
  readLines?_text (generate_readable generated distinct)

/-- Assembly text with the addresses of its labels and the library that it is linked to. -/
def Image.load? (text : String) (address : String → Word) (library : Library) : Option Image :=
  (readLines? text).map fun lines => ⟨lines, address, library⟩

theorem generate_load {options : Options} {m : Module} {program : Program}
    (generated : generate options m = .ok program) (distinct : Distinct m.members)
    (address : String → Word) (library : Library) :
    Image.load? program.text address library = some ⟨program.lines, address, library⟩ := by
  rw [Image.load?, generate_read generated distinct, Option.map_some]

end Generated

end Assembly

end DeltaLang
