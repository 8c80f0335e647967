import DeltaLang.Proofs.Assembly.Acceptance
import DeltaLang.Proofs.Assembly.Machine
import DeltaLang.Proofs.Text.Identifier
import Mathlib.Data.List.Nodup

namespace DeltaLang.Assembly

def name? (text : List Char) : Option String :=
  if isIdentifier (String.ofList text) then some (String.ofList text) else none

theorem name?_eq {name : String} (proper : isIdentifier name = true) :
    name? name.toList = some name := by
  rw [name?, String.ofList_toList, if_pos proper]

namespace Label

def owner : Label → String
  | .function name => name
  | .endif owner _ => owner
  | .dump owner _ => owner

theorem endif_text (owner : String) (index : Nat) :
    (endif owner index).text.toList =
      '.' :: 'L' :: (owner.toList ++ "_endi".toList) ++ 'f' :: Nat.toDigits 10 index := by
  simp [text]

theorem dump_text (owner : String) (index : Nat) :
    (dump owner index).text.toList =
      '.' :: 'L' :: ("dump_".toList ++ owner.toList) ++ '_' :: Nat.toDigits 10 index := by
  simp [text]

def isChar (c : Char) : Bool :=
  c.isAlphanum || c = '_' || c = '.'

theorem all_isChar {label : Label} (proper : isIdentifier label.owner = true) :
    label.text.toList.all isChar = true := by
  have inOwner : label.owner.toList.all isChar = true := by
    rw [List.all_eq_true]
    intro c member
    rw [isChar, isIdentifier_chars proper c member, Bool.true_or]
  have inIndex (n : Nat) : (Nat.toDigits 10 n).all isChar = true := by
    rw [List.all_eq_true]
    intro c member
    have alphanumeric : c.isAlphanum = (c.isAlpha || c.isDigit) := rfl
    rw [isChar, alphanumeric, isDigit_of_toDigits member, Bool.or_true, Bool.true_or, Bool.true_or]
  cases label with
  | function name => exact inOwner
  | endif owner index =>
    have inName : owner.toList.all isChar = true := inOwner
    simp only [endif_text, List.all_append, List.all_cons, inName, inIndex]
    rfl
  | dump owner index =>
    have inName : owner.toList.all isChar = true := inOwner
    simp only [dump_text, List.all_append, List.all_cons, inName, inIndex]
    rfl

/-- Characters that do not stand in a label. -/
theorem not_mem_text {label : Label} (proper : isIdentifier label.owner = true) {c : Char}
    (strange : isChar c = false) : c ∉ label.text.toList := by
  intro member
  have inside := List.all_eq_true.mp (all_isChar proper) c member
  rw [strange] at inside
  cases inside

/-- A label from its text. -/
def read? (text : List Char) : Option Label :=
  match text.dropPrefix? ".L".toList with
  | none => (name? text).map .function
  | some inner => do
    let (stem, index) ← numbered? inner
    match stem.dropSuffix? "_endif".toList with
    | some owner => (name? owner).map fun owner => .endif owner index
    | none => do
      let tail ← stem.dropPrefix? "dump_".toList
      let owner ← tail.dropSuffix? "_".toList
      (name? owner).map fun owner => .dump owner index

theorem read?_text {label : Label} (proper : isIdentifier label.owner = true) :
    read? label.text.toList = some label := by
  cases label with
  | function name =>
    have read : name? name.toList = some name := name?_eq proper
    have plain : name.toList.dropPrefix? ".L".toList = none :=
      dropPrefix?_eq_none fun back shape => isIdentifier_head proper _ shape
    rw [read?, text, plain]
    simp only [read, Option.map_some]
  | endif owner index =>
    have read : name? owner.toList = some owner := name?_eq proper
    have inner : (endif owner index).text.toList.dropPrefix? ".L".toList =
        some (owner.toList ++ "_endi".toList ++ 'f' :: Nat.toDigits 10 index) := by
      rw [endif_text]
      exact dropPrefix?_append ".L".toList _
    have stem : (owner.toList ++ "_endi".toList ++ ['f']).dropSuffix? "_endif".toList =
        some owner.toList := by
      rw [List.append_assoc]
      exact dropSuffix?_append owner.toList "_endif".toList
    have number := numbered?_append (owner.toList ++ "_endi".toList) (c := 'f') rfl index
    simp only [read?, inner, number, Option.bind_eq_bind, Option.bind_some, stem, read,
      Option.map_some]
  | dump owner index =>
    have read : name? owner.toList = some owner := name?_eq proper
    have inner : (dump owner index).text.toList.dropPrefix? ".L".toList =
        some ("dump_".toList ++ owner.toList ++ '_' :: Nat.toDigits 10 index) := by
      rw [dump_text]
      exact dropPrefix?_append ".L".toList _
    have number := numbered?_append ("dump_".toList ++ owner.toList) (c := '_') rfl index
    have noBranch : ("dump_".toList ++ owner.toList ++ ['_']).dropSuffix? "_endif".toList =
        none := by
      apply dropSuffix?_eq_none
      intro front shape
      have split : front ++ "_endif".toList = (front ++ "_endi".toList) ++ ['f'] :=
        (List.append_assoc front "_endi".toList ['f']).symm
      rw [split] at shape
      exact absurd (List.append_inj' shape rfl).2 (by decide)
    have tail : ("dump_".toList ++ owner.toList ++ ['_']).dropPrefix? "dump_".toList =
        some (owner.toList ++ "_".toList) := by
      rw [List.append_assoc]
      exact dropPrefix?_append "dump_".toList _
    have stem := dropSuffix?_append owner.toList "_".toList
    simp only [read?, inner, number, Option.bind_eq_bind, Option.bind_some, noBranch, tail,
      stem, read, Option.map_some]

theorem text_inj {label other : Label} (first : isIdentifier label.owner = true)
    (second : isIdentifier other.owner = true) (same : label.text = other.text) :
    label = other := by
  have read := read?_text first
  rw [same, read?_text second] at read
  exact (Option.some.inj read).symm

end Label

def branches (body : List Stmt) : Nat :=
  body.countP fun s => s matches .branch ..

theorem branches_cons (s : Stmt) (rest : List Stmt) :
    branches (s :: rest) = branches [s] + branches rest := by
  rw [branches, ← List.singleton_append, List.countP_append]
  rfl

/-- The lines of a branch: a comparison, and code that is jumped over if it fails. -/
def branchLines (label : Label) (left right : Operand) (code : List Instr) : List Line :=
  [.instr (.mov .long left (.register .rax)), .instr (.cmpl right .rax), .instr (.jbe label)] ++
    code.map .instr ++ [.label label]

theorem branchLines_length (label : Label) (left right : Operand) (code : List Instr) :
    (branchLines label left right code).length = 3 + code.length + 1 := by
  simp only [branchLines, List.length_append, List.length_map, List.length_cons, List.length_nil]

/-- What a statement becomes. -/
inductive Emits (owner : String) (slots : List Slot) (state : State) :
    Stmt → List Line → State → Prop
  | declare {name : String} {value : Expr} {slot : Slot} {code : List Instr}
      (next : slots[state.next]? = some slot) (stored : store state.bound value slot = .ok code) :
      Emits owner slots state (.declare name value) (code.map .instr)
        { state with next := state.next + 1, bound := (name, slot) :: state.bound }
  | evaluate {e : Expr} {code : List Instr} (assigned : assign state.bound e = .ok code) :
      Emits owner slots state (.evaluate e) (code.map .instr) state
  | branch {condition : Expr} {body : List Stmt} {left right : Operand} {code : List Instr}
      (compared : operands state.bound condition = .ok (left, right))
      (inner : branchBody state.bound body = .ok code) :
      Emits owner slots state (.branch condition body)
        (branchLines (.endif owner state.labels) left right code)
        { state with labels := state.labels + 1 }

theorem emits_of_statement {owner : String} {slots : List Slot} {state after : State} {s : Stmt}
    {lines : List Line} (emitted : statement owner slots state s = .ok (lines, after)) :
    Emits owner slots state s lines after := by
  cases s with
  | declare name value =>
    simp only [statement] at emitted
    split at emitted
    · cases emitted
    · rename_i slot next
      obtain ⟨code, stored, same⟩ := bind_eq_ok.mp emitted
      cases same
      exact .declare next stored
  | evaluate e =>
    obtain ⟨code, assigned, same⟩ := bind_eq_ok.mp emitted
    cases same
    exact .evaluate assigned
  | branch condition body =>
    obtain ⟨⟨left, right⟩, compared, rest⟩ := bind_eq_ok.mp emitted
    obtain ⟨code, inner, same⟩ := bind_eq_ok.mp rest
    cases same
    exact .branch compared inner
  | hole => cases emitted
  | flowHole => cases emitted

theorem statements_eq_ok {owner : String} {slots : List Slot} {state after : State} {s : Stmt}
    {rest : List Stmt} {lines : List Line}
    (emitted : statements owner slots state (s :: rest) = .ok (lines, after)) :
    ∃ first between others, Emits owner slots state s first between ∧
      statements owner slots between rest = .ok (others, after) ∧ lines = first ++ others := by
  obtain ⟨⟨first, between⟩, head, tail⟩ := bind_eq_ok.mp emitted
  obtain ⟨⟨others, last⟩, later, same⟩ := bind_eq_ok.mp tail
  cases same
  exact ⟨first, between, others, emits_of_statement head, later, rfl⟩

theorem function_eq_ok {options : Options} {f : Function} {p : Program}
    (lowered : function options f = .ok p) :
    f.arguments = [] ∧ ∃ frame body state, Frame.layout f.body = .ok frame ∧
      statements f.name frame.slots .start f.body = .ok (body, state) ∧
      p = ⟨prologue f.name frame ++ body ++ trailer options f frame, texts options f frame⟩ := by
  have plain : f.arguments = [] := by
    by_contra arguments
    simp [function, arguments] at lowered
  rw [function_eq options plain] at lowered
  obtain ⟨frame, laid, rest⟩ := bind_eq_ok.mp lowered
  obtain ⟨⟨body, state⟩, emitted, same⟩ := bind_eq_ok.mp rest
  cases same
  exact ⟨plain, frame, body, state, laid, emitted, rfl⟩

/-- Every function of a program stands in it as it was lowered. -/
theorem functions_eq_ok {options : Options} {members : List Function} {program : Program}
    (lowered : functions options members = .ok program) {f : Function} (member : f ∈ members) :
    ∃ p, function options f = .ok p ∧ p.code <:+: program.code ∧ p.data <:+: program.data := by
  induction members generalizing program with
  | nil => cases member
  | cons first rest ih =>
    obtain ⟨p, head, tail⟩ := bind_eq_ok.mp lowered
    obtain ⟨others, later, same⟩ := bind_eq_ok.mp tail
    cases same
    rcases List.mem_cons.mp member with rfl | inRest
    · exact ⟨p, head, (List.prefix_append _ _).isInfix, (List.prefix_append _ _).isInfix⟩
    · obtain ⟨q, found, code, data⟩ := ih later inRest
      exact ⟨q, found, code.trans (List.suffix_append _ _).isInfix,
        data.trans (List.suffix_append _ _).isInfix⟩

@[simp]
theorem labels_append (front back : List Line) :
    labels (front ++ back) = labels front ++ labels back :=
  List.filterMap_append

@[simp]
theorem labels_instr (code : List Instr) : labels (code.map .instr) = [] := by
  simp [labels, Line.label?]

theorem Emits.labels_eq {owner : String} {slots : List Slot} {state after : State} {s : Stmt}
    {lines : List Line} (emitted : Emits owner slots state s lines after) :
    after.labels = state.labels + branches [s] ∧
      labels lines = (List.range' state.labels (branches [s])).map (Label.endif owner) := by
  cases emitted with
  | declare => exact ⟨rfl, labels_instr _⟩
  | evaluate => exact ⟨rfl, labels_instr _⟩
  | branch =>
    refine ⟨rfl, ?_⟩
    rw [branchLines, labels_append, labels_append, labels_instr]
    rfl

/-- The branches of a body are numbered in their order. -/
theorem statements_labels {owner : String} {slots : List Slot} {state after : State}
    {body : List Stmt} {lines : List Line}
    (emitted : statements owner slots state body = .ok (lines, after)) :
    after.labels = state.labels + branches body ∧
      labels lines = (List.range' state.labels (branches body)).map (Label.endif owner) := by
  induction body generalizing state lines with
  | nil =>
    cases emitted
    exact ⟨rfl, rfl⟩
  | cons s rest ih =>
    obtain ⟨first, between, others, head, tail, rfl⟩ := statements_eq_ok emitted
    obtain ⟨started, firstLabels⟩ := head.labels_eq
    obtain ⟨ended, otherLabels⟩ := ih tail
    have reached : state.labels + 1 * branches [s] = between.labels := by omega
    rw [branches_cons]
    refine ⟨by omega, ?_⟩
    rw [labels_append, firstLabels, otherLabels, ← List.range'_append, reached, List.map_append]

theorem function_code_labels {options : Options} {f : Function} {p : Program}
    (lowered : function options f = .ok p) :
    labels p.code =
      .function f.name :: (List.range (branches f.body)).map (Label.endif f.name) := by
  obtain ⟨-, frame, body, state, -, emitted, rfl⟩ := function_eq_ok lowered
  obtain ⟨-, inner⟩ := statements_labels emitted
  have opening : labels (prologue f.name frame) = [.function f.name] := rfl
  have closing : labels (trailer options f frame) = [] := by
    unfold trailer
    split
    · rfl
    · rw [labels_append, labels_instr]
      rfl
  rw [labels_append, labels_append, opening, closing, inner, List.append_nil, List.range_eq_range']
  rfl

theorem function_data_labels {options : Options} {f : Function} {p : Program}
    (lowered : function options f = .ok p) :
    ∃ count, labels p.data = (List.range count).map (Label.dump f.name) := by
  obtain ⟨-, frame, body, state, -, -, rfl⟩ := function_eq_ok lowered
  have dumped (slots : List Slot) :
      labels (dumpData f.name slots) = (List.range slots.length).map (Label.dump f.name) := by
    rw [labels, dumpData, List.filterMap_map, List.range_eq_range', ← List.zipIdx_map_snd 0 slots,
      List.map_map]
    exact congrFun (List.filterMap_eq_map' (f := Label.dump f.name ∘ Prod.snd)) _
  simp only [texts]
  split
  · exact ⟨0, rfl⟩
  · exact ⟨_, dumped _⟩

/-- The labels of some lines are different from each other, are of one kind and belong to the given
functions. -/
structure Owned (kind : Label → Prop) (names : List String) (lines : List Line) : Prop where
  once : (labels lines).Nodup
  owner : ∀ label ∈ labels lines, kind label ∧ label.owner ∈ names

theorem Owned.append {kind : Label → Prop} {name : String} {names : List String}
    {front back : List Line} (first : Owned kind [name] front) (rest : Owned kind names back)
    (new : name ∉ names) : Owned kind (name :: names) (front ++ back) := by
  constructor
  · rw [labels_append, List.nodup_append]
    refine ⟨first.once, rest.once, ?_⟩
    rintro label inFront _ inBack rfl
    have one := List.mem_singleton.mp (first.owner label inFront).2
    exact new (one ▸ (rest.owner label inBack).2)
  · intro label member
    rw [labels_append] at member
    rcases List.mem_append.mp member with inFront | inBack
    · obtain ⟨right, one⟩ := first.owner label inFront
      exact ⟨right, List.mem_cons.mpr (.inl (List.mem_singleton.mp one))⟩
    · obtain ⟨right, other⟩ := rest.owner label inBack
      exact ⟨right, List.mem_cons_of_mem name other⟩

def Label.IsDump (label : Label) : Prop :=
  ∃ owner index, label = .dump owner index

theorem function_owned {options : Options} {f : Function} {p : Program}
    (lowered : function options f = .ok p) :
    Owned (¬·.IsDump) [f.name] p.code ∧ Owned Label.IsDump [f.name] p.data := by
  have code := function_code_labels lowered
  obtain ⟨count, data⟩ := function_data_labels lowered
  refine ⟨⟨?_, ?_⟩, ⟨?_, ?_⟩⟩
  · rw [code, List.nodup_cons]
    refine ⟨by simp, List.nodup_range.map ?_⟩
    intro i j same
    cases same
    rfl
  · rw [code]
    intro label member
    rcases List.mem_cons.mp member with rfl | inner
    · exact ⟨nofun, List.mem_singleton.mpr rfl⟩
    · obtain ⟨index, -, rfl⟩ := List.mem_map.mp inner
      exact ⟨nofun, List.mem_singleton.mpr rfl⟩
  · rw [data]
    refine List.nodup_range.map ?_
    intro i j same
    cases same
    rfl
  · rw [data]
    intro label member
    obtain ⟨index, -, rfl⟩ := List.mem_map.mp member
    exact ⟨⟨f.name, index, rfl⟩, List.mem_singleton.mpr rfl⟩

theorem functions_owned {options : Options} {members : List Function} {program : Program}
    (lowered : functions options members = .ok program)
    (distinct : (members.map Function.name).Nodup) :
    Owned (¬·.IsDump) (members.map Function.name) program.code ∧
      Owned Label.IsDump (members.map Function.name) program.data := by
  induction members generalizing program with
  | nil =>
    cases lowered
    exact ⟨⟨.nil, by simp [labels]⟩, ⟨.nil, by simp [labels]⟩⟩
  | cons f rest ih =>
    obtain ⟨p, head, tail⟩ := bind_eq_ok.mp lowered
    obtain ⟨others, later, same⟩ := bind_eq_ok.mp tail
    cases same
    obtain ⟨new, distinct⟩ := List.nodup_cons.mp distinct
    obtain ⟨code, data⟩ := function_owned head
    obtain ⟨otherCode, otherData⟩ := ih later distinct
    exact ⟨code.append otherCode new, data.append otherData new⟩

theorem labels_lines (program : Program) :
    labels program.lines = labels program.code ++ labels program.data := by
  have start : labels program.lines = labels program.code ++
      labels (if program.data.isEmpty then []
        else .blank :: .directive ".section .rodata" :: program.data) := labels_append _ _
  rw [start]
  split
  · rename_i empty
    rw [List.isEmpty_iff.mp empty]
  · rfl

theorem generate_eq_ok {options : Options} {m : Module} {program : Program}
    (generated : generate options m = .ok program) :
    m.check options = .ok () ∧ functions options m.members = .ok program := by
  obtain ⟨_, checked, lowered⟩ := bind_eq_ok.mp generated
  exact ⟨checked, lowered⟩

theorem isIdentifier_owner {members : List Function} (distinct : Distinct members) {label : Label}
    (owned : label.owner ∈ members.map Function.name) : isIdentifier label.owner = true := by
  obtain ⟨f, member, same⟩ := List.mem_map.mp owned
  rw [← same]
  exact distinct.identifiers f member

theorem generate_owner {options : Options} {m : Module} {program : Program}
    (generated : generate options m = .ok program) (distinct : Distinct m.members) {label : Label}
    (member : label ∈ labels program.lines) : label.owner ∈ m.members.map Function.name := by
  obtain ⟨code, data⟩ := functions_owned (generate_eq_ok generated).2 distinct.once
  rw [labels_lines] at member
  rcases List.mem_append.mp member with inCode | inData
  · exact (code.owner label inCode).2
  · exact (data.owner label inData).2

/-- No name is defined twice. -/
theorem generate_labels_nodup {options : Options} {m : Module} {program : Program}
    (generated : generate options m = .ok program) (distinct : Distinct m.members) :
    ((labels program.lines).map Label.text).Nodup := by
  obtain ⟨code, data⟩ := functions_owned (generate_eq_ok generated).2 distinct.once
  refine List.Nodup.map_on ?_ ?_
  · intro label inLines other inLines' same
    exact Label.text_inj (isIdentifier_owner distinct (generate_owner generated distinct inLines))
      (isIdentifier_owner distinct (generate_owner generated distinct inLines')) same
  · rw [labels_lines, List.nodup_append]
    refine ⟨code.once, data.once, ?_⟩
    rintro label inCode _ inData rfl
    exact (code.owner label inCode).1 (data.owner label inData).1

/-- The functions that a program calls are not defined in it. -/
theorem builtin_not_label {options : Options} {m : Module} {program : Program}
    (generated : generate options m = .ok program) (distinct : Distinct m.members) {name : String}
    (builtin : name ∈ builtins) : ∀ label ∈ labels program.lines, label.text ≠ name := by
  have plain : ∀ rest, name.toList ≠ '.' :: rest := by
    simp only [builtins, List.mem_cons, List.not_mem_nil, or_false] at builtin
    rcases builtin with rfl | rfl <;> simp
  intro label member same
  cases label with
  | function f =>
    obtain ⟨g, present, rfl⟩ := List.mem_map.mp (generate_owner generated distinct member)
    exact ((Module.check_eq_ok (generate_eq_ok generated).1).2 name builtin).2 g present same
  | endif owner index =>
    rw [← same, Label.endif_text] at plain
    exact plain _ rfl
  | dump owner index =>
    rw [← same, Label.dump_text] at plain
    exact plain _ rfl

end DeltaLang.Assembly
