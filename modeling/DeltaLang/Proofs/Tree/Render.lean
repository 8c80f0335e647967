import DeltaLang.Tree.Render
import DeltaLang.Token.Lexer
import DeltaLang.Proofs.Token.Words
import DeltaLang.Proofs.Tree.Parser

namespace DeltaLang

section WellFormed

def Expr.isOperand : Expr → Bool
  | .var name => isName name
  | .lit value type => type == .number && isNumeral value
  | .hole | .binary .. => false

def Operator.links : Operator → Bool
  | .add | .greater => true
  | .assign | .other _ => false

/-- A chain of operands. It associates to the right, so no operand but the last is a chain. -/
def Expr.isWellFormed : Expr → Bool
  | .binary left op right => left.isOperand && op.links && right.isWellFormed
  | e => e.isOperand

mutual

def Stmt.isWellFormed : Stmt → Bool
  | .declare name value => isName name && value.isWellFormed
  | .evaluate (.binary (.var name) .assign value) => isName name && value.isWellFormed
  | .branch condition body => condition.isWellFormed && Stmt.allWellFormed body
  | _ => false

def Stmt.allWellFormed : List Stmt → Bool
  | [] => true
  | s :: rest => s.isWellFormed && Stmt.allWellFormed rest

end

/-- A function that the language has a text for. -/
def Function.isWellFormed (f : Function) : Bool :=
  isName f.name && f.arguments.isEmpty && f.result.all isName && Stmt.allWellFormed f.body

end WellFormed

section Words

def Operator.symbol : Operator → Symbol
  | .add => .add
  | .greater => .greater
  | .assign => .assign
  | .other code => .other code

def Expr.words : Expr → List Word
  | .hole => []
  | .var name => [(.identifier, name)]
  | .lit value type => [(.literal type, value)]
  | .binary left op right => left.words ++ op.symbol.word :: right.words

mutual

def Stmt.words : Stmt → List Word
  | .hole | .flowHole => []
  | .declare name value =>
    Keyword.declare.word :: (.identifier, name) :: Symbol.assign.word ::
      (value.words ++ [Symbol.semicolon.word])
  | .evaluate expr => expr.words ++ [Symbol.semicolon.word]
  | .branch condition body =>
    Keyword.condition.word :: (condition.words ++
      Symbol.openBrace.word :: (Stmt.wordsAll body ++ [Symbol.closeBrace.word]))

def Stmt.wordsAll : List Stmt → List Word
  | [] => []
  | s :: rest => s.words ++ Stmt.wordsAll rest

end

def resultWords : Option String → List Word
  | none => []
  | some name => [Symbol.arrow.word, (.identifier, name)]

/-- The words of a function, in the order of its text. -/
def Function.words (f : Function) : List Word :=
  Keyword.function.word :: (.identifier, f.name) :: Symbol.openParen.word ::
    Symbol.closeParen.word :: (resultWords f.result ++
      Symbol.openBrace.word :: (Stmt.wordsAll f.body ++ [Symbol.closeBrace.word]))

end Words

section Spelling

open Lexer

/-- What can stand behind any word without becoming part of it. -/
structure Apart (rest : List UInt8) : Prop where
  noWord : ¬Begins wordChar rest
  noEquals : rest.head? ≠ some 0x3D

theorem apart_nil : Apart [] :=
  ⟨by simp [Begins], by simp⟩

theorem apart_space (rest : List UInt8) : Apart (0x20 :: rest) where
  noWord := by
    rintro ⟨b, tail, same, word⟩
    obtain ⟨rfl, -⟩ := List.cons.inj same
    revert word
    decide
  noEquals := by simp

/-- A text is read as these words wherever nothing behind it makes its last word longer. -/
def Spells (text : String) (words : List Word) : Prop :=
  ∀ rest others, Apart rest → Reads rest others → Reads (Utf8.encode text ++ rest) (words ++ others)

namespace Spells

variable {s t : String} {first second : List Word}

theorem empty : Spells "" [] := fun _ _ _ reads => reads

theorem name (named : isName s = true) : Spells s [(.identifier, s)] :=
  fun _ _ apart reads => .word (lexeme_name named apart.noWord) reads

theorem numeral (numeral : isNumeral s = true) : Spells s [(.literal .number, s)] :=
  fun _ _ apart reads => .word (lexeme_numeral numeral apart.noWord) reads

theorem keyword {k : Keyword} (known : k ∈ Keyword.all) : Spells k.spelling [k.word] :=
  fun _ _ apart reads => .word (.keyword known apart.noWord) reads

theorem symbol {s : Symbol} (known : s ∈ Symbol.all) : Spells s.spelling [s.word] :=
  fun _ _ apart reads => .word (lexeme_symbol known apart.noEquals) reads

/-- Two texts side by side, where the second one begins with no part of a word. -/
theorem beside (left : Spells s first) (right : Spells t second)
    (keeps : ∀ rest, Apart rest → Apart (Utf8.encode t ++ rest)) :
    Spells (s ++ t) (first ++ second) := by
  intro rest others apart reads
  rw [Utf8.encode_append, List.append_assoc, List.append_assoc]
  exact left _ _ (keeps rest apart) (right rest others apart reads)

theorem encode_space : Utf8.encode " " = [0x20] := by
  decide

theorem spaced (left : Spells s first) (right : Spells t second) :
    Spells (s ++ " " ++ t) (first ++ second) := by
  have space : Spells (" " ++ t) second := by
    intro rest others apart reads
    rw [Utf8.encode_append, encode_space]
    exact .separator ((blank_iff 0x20).mp (.inl rfl)) (right rest others apart reads)
  rw [String.append_assoc]
  apply left.beside space
  intro rest _
  rw [Utf8.encode_append, encode_space]
  exact apart_space _

theorem head_of_symbol : ∀ y ∈ Symbol.all, y ≠ .assign →
    (Utf8.encode y.spelling).head? ≠ some 0x3D := by
  decide

/-- A symbol right behind a word or a symbol. -/
theorem closed {y : Symbol} (left : Spells s first) (known : y ∈ Symbol.all)
    (other : y ≠ .assign) : Spells (s ++ y.spelling) (first ++ [y.word]) := by
  apply left.beside (.symbol known)
  intro rest _
  obtain ⟨b, tail, spelled⟩ := List.exists_cons_of_ne_nil (symbol_spelling_filled y known)
  have plain := (symbol_spelling_plain y known b (by simp [spelled])).2.2
  have equals := head_of_symbol y known other
  rw [spelled] at equals ⊢
  constructor
  · rintro ⟨c, after, same, word⟩
    obtain ⟨rfl, -⟩ := List.cons.inj same
    rw [← isWord_eq, plain] at word
    cases word
  · exact equals

end Spells

theorem Operator.spells {op : Operator} (links : op.links = true) :
    Spells op.spelling [op.symbol.word] := by
  cases op with
  | add => exact .symbol (s := .add) (by decide)
  | greater => exact .symbol (s := .greater) (by decide)
  | assign | other => cases links

theorem Expr.operand_spells {e : Expr} (operand : e.isOperand = true) :
    Spells e.render e.words := by
  cases e with
  | var name => exact .name operand
  | lit value type =>
    obtain ⟨rfl, numeral⟩ : type = .number ∧ isNumeral value = true := by
      simpa [isOperand] using operand
    exact .numeral numeral
  | hole | binary => cases operand

theorem Expr.spells {e : Expr} (formed : e.isWellFormed = true) : Spells e.render e.words := by
  induction e with
  | binary left op right _ ih =>
    simp only [isWellFormed, Bool.and_eq_true] at formed
    obtain ⟨⟨operand, links⟩, chain⟩ := formed
    have text := ((operand_spells operand).spaced (Operator.spells links)).spaced (ih chain)
    rw [List.append_assoc] at text
    exact text
  | hole | var | lit => exact operand_spells formed

theorem spells_assignment {head : String} {first : List Word} {value : Expr}
    (begins : Spells head first) (formed : value.isWellFormed = true) :
    Spells (head ++ " " ++ "=" ++ " " ++ value.render ++ ";")
      (first ++ Symbol.assign.word :: (value.words ++ [Symbol.semicolon.word])) := by
  have text := ((begins.spaced (.symbol (s := .assign) (by decide))).spaced
    (Expr.spells formed)).closed (y := .semicolon) (by decide) (by decide)
  simp only [List.append_assoc, List.cons_append, List.nil_append] at text
  exact text

theorem spells_braces {head inside : String} {first second : List Word}
    (begins : Spells head first) (body : Spells inside second) :
    Spells (head ++ " \x7b " ++ inside ++ " \x7d")
      (first ++ Symbol.openBrace.word :: (second ++ [Symbol.closeBrace.word])) := by
  have text := ((begins.spaced (.symbol (s := .openBrace) (by decide))).spaced body).spaced
    (.symbol (s := .closeBrace) (by decide))
  have same : head ++ " \x7b " ++ inside ++ " \x7d" =
      head ++ " " ++ "\x7b" ++ " " ++ inside ++ " " ++ "\x7d" := by
    rw [show " \x7b " = " " ++ "\x7b" ++ " " from rfl, show " \x7d" = " " ++ "\x7d" from rfl]
    simp only [String.append_assoc]
  rw [same]
  simp only [List.append_assoc, List.cons_append, List.nil_append] at text
  exact text

mutual

theorem Stmt.spells (s : Stmt) (formed : s.isWellFormed = true) :
    ∃ text, s.render? = some text ∧ Spells text s.words := by
  match s with
  | .declare name value =>
    obtain ⟨named, chain⟩ : isName name = true ∧ value.isWellFormed = true := by
      simpa [isWellFormed] using formed
    have head := (Spells.keyword (k := .declare) (by decide)).spaced (.name named)
    have same : "let " ++ name ++ " = " ++ value.render ++ ";" =
        "let" ++ " " ++ name ++ " " ++ "=" ++ " " ++ value.render ++ ";" := by
      rw [show "let " = "let" ++ " " from rfl, show " = " = " " ++ "=" ++ " " from rfl]
      simp only [String.append_assoc]
    refine ⟨_, rfl, ?_⟩
    rw [same]
    exact spells_assignment head chain
  | .evaluate (.binary (.var name) .assign value) =>
    obtain ⟨named, chain⟩ : isName name = true ∧ value.isWellFormed = true := by
      simpa [isWellFormed] using formed
    have text := spells_assignment (.name named) chain
    refine ⟨_, rfl, ?_⟩
    rw [words, Expr.words, List.append_assoc]
    exact text
  | .branch condition body =>
    obtain ⟨chain, inside⟩ : condition.isWellFormed = true ∧ allWellFormed body = true := by
      simpa [isWellFormed] using formed
    have head := (Spells.keyword (k := .condition) (by decide)).spaced (Expr.spells chain)
    exact ⟨_, rfl, spells_braces head (Stmt.body_spells body inside)⟩

theorem Stmt.body_spells (body : List Stmt) (formed : Stmt.allWellFormed body = true) :
    Spells (Stmt.renderBody body) (Stmt.wordsAll body) := by
  match body with
  | [] => exact .empty
  | s :: rest =>
    obtain ⟨first, others⟩ : s.isWellFormed = true ∧ allWellFormed rest = true := by
      simpa [allWellFormed] using formed
    obtain ⟨text, rendered, spelled⟩ := Stmt.spells s first
    have later := Stmt.body_spells rest others
    rw [renderBody] at later ⊢
    rw [renderAll, rendered, wordsAll]
    cases texts : renderAll rest with
    | nil =>
      rw [texts, String.intercalate_nil] at later
      simpa [String.intercalate_singleton] using spelled.beside later fun _ apart => apart
    | cons second more =>
      rw [texts] at later
      simpa [String.intercalate_cons_cons] using spelled.spaced later

end

theorem Function.head_spells {f : Function} (named : isName f.name = true)
    (typed : f.result.all isName = true) :
    Spells ("fn " ++ f.name ++ "()" ++ (f.result.map (" -> " ++ ·)).getD "")
      ([Keyword.function.word, (.identifier, f.name), Symbol.openParen.word,
        Symbol.closeParen.word] ++ resultWords f.result) := by
  have head := (((Spells.keyword (k := .function) (by decide)).spaced (.name named)).closed
    (y := .openParen) (by decide) (by decide)).closed (y := .closeParen) (by decide) (by decide)
  have parens : "fn " ++ f.name ++ "()" = "fn" ++ " " ++ f.name ++ "(" ++ ")" := by
    rw [show "fn " = "fn" ++ " " from rfl, show "()" = "(" ++ ")" from rfl]
    simp only [String.append_assoc]
  rw [parens]
  cases result : f.result with
  | none => exact head.beside .empty fun _ apart => apart
  | some type =>
    rw [result] at typed
    have text := (head.spaced (.symbol (s := .arrow) (by decide))).spaced (.name typed)
    have arrow : "fn" ++ " " ++ f.name ++ "(" ++ ")" ++ (" -> " ++ type) =
        "fn" ++ " " ++ f.name ++ "(" ++ ")" ++ " " ++ "->" ++ " " ++ type := by
      rw [show " -> " = " " ++ "->" ++ " " from rfl]
      simp only [String.append_assoc]
    rw [Option.map_some, Option.getD_some, arrow]
    exact text

/-- The text of a well-formed function is read as the words of the function. -/
theorem Function.reads_render {f : Function} (formed : f.isWellFormed = true) :
    Reads (Utf8.encode f.render) f.words := by
  simp only [isWellFormed, Bool.and_eq_true] at formed
  obtain ⟨⟨⟨named, -⟩, typed⟩, body⟩ := formed
  have whole := spells_braces (head_spells named typed) (Stmt.body_spells f.body body)
  have reads := whole [] [] apart_nil .done
  rw [List.append_nil, List.append_nil, List.append_assoc] at reads
  exact reads

end Spelling

section Derivations

open Grammar

variable {source : List UInt8}

theorem terminal_of_words {kind : Token.Kind} {text : String} {words : List Word}
    {ts : List Token} (spelled : ts.map (Token.word source) = (kind, text) :: words) :
    ∃ (t : Terminal kind) (rest : List Token), ts = t.val :: rest ∧ t.val.text source = text ∧
      rest.map (Token.word source) = words := by
  obtain ⟨t, rest, rfl, first, later⟩ := List.map_eq_cons_iff.mp spelled
  obtain ⟨same, text⟩ := Prod.mk.inj first
  exact ⟨⟨t, same⟩, rest, rfl, text, later⟩

theorem leaf_of_words {e : Expr} {words : List Word} {ts : List Token}
    (operand : e.isOperand = true) (spelled : ts.map (Token.word source) = e.words ++ words) :
    ∃ (l : Leaf) (rest : List Token), ts = l.token :: rest ∧ l.tree source = e ∧
      rest.map (Token.word source) = words := by
  cases e with
  | var name =>
    obtain ⟨t, rest, rfl, rfl, later⟩ := terminal_of_words spelled
    exact ⟨.identifier t, rest, rfl, rfl, later⟩
  | lit value type =>
    obtain ⟨t, rest, rfl, rfl, later⟩ := terminal_of_words spelled
    exact ⟨.literal type t, rest, rfl, rfl, later⟩
  | hole | binary => cases operand

theorem sign_of_words {op : Operator} {words : List Word} {ts : List Token}
    (links : op.links = true) (spelled : ts.map (Token.word source) = op.symbol.word :: words) :
    ∃ (s : Sign) (rest : List Token), ts = s.token :: rest ∧ s.operator = op ∧
      rest.map (Token.word source) = words := by
  cases op with
  | add =>
    obtain ⟨t, rest, rfl, -, later⟩ := terminal_of_words spelled
    exact ⟨.add t, rest, rfl, rfl, later⟩
  | greater =>
    obtain ⟨t, rest, rfl, -, later⟩ := terminal_of_words spelled
    exact ⟨.greater t, rest, rfl, rfl, later⟩
  | assign | other => cases links

theorem expression_of_words {e : Expr} {words : List Word} {ts : List Token}
    (formed : e.isWellFormed = true) (spelled : ts.map (Token.word source) = e.words ++ words) :
    ∃ (d : Expression) (rest : List Token), ts = d.tokens ++ rest ∧ d.tree source = e ∧
      rest.map (Token.word source) = words := by
  induction e generalizing ts with
  | binary left op right _ ih =>
    simp only [Expr.isWellFormed, Bool.and_eq_true] at formed
    obtain ⟨⟨operand, links⟩, chain⟩ := formed
    rw [Expr.words, List.append_assoc] at spelled
    obtain ⟨l, _, rfl, rfl, afterLeft⟩ := leaf_of_words operand spelled
    obtain ⟨s, _, rfl, rfl, afterSign⟩ := sign_of_words links afterLeft
    obtain ⟨d, rest, rfl, rfl, later⟩ := ih chain afterSign
    exact ⟨.chain l s d, rest, rfl, rfl, later⟩
  | hole | var | lit =>
    obtain ⟨l, rest, rfl, tree, later⟩ := leaf_of_words formed spelled
    exact ⟨.leaf l, rest, rfl, tree, later⟩

mutual

theorem statement_of_words (s : Stmt) {words : List Word} {ts : List Token}
    (formed : s.isWellFormed = true) (spelled : ts.map (Token.word source) = s.words ++ words) :
    ∃ (d : Statement) (rest : List Token), ts = d.tokens ++ rest ∧ d.tree source = s ∧
      rest.map (Token.word source) = words := by
  match s with
  | .declare name value =>
    obtain ⟨-, chain⟩ : isName name = true ∧ value.isWellFormed = true := by
      simpa [Stmt.isWellFormed] using formed
    simp only [Stmt.words, List.cons_append, List.append_assoc] at spelled
    obtain ⟨keyword, _, rfl, -, afterKeyword⟩ := terminal_of_words spelled
    obtain ⟨name, _, rfl, rfl, afterName⟩ := terminal_of_words afterKeyword
    obtain ⟨equals, _, rfl, -, afterEquals⟩ := terminal_of_words afterName
    obtain ⟨value, _, rfl, rfl, afterValue⟩ := expression_of_words chain afterEquals
    obtain ⟨stop, rest, rfl, -, later⟩ := terminal_of_words afterValue
    exact ⟨.declare keyword name equals value stop, rest, by simp [Statement.tokens], rfl, later⟩
  | .evaluate (.binary (.var name) .assign value) =>
    obtain ⟨-, chain⟩ : isName name = true ∧ value.isWellFormed = true := by
      simpa [Stmt.isWellFormed] using formed
    simp only [Stmt.words, Expr.words, List.cons_append, List.nil_append, List.append_assoc]
      at spelled
    obtain ⟨name, _, rfl, rfl, afterName⟩ := terminal_of_words spelled
    obtain ⟨equals, _, rfl, -, afterEquals⟩ := terminal_of_words afterName
    obtain ⟨value, _, rfl, rfl, afterValue⟩ := expression_of_words chain afterEquals
    obtain ⟨stop, rest, rfl, -, later⟩ := terminal_of_words afterValue
    exact ⟨.assign name equals value stop, rest, by simp [Statement.tokens], rfl, later⟩
  | .branch condition body =>
    obtain ⟨chain, inside⟩ : condition.isWellFormed = true ∧ Stmt.allWellFormed body = true := by
      simpa [Stmt.isWellFormed] using formed
    simp only [Stmt.words, List.cons_append, List.append_assoc] at spelled
    obtain ⟨keyword, _, rfl, -, afterKeyword⟩ := terminal_of_words spelled
    obtain ⟨condition, _, rfl, rfl, afterCondition⟩ := expression_of_words chain afterKeyword
    obtain ⟨openBrace, _, rfl, -, afterOpenBrace⟩ := terminal_of_words afterCondition
    obtain ⟨body, _, rfl, rfl, afterBody⟩ := statements_of_words body inside afterOpenBrace
    obtain ⟨closeBrace, rest, rfl, -, later⟩ := terminal_of_words afterBody
    exact ⟨.branch keyword condition openBrace body closeBrace, rest, by simp [Statement.tokens],
      rfl, later⟩

theorem statements_of_words (body : List Stmt) {words : List Word} {ts : List Token}
    (formed : Stmt.allWellFormed body = true)
    (spelled : ts.map (Token.word source) = Stmt.wordsAll body ++ words) :
    ∃ (d : List Statement) (rest : List Token), ts = Statement.tokensAll d ++ rest ∧
      Statement.trees source d = body ∧ rest.map (Token.word source) = words := by
  match body with
  | [] => exact ⟨[], ts, rfl, rfl, spelled⟩
  | s :: others =>
    obtain ⟨first, later⟩ : s.isWellFormed = true ∧ Stmt.allWellFormed others = true := by
      simpa [Stmt.allWellFormed] using formed
    rw [Stmt.wordsAll, List.append_assoc] at spelled
    obtain ⟨d, _, rfl, rfl, afterFirst⟩ := statement_of_words s first spelled
    obtain ⟨more, rest, rfl, rfl, left⟩ := statements_of_words others later afterFirst
    exact ⟨d :: more, rest, by simp [Statement.tokensAll], rfl, left⟩

end

theorem result_of_words {result : Option String} {words : List Word} {ts : List Token}
    (spelled : ts.map (Token.word source) = resultWords result ++ words) :
    ∃ (d : Option (Terminal (.symbol .arrow) × Terminal .identifier)) (rest : List Token),
      ts = resultTokens d ++ rest ∧ d.map (fun r => r.2.val.text source) = result ∧
        rest.map (Token.word source) = words := by
  cases result with
  | none => exact ⟨none, ts, rfl, rfl, spelled⟩
  | some type =>
    obtain ⟨arrow, _, rfl, -, afterArrow⟩ := terminal_of_words spelled
    obtain ⟨type, rest, rfl, rfl, later⟩ := terminal_of_words afterArrow
    exact ⟨some (arrow, type), rest, rfl, rfl, later⟩

/-- Tokens with the words of a well-formed function derive this function. -/
theorem definition_of_words {f : Function} {ts : List Token} (formed : f.isWellFormed = true)
    (spelled : ts.map (Token.word source) = f.words) :
    ∃ d : Definition, d.tokens = ts ∧ d.tree source = f := by
  obtain ⟨name, arguments, result, body⟩ := f
  simp only [Function.isWellFormed, Bool.and_eq_true, List.isEmpty_iff] at formed
  obtain ⟨⟨⟨-, rfl⟩, -⟩, inside⟩ := formed
  rw [Function.words] at spelled
  obtain ⟨keyword, _, rfl, -, afterKeyword⟩ := terminal_of_words spelled
  obtain ⟨name, _, rfl, rfl, afterName⟩ := terminal_of_words afterKeyword
  obtain ⟨openParen, _, rfl, -, afterOpenParen⟩ := terminal_of_words afterName
  obtain ⟨closeParen, _, rfl, -, afterCloseParen⟩ := terminal_of_words afterOpenParen
  obtain ⟨result, _, rfl, rfl, afterResult⟩ := result_of_words afterCloseParen
  obtain ⟨openBrace, _, rfl, -, afterOpenBrace⟩ := terminal_of_words afterResult
  obtain ⟨body, _, rfl, rfl, afterBody⟩ := statements_of_words body inside afterOpenBrace
  obtain ⟨closeBrace, rest, rfl, -, later⟩ := terminal_of_words afterBody
  obtain rfl := List.map_eq_nil_iff.mp later
  exact ⟨⟨keyword, name, openParen, closeParen, result, openBrace, body, closeBrace⟩, rfl, rfl⟩

end Derivations

section Trees

open Grammar Lexer

variable {source : List UInt8}

theorem leaf_tree_operand {l : Leaf} (proper : Proper source l.token) :
    (l.tree source).isOperand = true := by
  cases l with
  | literal type token =>
    obtain ⟨rfl, numeral⟩ := proper.numeral type token.property
    rw [Leaf.tree, Expr.isOperand, Bool.and_eq_true]
    exact ⟨rfl, numeral⟩
  | identifier token => exact proper.name token.property

theorem sign_links (s : Sign) : s.operator.links = true := by
  cases s <;> rfl

theorem operand_wellFormed {e : Expr} (operand : e.isOperand = true) : e.isWellFormed = true := by
  cases e with
  | hole | var | lit => exact operand
  | binary => cases operand

theorem expression_tree_wellFormed (d : Expression) (proper : ∀ t ∈ d.tokens, Proper source t) :
    (d.tree source).isWellFormed = true := by
  induction d with
  | leaf operand => exact operand_wellFormed (leaf_tree_operand (proper _ List.mem_cons_self))
  | chain left sign right ih =>
    have operand := leaf_tree_operand (proper left.token (by simp [Expression.tokens]))
    have chain := ih fun t member => proper t (by simp [Expression.tokens, member])
    simp [Expression.tree, Expr.isWellFormed, operand, sign_links, chain]

mutual

theorem statement_tree_wellFormed (d : Statement) (proper : ∀ t ∈ d.tokens, Proper source t) :
    (d.tree source).isWellFormed = true := by
  cases d with
  | declare keyword name equals value stop =>
    have named := (proper name.val (by simp [Statement.tokens])).name name.property
    have chain := expression_tree_wellFormed value fun t member =>
      proper t (by simp [Statement.tokens, member])
    simp [Statement.tree, Stmt.isWellFormed, named, chain]
  | assign name equals value stop =>
    have named := (proper name.val (by simp [Statement.tokens])).name name.property
    have chain := expression_tree_wellFormed value fun t member =>
      proper t (by simp [Statement.tokens, member])
    simp [Statement.tree, Expr.assignTo, Stmt.isWellFormed, named, chain]
  | branch keyword condition openBrace body closeBrace =>
    have chain := expression_tree_wellFormed condition fun t member =>
      proper t (by simp [Statement.tokens, member])
    have inside := statement_trees_wellFormed body fun t member =>
      proper t (by simp [Statement.tokens, member])
    simp [Statement.tree, Stmt.isWellFormed, chain, inside]

theorem statement_trees_wellFormed (body : List Statement)
    (proper : ∀ t ∈ Statement.tokensAll body, Proper source t) :
    Stmt.allWellFormed (Statement.trees source body) = true := by
  cases body with
  | nil => rfl
  | cons d others =>
    have first := statement_tree_wellFormed d fun t member =>
      proper t (by simp [Statement.tokensAll, member])
    have later := statement_trees_wellFormed others fun t member =>
      proper t (by simp [Statement.tokensAll, member])
    simp [Statement.trees, Stmt.allWellFormed, first, later]

end

/-- The tree of a derivation is well formed if the texts of its tokens are what their kinds ask
for. -/
theorem definition_tree_wellFormed {d : Definition} (proper : ∀ t ∈ d.tokens, Proper source t) :
    (d.tree source).isWellFormed = true := by
  have named := (proper d.name.val (by simp [Definition.tokens])).name d.name.property
  have inside := statement_trees_wellFormed d.body fun t member =>
    proper t (by simp [Definition.tokens, member])
  have typed : (d.result.map fun r => r.2.val.text source).all isName = true := by
    cases result : d.result with
    | none => rfl
    | some r =>
      exact (proper r.2.val (by simp [Definition.tokens, result, resultTokens])).name r.2.property
  simp [Definition.tree, Function.isWellFormed, named, inside, typed]

end Trees

section RoundTrip

/-- A source with the words of a well-formed function is read as this function. -/
theorem Function.parse_of_words {f : Function} {source : List UInt8} {tokens : List Token}
    (formed : f.isWellFormed = true) (spelled : tokens.map (Token.word source) = f.words) :
    Parser.parse source tokens = .ok (.functions [f]) := by
  obtain ⟨d, derived, tree⟩ := definition_of_words formed spelled
  rw [← derived, Parser.parse_definition, tree]

theorem Function.parse_render {f : Function} (formed : f.isWellFormed = true) :
    Lexer.invalids (Utf8.encode f.render) = [] ∧
      Parser.parse (Utf8.encode f.render) (Lexer.tokens (Utf8.encode f.render)) =
        .ok (.functions [f]) := by
  obtain ⟨clean, spelled⟩ := Lexer.words_of_reads (reads_render formed)
  exact ⟨clean, parse_of_words formed spelled⟩

theorem Function.wellFormed_of_parse {f : Function} {source : List UInt8}
    (parsed : Parser.parse source (Lexer.tokens source) = .ok (.functions [f])) :
    f.isWellFormed = true := by
  obtain ⟨d, derived, tree⟩ := Parser.definition_of_parse parsed
  cases tree
  apply definition_tree_wellFormed
  rw [derived]
  exact fun t member => Lexer.proper_of_token member

/-- Rendering and parsing are inverse. A function is the tree of some source without invalid
characters exactly if it is well formed, and then the text it is rendered as is such a source. -/
theorem Function.parsed_iff_wellFormed (f : Function) :
    ((∃ source, Lexer.invalids source = [] ∧
        Parser.parse source (Lexer.tokens source) = .ok (.functions [f])) ↔
      f.isWellFormed = true) ∧
    (f.isWellFormed = true →
      Lexer.invalids (Utf8.encode f.render) = [] ∧
        Parser.parse (Utf8.encode f.render) (Lexer.tokens (Utf8.encode f.render)) =
          .ok (.functions [f])) := by
  refine ⟨⟨?_, ?_⟩, parse_render⟩
  · rintro ⟨source, -, parsed⟩
    exact wellFormed_of_parse parsed
  · intro formed
    exact ⟨_, parse_render formed⟩

theorem Function.parsed_iff_wellFormed_nested :
    let f : Function := ⟨"main", [], some "Number",
      [.declare "n" (.binary (.lit "7" .number) .add (.binary (.var "if_") .greater (.var "n"))),
        .branch (.var "n") [.branch (.lit "007" .number) [], .evaluate (.assignTo "n" (.var "m"))]]⟩
    f.isWellFormed = true ∧ Lexer.invalids (Utf8.encode f.render) = [] ∧
      Parser.parse (Utf8.encode f.render) (Lexer.tokens (Utf8.encode f.render)) =
        .ok (.functions [f]) :=
  ⟨by decide, (parsed_iff_wellFormed _).2 (by decide)⟩

end RoundTrip

end DeltaLang
