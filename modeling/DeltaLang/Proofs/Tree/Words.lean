import DeltaLang.Proofs.Tree.Render

namespace DeltaLang

namespace Lexer

/-- A token that is written in its one spelling, if it is a symbol or a keyword. -/
structure Spelled (source : List UInt8) (t : Token) : Prop where
  symbol : ∀ s, t.kind = .symbol s → t.word source = s.word
  keyword : ∀ k, t.kind = .keyword k → t.word source = k.word

theorem spelled_of_token {source : List UInt8} {t : Token} (member : t ∈ tokens source) :
    Spelled source t := by
  obtain ⟨rest, lexeme⟩ := lexeme_of_token member
  constructor
  · intro s kind
    rw [kind] at lexeme
    generalize written : t.bytes source = bytes at lexeme
    cases lexeme with
    | symbol known longest =>
      rw [Token.word, Token.text, kind, written, Utf8.toString_encode]
      rfl
  · intro k kind
    rw [kind] at lexeme
    generalize written : t.bytes source = bytes at lexeme
    cases lexeme with
    | keyword known ends =>
      rw [Token.word, Token.text, kind, written, Utf8.toString_encode]
      rfl

end Lexer

section Derivations

open Grammar Lexer

variable {source : List UInt8}

theorem Grammar.Terminal.word_eq {kind : Token.Kind} (t : Terminal kind) :
    t.val.word source = (kind, t.val.text source) := by
  rw [Token.word, t.property]

theorem leaf_words (l : Leaf) : [l.token.word source] = (l.tree source).words := by
  cases l with
  | literal type token => rw [Leaf.token, token.word_eq]; rfl
  | identifier token => rw [Leaf.token, token.word_eq]; rfl

theorem sign_word (s : Sign) (spelled : Spelled source s.token) :
    s.token.word source = s.operator.symbol.word := by
  cases s with
  | add token => exact spelled.symbol _ token.property
  | greater token => exact spelled.symbol _ token.property

theorem expression_words (d : Expression) (spelled : ∀ t ∈ d.tokens, Spelled source t) :
    d.tokens.map (Token.word source) = (d.tree source).words := by
  induction d with
  | leaf operand => exact leaf_words operand
  | chain left sign right ih =>
    have linked := sign_word sign (spelled sign.token (by simp [Expression.tokens]))
    have chain := ih fun t member => spelled t (by simp [Expression.tokens, member])
    rw [Expression.tokens, List.map_cons, List.map_cons, linked, chain, Expression.tree, Expr.words,
      ← leaf_words]
    rfl

mutual

theorem statement_words (d : Statement) (spelled : ∀ t ∈ d.tokens, Spelled source t) :
    d.tokens.map (Token.word source) = (d.tree source).words := by
  cases d with
  | declare keyword name equals value stop =>
    have first := (spelled keyword.val (by simp [Statement.tokens])).keyword _ keyword.property
    have sign := (spelled equals.val (by simp [Statement.tokens])).symbol _ equals.property
    have last := (spelled stop.val (by simp [Statement.tokens])).symbol _ stop.property
    have chain := expression_words value fun t member =>
      spelled t (by simp [Statement.tokens, member])
    simp [Statement.tokens, Statement.tree, Stmt.words, first, name.word_eq, sign, chain, last]
  | assign name equals value stop =>
    have sign := (spelled equals.val (by simp [Statement.tokens])).symbol _ equals.property
    have last := (spelled stop.val (by simp [Statement.tokens])).symbol _ stop.property
    have chain := expression_words value fun t member =>
      spelled t (by simp [Statement.tokens, member])
    simp [Statement.tokens, Statement.tree, Expr.assignTo, Stmt.words, Expr.words, Operator.symbol,
      name.word_eq, sign, chain, last]
  | branch keyword condition openBrace body closeBrace =>
    have first := (spelled keyword.val (by simp [Statement.tokens])).keyword _ keyword.property
    have opens := (spelled openBrace.val (by simp [Statement.tokens])).symbol _ openBrace.property
    have closes :=
      (spelled closeBrace.val (by simp [Statement.tokens])).symbol _ closeBrace.property
    have chain := expression_words condition fun t member =>
      spelled t (by simp [Statement.tokens, member])
    have inside := statements_words body fun t member =>
      spelled t (by simp [Statement.tokens, member])
    simp [Statement.tokens, Statement.tree, Stmt.words, first, chain, opens, inside, closes]

theorem statements_words (body : List Statement)
    (spelled : ∀ t ∈ Statement.tokensAll body, Spelled source t) :
    (Statement.tokensAll body).map (Token.word source) =
      Stmt.wordsAll (Statement.trees source body) := by
  cases body with
  | nil => rfl
  | cons d others =>
    have first := statement_words d fun t member =>
      spelled t (by simp [Statement.tokensAll, member])
    have later := statements_words others fun t member =>
      spelled t (by simp [Statement.tokensAll, member])
    rw [Statement.tokensAll, List.map_append, first, later]
    rfl

end

theorem result_words (result : Option (Terminal (.symbol .arrow) × Terminal .identifier))
    (spelled : ∀ t ∈ resultTokens result, Spelled source t) :
    (resultTokens result).map (Token.word source) =
      resultWords (result.map fun r => r.2.val.text source) := by
  cases result with
  | none => rfl
  | some r =>
    have arrow := (spelled r.1.val (by simp [resultTokens])).symbol _ r.1.property
    simp [resultTokens, resultWords, arrow, r.2.word_eq]

/-- The tokens of a derivation are the words of its tree. -/
theorem definition_words (d : Definition) (spelled : ∀ t ∈ d.tokens, Spelled source t) :
    d.tokens.map (Token.word source) = (d.tree source).words := by
  have keyword := (spelled d.keyword.val (by simp [Definition.tokens])).keyword _ d.keyword.property
  have openParen :=
    (spelled d.openParen.val (by simp [Definition.tokens])).symbol _ d.openParen.property
  have closeParen :=
    (spelled d.closeParen.val (by simp [Definition.tokens])).symbol _ d.closeParen.property
  have openBrace :=
    (spelled d.openBrace.val (by simp [Definition.tokens])).symbol _ d.openBrace.property
  have closeBrace :=
    (spelled d.closeBrace.val (by simp [Definition.tokens])).symbol _ d.closeBrace.property
  have result := result_words d.result fun t member =>
    spelled t (by simp [Definition.tokens, member])
  have body := statements_words d.body fun t member =>
    spelled t (by simp [Definition.tokens, member])
  simp [Definition.tokens, Definition.tree, Function.words, keyword, d.name.word_eq, openParen,
    closeParen, result, openBrace, body, closeBrace]

end Derivations

/-- The words of a source are those of the tree that it is read as. -/
theorem words_of_parse {source : List UInt8} {f : Function}
    (parsed : Parser.parse source (Lexer.tokens source) = .ok (.functions [f])) :
    (Lexer.tokens source).map (Token.word source) = f.words := by
  obtain ⟨d, derived, tree⟩ := Parser.definition_of_parse parsed
  cases tree
  rw [← derived]
  apply definition_words
  rw [derived]
  exact fun t member => Lexer.spelled_of_token member

/-- Reading a source loses nothing but what stands between its words: the tree is written again
with these words, and no source with other words has the same tree. -/
theorem parse_keeps_words {source : List UInt8} {f : Function}
    (parsed : Parser.parse source (Lexer.tokens source) = .ok (.functions [f])) :
    Lexer.invalids (Utf8.encode f.render) = [] ∧
    (Lexer.tokens (Utf8.encode f.render)).map (Token.word (Utf8.encode f.render)) =
      (Lexer.tokens source).map (Token.word source) ∧
    ∀ (other : List UInt8) (g : Function),
      Parser.parse other (Lexer.tokens other) = .ok (.functions [g]) →
        (g = f ↔ (Lexer.tokens other).map (Token.word other) =
          (Lexer.tokens source).map (Token.word source)) := by
  have formed := Function.wellFormed_of_parse parsed
  have words := words_of_parse parsed
  obtain ⟨clean, spelled⟩ := Lexer.words_of_reads (Function.reads_render formed)
  refine ⟨clean, spelled.trans words.symm, ?_⟩
  intro other g parsedToo
  constructor
  · intro same
    rw [words_of_parse parsedToo, words, same]
  · intro same
    have again := Function.parse_of_words formed (same.trans words)
    rw [parsedToo] at again
    cases again
    rfl

/-- A source with fewer blanks than the text that its tree is written as. -/
theorem parse_keeps_words_dense :
    let source := Utf8.encode "fn f(){ if a{}}"
    let f : Function := ⟨"f", [], none, [.branch (.var "a") []]⟩
    Parser.parse source (Lexer.tokens source) = .ok (.functions [f]) ∧
      f.render = "fn f() { if a {  } }" ∧
      (Lexer.tokens (Utf8.encode f.render)).map (Token.word (Utf8.encode f.render)) =
        (Lexer.tokens source).map (Token.word source) := by
  intro source f
  have head := (((Spells.keyword (k := .function) (by decide)).spaced (.name (s := "f")
    (by decide))).closed (y := .openParen) (by decide) (by decide)).closed (y := .closeParen)
      (by decide) (by decide)
  have branch := ((head.closed (y := .openBrace) (by decide) (by decide)).spaced
    (.keyword (k := .condition) (by decide))).spaced (.name (s := "a") (by decide))
  have whole := ((branch.closed (y := .openBrace) (by decide) (by decide)).closed (y := .closeBrace)
    (by decide) (by decide)).closed (y := .closeBrace) (by decide) (by decide)
  have reads : Lexer.Reads source f.words := whole [] [] apart_nil .done
  have parsed := Function.parse_of_words (f := f) (by decide) (Lexer.words_of_reads reads).2
  exact ⟨parsed, rfl, (parse_keeps_words parsed).2.1⟩

end DeltaLang
