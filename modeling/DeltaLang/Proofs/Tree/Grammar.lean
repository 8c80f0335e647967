import DeltaLang.Token
import DeltaLang.Tree

/-!
The grammar as a type of derivations. A derivation holds the tokens that it derives, each of the
kind that its place asks for, so that whatever can be built is derivable:

    definition := `fn` identifier `(` `)` (`->` identifier)? `{` statement* `}`
    statement  := `let` identifier `=` expression `;`
                | identifier `=` expression `;`
                | `if` expression `{` statement* `}`
    expression := (literal | identifier) ((`+` | `>`) expression)?

A token sequence has at most one derivation.
-/

namespace DeltaLang.Grammar

/-- A token of a kind. -/
abbrev Terminal (kind : Token.Kind) : Type :=
  { t : Token // t.kind = kind }

inductive Leaf where
  | literal (type : Primitive) (token : Terminal (.literal type))
  | identifier (token : Terminal .identifier)

inductive Sign where
  | add (token : Terminal (.symbol .add))
  | greater (token : Terminal (.symbol .greater))

inductive Expression where
  | leaf (operand : Leaf)
  | chain (left : Leaf) (sign : Sign) (right : Expression)

inductive Statement where
  | declare (keyword : Terminal (.keyword .declare)) (name : Terminal .identifier)
      (equals : Terminal (.symbol .assign)) (value : Expression)
      (stop : Terminal (.symbol .semicolon))
  | assign (name : Terminal .identifier) (equals : Terminal (.symbol .assign)) (value : Expression)
      (stop : Terminal (.symbol .semicolon))
  | branch (keyword : Terminal (.keyword .condition)) (condition : Expression)
      (openBrace : Terminal (.symbol .openBrace)) (body : List Statement)
      (closeBrace : Terminal (.symbol .closeBrace))

structure Definition where
  keyword : Terminal (.keyword .function)
  name : Terminal .identifier
  openParen : Terminal (.symbol .openParen)
  closeParen : Terminal (.symbol .closeParen)
  result : Option (Terminal (.symbol .arrow) × Terminal .identifier)
  openBrace : Terminal (.symbol .openBrace)
  body : List Statement
  closeBrace : Terminal (.symbol .closeBrace)

section Tokens

def Leaf.token : Leaf → Token
  | .literal _ token => token.val
  | .identifier token => token.val

def Sign.token : Sign → Token
  | .add token => token.val
  | .greater token => token.val

def Expression.tokens : Expression → List Token
  | .leaf operand => [operand.token]
  | .chain left sign right => left.token :: sign.token :: right.tokens

mutual

def Statement.tokens : Statement → List Token
  | .declare keyword name equals value stop =>
    keyword.val :: name.val :: equals.val :: (value.tokens ++ [stop.val])
  | .assign name equals value stop => name.val :: equals.val :: (value.tokens ++ [stop.val])
  | .branch keyword condition openBrace body closeBrace =>
    keyword.val :: (condition.tokens ++
      openBrace.val :: (Statement.tokensAll body ++ [closeBrace.val]))

def Statement.tokensAll : List Statement → List Token
  | [] => []
  | s :: rest => s.tokens ++ Statement.tokensAll rest

end

/-- The tokens of `-> name`. -/
def resultTokens : Option (Terminal (.symbol .arrow) × Terminal .identifier) → List Token
  | none => []
  | some (arrow, name) => [arrow.val, name.val]

def Definition.tokens (d : Definition) : List Token :=
  d.keyword.val :: d.name.val :: d.openParen.val :: d.closeParen.val ::
    (resultTokens d.result ++
      d.openBrace.val :: (Statement.tokensAll d.body ++ [d.closeBrace.val]))

end Tokens

section Trees

variable (source : List UInt8)

def Leaf.tree : Leaf → Expr
  | .literal type token => .lit (token.val.text source) type
  | .identifier token => .var (token.val.text source)

def Sign.operator : Sign → Operator
  | .add _ => .add
  | .greater _ => .greater

def Expression.tree : Expression → Expr
  | .leaf operand => operand.tree source
  | .chain left sign right => .binary (left.tree source) sign.operator right.tree

mutual

def Statement.tree : Statement → Stmt
  | .declare _ name _ value _ => .declare (name.val.text source) (value.tree source)
  | .assign name _ value _ => .evaluate (.assignTo (name.val.text source) (value.tree source))
  | .branch _ condition _ body _ => .branch (condition.tree source) (Statement.trees body)

def Statement.trees : List Statement → List Stmt
  | [] => []
  | s :: rest => s.tree :: Statement.trees rest

end

/-- The tree of a derivation. Names and literals are the texts of their tokens in the source. -/
def Definition.tree (d : Definition) : Function :=
  ⟨d.name.val.text source, [], d.result.map fun r => r.2.val.text source,
    Statement.trees source d.body⟩

end Trees

section Unambiguous

/-- A token that goes on with a chain of operands. -/
def IsSign (t : Token) : Prop :=
  t.kind = .symbol .add ∨ t.kind = .symbol .greater

theorem Sign.isSign (s : Sign) : IsSign s.token := by
  cases s with
  | add token => exact .inl token.property
  | greater token => exact .inr token.property

theorem Leaf.token_inj {l m : Leaf} (same : l.token = m.token) : l = m := by
  rcases l with ⟨type, t, kind⟩ | ⟨t, kind⟩ <;> rcases m with ⟨type', t', kind'⟩ | ⟨t', kind'⟩ <;>
    obtain rfl : t = t' := same
  · obtain rfl : type = type' := by simpa using kind.symm.trans kind'
    rfl
  · simp [kind] at kind'
  · simp [kind] at kind'
  · rfl

theorem Sign.token_inj {s r : Sign} (same : s.token = r.token) : s = r := by
  rcases s with ⟨t, kind⟩ | ⟨t, kind⟩ <;> rcases r with ⟨t', kind'⟩ | ⟨t', kind'⟩ <;>
    obtain rfl : t = t' := same
  · rfl
  · simp [kind] at kind'
  · simp [kind] at kind'
  · rfl

/-- An expression ends where its operands are not linked any more. -/
theorem Expression.tokens_inj {e f : Expression} {stop stop' : Token} {rest rest' : List Token}
    (ends : ¬IsSign stop) (ends' : ¬IsSign stop')
    (same : e.tokens ++ stop :: rest = f.tokens ++ stop' :: rest') :
    e = f ∧ stop = stop' ∧ rest = rest' := by
  induction e generalizing f with
  | leaf operand =>
    cases f with
    | leaf operand' =>
      obtain ⟨first, rfl, rfl⟩ : operand.token = operand'.token ∧ stop = stop' ∧ rest = rest' := by
        simpa [tokens] using same
      exact ⟨by rw [Leaf.token_inj first], rfl, rfl⟩
    | chain left sign right =>
      obtain ⟨-, rfl, -⟩ : operand.token = left.token ∧ stop = sign.token ∧ _ := by
        simpa [tokens] using same
      exact absurd sign.isSign ends
  | chain left sign right ih =>
    cases f with
    | leaf operand' =>
      obtain ⟨-, same, -⟩ : left.token = operand'.token ∧ sign.token = stop' ∧ _ := by
        simpa [tokens] using same
      exact absurd (same ▸ sign.isSign) ends'
    | chain left' sign' right' =>
      obtain ⟨first, second, others⟩ : left.token = left'.token ∧ sign.token = sign'.token ∧
          right.tokens ++ stop :: rest = right'.tokens ++ stop' :: rest' := by
        simpa [tokens] using same
      obtain ⟨rfl, rfl, rfl⟩ := ih others
      exact ⟨by rw [Leaf.token_inj first, Sign.token_inj second], rfl, rfl⟩

theorem Terminal.not_isSign {s : Symbol} (t : Terminal (.symbol s)) (other : s ≠ .add)
    (other' : s ≠ .greater) : ¬IsSign t.val := by
  simp [IsSign, t.property, other, other']

theorem Statement.opens (s : Statement) {t : Token} {others rest : List Token}
    (same : s.tokens ++ others = t :: rest) : t.kind ≠ .symbol .closeBrace := by
  cases s with
  | declare keyword =>
    obtain ⟨rfl, -⟩ := List.cons.inj same
    simp [keyword.property]
  | assign name =>
    obtain ⟨rfl, -⟩ := List.cons.inj same
    simp [name.property]
  | branch keyword =>
    obtain ⟨rfl, -⟩ := List.cons.inj same
    simp [keyword.property]

mutual

/-- A statement is delimited by its own tokens. -/
theorem Statement.tokens_inj (s : Statement) {s' : Statement} {rest rest' : List Token}
    (same : s.tokens ++ rest = s'.tokens ++ rest') : s = s' ∧ rest = rest' := by
  have kinds := congrArg (fun ts => ts.head?.map Token.kind) same
  cases s with
  | declare keyword name equals value stop =>
    cases s' with
    | declare keyword' name' equals' value' stop' =>
      simp only [tokens, List.cons_append, List.append_assoc, List.nil_append, List.cons.injEq,
        ← Subtype.ext_iff] at same
      obtain ⟨rfl, rfl, rfl, same⟩ := same
      obtain ⟨rfl, ends, rfl⟩ := Expression.tokens_inj (stop.not_isSign (by decide) (by decide))
        (stop'.not_isSign (by decide) (by decide)) same
      exact ⟨by rw [Subtype.ext ends], rfl⟩
    | assign name' equals' value' stop' =>
      simp [tokens, keyword.property, name'.property] at kinds
    | branch keyword' condition' openBrace' body' closeBrace' =>
      simp [tokens, keyword.property, keyword'.property] at kinds
  | assign name equals value stop =>
    cases s' with
    | declare keyword' name' equals' value' stop' =>
      simp [tokens, name.property, keyword'.property] at kinds
    | assign name' equals' value' stop' =>
      simp only [tokens, List.cons_append, List.append_assoc, List.nil_append, List.cons.injEq,
        ← Subtype.ext_iff] at same
      obtain ⟨rfl, rfl, same⟩ := same
      obtain ⟨rfl, ends, rfl⟩ := Expression.tokens_inj (stop.not_isSign (by decide) (by decide))
        (stop'.not_isSign (by decide) (by decide)) same
      exact ⟨by rw [Subtype.ext ends], rfl⟩
    | branch keyword' condition' openBrace' body' closeBrace' =>
      simp [tokens, name.property, keyword'.property] at kinds
  | branch keyword condition openBrace body closeBrace =>
    cases s' with
    | declare keyword' name' equals' value' stop' =>
      simp [tokens, keyword.property, keyword'.property] at kinds
    | assign name' equals' value' stop' =>
      simp [tokens, keyword.property, name'.property] at kinds
    | branch keyword' condition' openBrace' body' closeBrace' =>
      simp only [tokens, List.cons_append, List.append_assoc, List.nil_append, List.cons.injEq,
        ← Subtype.ext_iff] at same
      obtain ⟨rfl, same⟩ := same
      obtain ⟨rfl, begins, inside⟩ := Expression.tokens_inj
        (openBrace.not_isSign (by decide) (by decide))
        (openBrace'.not_isSign (by decide) (by decide)) same
      obtain ⟨rfl, rfl, rfl⟩ := Statement.tokensAll_inj body inside
      exact ⟨by rw [Subtype.ext begins], rfl⟩

theorem Statement.tokensAll_inj (body : List Statement) {body' : List Statement}
    {close close' : Terminal (.symbol .closeBrace)} {rest rest' : List Token}
    (same : tokensAll body ++ close.val :: rest = tokensAll body' ++ close'.val :: rest') :
    body = body' ∧ close = close' ∧ rest = rest' := by
  cases body with
  | nil =>
    cases body' with
    | nil =>
      simp only [tokensAll, List.nil_append, List.cons.injEq, ← Subtype.ext_iff] at same
      exact ⟨rfl, same⟩
    | cons s' others' =>
      simp only [tokensAll, List.nil_append, List.append_assoc] at same
      exact absurd close.property (s'.opens same.symm)
  | cons s others =>
    cases body' with
    | nil =>
      simp only [tokensAll, List.nil_append, List.append_assoc] at same
      exact absurd close'.property (s.opens same)
    | cons s' others' =>
      simp only [tokensAll, List.append_assoc] at same
      obtain ⟨rfl, later⟩ := Statement.tokens_inj s same
      obtain ⟨rfl, rfl, rfl⟩ := Statement.tokensAll_inj others later
      exact ⟨rfl, rfl, rfl⟩

end

/-- The grammar is unambiguous. -/
theorem Definition.tokens_inj {d d' : Definition} (same : d.tokens = d'.tokens) : d = d' := by
  obtain ⟨keyword, name, openParen, closeParen, result, openBrace, body, closeBrace⟩ := d
  obtain ⟨keyword', name', openParen', closeParen', result', openBrace', body', closeBrace'⟩ := d'
  simp only [tokens, List.cons.injEq, ← Subtype.ext_iff] at same
  obtain ⟨rfl, rfl, rfl, rfl, same⟩ := same
  cases result with
  | none =>
    cases result' with
    | none =>
      simp only [resultTokens, List.nil_append, List.cons.injEq, ← Subtype.ext_iff] at same
      obtain ⟨rfl, same⟩ := same
      obtain ⟨rfl, rfl, -⟩ := Statement.tokensAll_inj body same
      rfl
    | some arrow' =>
      have kinds := congrArg (fun ts => ts.head?.map Token.kind) same
      simp [resultTokens, openBrace.property, arrow'.1.property] at kinds
  | some arrow =>
    cases result' with
    | none =>
      have kinds := congrArg (fun ts => ts.head?.map Token.kind) same
      simp [resultTokens, openBrace'.property, arrow.1.property] at kinds
    | some arrow' =>
      simp only [resultTokens, List.cons_append, List.nil_append, List.cons.injEq,
        ← Subtype.ext_iff] at same
      obtain ⟨first, second, rfl, same⟩ := same
      obtain ⟨rfl, rfl, -⟩ := Statement.tokensAll_inj body same
      rw [Prod.ext first second]

end Unambiguous

end DeltaLang.Grammar
