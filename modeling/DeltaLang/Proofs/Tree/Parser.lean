import DeltaLang.Proofs.Tree.Grammar
import DeltaLang.Tree.Parser

namespace DeltaLang.Parser

open Grammar

abbrev resume (source : List UInt8) (state : State) (tokens : List Token) :
    Except Failure Module × List Token :=
  run (State.step source) State.atEnd state tokens

theorem resume_next {source : List UInt8} {state after : State} {token : Token} {rest : List Token}
    (stepped : State.step source state token = .next after) :
    resume source state (token :: rest) = resume source after rest := by
  rw [resume, run, stepped]

section Derivations

variable (source : List UInt8)

theorem step_leaf (context : Context) (purpose : Purpose) (links : List (Expr × Operator))
    (l : Leaf) :
    State.step source (.value context purpose (.operand links)) l.token =
      .next (.value context purpose (.operator links (l.tree source))) := by
  cases l with
  | literal type token => simp [State.step, Chain.step, Leaf.token, token.property, Leaf.tree]
  | identifier token => simp [State.step, Chain.step, Leaf.token, token.property, Leaf.tree]

theorem step_sign (context : Context) (purpose : Purpose) (links : List (Expr × Operator))
    (last : Expr) (s : Sign) :
    State.step source (.value context purpose (.operator links last)) s.token =
      .next (.value context purpose (.operand ((last, s.operator) :: links))) := by
  cases s with
  | add token => simp [State.step, Chain.step, Sign.token, token.property, Sign.operator]
  | greater token => simp [State.step, Chain.step, Sign.token, token.property, Sign.operator]

theorem step_terminator (context : Context) (purpose : Purpose) (links : List (Expr × Operator))
    (last : Expr) {stop : Token} (ends : stop.kind = .symbol purpose.terminator) :
    State.step source (.value context purpose (.operator links last)) stop =
      .next (.body (context.complete (Chain.close links last) purpose)) := by
  cases purpose <;> simp_all [State.step, Chain.step, Purpose.terminator]

theorem resume_expression (e : Expression) (context : Context) (purpose : Purpose)
    (links : List (Expr × Operator)) {stop : Token} (ends : stop.kind = .symbol purpose.terminator)
    (rest : List Token) :
    resume source (.value context purpose (.operand links)) (e.tokens ++ stop :: rest) =
      resume source (.body (context.complete (Chain.close links (e.tree source)) purpose))
        rest := by
  induction e generalizing links with
  | leaf operand =>
    rw [Expression.tokens, List.cons_append,
      resume_next (step_leaf source context purpose links operand)]
    exact resume_next (step_terminator source context purpose links _ ends)
  | chain left sign right ih =>
    rw [Expression.tokens, List.cons_append, List.cons_append,
      resume_next (step_leaf source context purpose links left),
      resume_next (step_sign source context purpose links _ sign), ih]
    rfl

mutual

theorem resume_statement (s : Statement) (context : Context) (rest : List Token) :
    resume source (.body context) (s.tokens ++ rest) =
      resume source (.body (context.push (s.tree source))) rest := by
  cases s with
  | declare keyword name equals value stop =>
    have shape : (Statement.declare keyword name equals value stop).tokens ++ rest =
        keyword.val :: name.val :: equals.val :: (value.tokens ++ stop.val :: rest) := by
      simp [Statement.tokens]
    rw [shape]
    calc
      _ = resume source (.declareName context) _ :=
        resume_next (by simp [State.step, keyword.property])
      _ = resume source (.declareAssign context (name.val.text source)) _ :=
        resume_next (by simp [State.step, name.property])
      _ = resume source (.value context (.declare (name.val.text source)) (.operand [])) _ :=
        resume_next (by simp [State.step, equals.property])
      _ = _ := resume_expression source value context _ [] stop.property rest
  | assign name equals value stop =>
    have shape : (Statement.assign name equals value stop).tokens ++ rest =
        name.val :: equals.val :: (value.tokens ++ stop.val :: rest) := by
      simp [Statement.tokens]
    rw [shape]
    calc
      _ = resume source (.assign context (name.val.text source)) _ :=
        resume_next (by simp [State.step, name.property])
      _ = resume source (.value context (.assign (name.val.text source)) (.operand [])) _ :=
        resume_next (by simp [State.step, equals.property])
      _ = _ := resume_expression source value context _ [] stop.property rest
  | branch keyword condition openBrace body closeBrace =>
    have shape : (Statement.branch keyword condition openBrace body closeBrace).tokens ++ rest =
        keyword.val :: (condition.tokens ++ openBrace.val ::
          (Statement.tokensAll body ++ closeBrace.val :: rest)) := by
      simp [Statement.tokens]
    rw [shape]
    calc
      _ = resume source (.value context .condition (.operand [])) _ :=
        resume_next (by simp [State.step, keyword.property])
      _ = resume source (.body (context.enter (condition.tree source))) _ :=
        resume_expression source condition context .condition [] openBrace.property _
      _ = resume source (.body _) (closeBrace.val :: rest) := resume_statements body _ _
      _ = _ := by
        apply resume_next
        simp [State.step, closeBrace.property, State.leave, Context.enter, Context.push,
          Statement.tree]

theorem resume_statements (body : List Statement) (context : Context) (rest : List Token) :
    resume source (.body context) (Statement.tokensAll body ++ rest) =
      resume source (.body { context with
        statements := (Statement.trees source body).reverse ++ context.statements }) rest := by
  cases body with
  | nil => rfl
  | cons s others =>
    rw [Statement.tokensAll, List.append_assoc, resume_statement s, resume_statements others]
    simp [Statement.trees, Context.push]

end

theorem resume_body (name : String) (result : Option String) (body : List Statement)
    (closeBrace : Terminal (.symbol .closeBrace)) :
    resume source (.body ⟨name, result, [], []⟩) (Statement.tokensAll body ++ [closeBrace.val]) =
      (.ok (.functions [⟨name, [], result, Statement.trees source body⟩]), []) := by
  rw [resume_statements]
  calc
    _ = resume source (.done ⟨name, [], result, Statement.trees source body⟩) [] :=
      resume_next (by simp [State.step, closeBrace.property, State.leave])
    _ = _ := rfl

/-- What the grammar derives is read, and the answer is the tree of the derivation. -/
theorem resume_definition (d : Definition) :
    resume source .start d.tokens = (.ok (.functions [d.tree source]), []) := by
  obtain ⟨keyword, name, openParen, closeParen, result, openBrace, body, closeBrace⟩ := d
  calc
    _ = resume source .functionName _ := resume_next (by simp [State.step, keyword.property])
    _ = resume source (.openParen (name.val.text source)) _ :=
      resume_next (by simp [State.step, name.property])
    _ = resume source (.closeParen (name.val.text source)) _ :=
      resume_next (by simp [State.step, openParen.property])
    _ = resume source (.signature (name.val.text source)) _ :=
      resume_next (by simp [State.step, closeParen.property])
    _ = _ := by
      cases result with
      | none =>
        calc
          _ = resume source (.body ⟨name.val.text source, none, [], []⟩) _ :=
            resume_next (by simp [State.step, openBrace.property])
          _ = _ := resume_body source _ _ body closeBrace
      | some arrow =>
        calc
          _ = resume source (.resultName (name.val.text source)) _ :=
            resume_next (by simp [State.step, arrow.1.property])
          _ = resume source (.openBrace (name.val.text source) (arrow.2.val.text source)) _ :=
            resume_next (by simp [State.step, arrow.2.property])
          _ = resume source (.body ⟨name.val.text source, some (arrow.2.val.text source), [], []⟩)
                _ := resume_next (by simp [State.step, openBrace.property])
          _ = _ := resume_body source _ _ body closeBrace

end Derivations

section States

/-- Tokens that begin with one of a kind and go on as `others` says. -/
def Starts (kind : Token.Kind) (others : List Token → Prop) (tokens : List Token) : Prop :=
  ∃ (t : Terminal kind) (rest : List Token), tokens = t.val :: rest ∧ others rest

/-- The tokens go on with statements, close the body that is open and do the same for the `depth`
bodies around it. -/
inductive Closes : Nat → List Token → Prop
  | last (brace : Terminal (.symbol .closeBrace)) : Closes 0 [brace.val]
  | brace {depth : Nat} {rest : List Token} (brace : Terminal (.symbol .closeBrace))
      (others : Closes depth rest) : Closes (depth + 1) (brace.val :: rest)
  | statement {depth : Nat} {rest : List Token} (s : Statement) (others : Closes depth rest) :
      Closes depth (s.tokens ++ rest)

/-- Tokens that begin with an expression and its terminator. -/
def Evaluates (terminator : Symbol) (others : List Token → Prop) (tokens : List Token) : Prop :=
  ∃ (e : Expression) (stop : Terminal (.symbol terminator)) (rest : List Token),
    tokens = e.tokens ++ stop.val :: rest ∧ others rest

/-- The rest of a chain of operands behind one of them. -/
def Links (terminator : Symbol) (others : List Token → Prop) (tokens : List Token) : Prop :=
  Starts (.symbol terminator) others tokens ∨
    ∃ (s : Sign) (rest : List Token), tokens = s.token :: rest ∧ Evaluates terminator others rest

def Bodied : List Token → Prop :=
  Starts (.symbol .openBrace) (Closes 0)

def Signed (tokens : List Token) : Prop :=
  Bodied tokens ∨ Starts (.symbol .arrow) (Starts .identifier Bodied) tokens

/-- How many bodies are open around the one in which an expression ends. -/
def depthAfter (context : Context) : Purpose → Nat
  | .condition => context.outer.length + 1
  | _ => context.outer.length

/-- What the tokens that are left in a state must derive. -/
def Completes : State → List Token → Prop
  | .start => Starts (.keyword .function) (Starts .identifier
      (Starts (.symbol .openParen) (Starts (.symbol .closeParen) Signed)))
  | .functionName =>
    Starts .identifier (Starts (.symbol .openParen) (Starts (.symbol .closeParen) Signed))
  | .openParen _ => Starts (.symbol .openParen) (Starts (.symbol .closeParen) Signed)
  | .closeParen _ => Starts (.symbol .closeParen) Signed
  | .signature _ => Signed
  | .resultName _ => Starts .identifier Bodied
  | .openBrace _ _ => Bodied
  | .body context => Closes context.outer.length
  | .declareName context => Starts .identifier (Starts (.symbol .assign)
      (Evaluates .semicolon (Closes context.outer.length)))
  | .declareAssign context _ =>
    Starts (.symbol .assign) (Evaluates .semicolon (Closes context.outer.length))
  | .assign context _ =>
    Starts (.symbol .assign) (Evaluates .semicolon (Closes context.outer.length))
  | .value context purpose (.operand _) =>
    Evaluates purpose.terminator (Closes (depthAfter context purpose))
  | .value context purpose (.operator _ _) =>
    Links purpose.terminator (Closes (depthAfter context purpose))
  | .done _ => fun tokens => tokens = []

theorem Closes.split {depth : Nat} {tokens : List Token} (closes : Closes depth tokens) :
    ∃ (body : List Statement) (brace : Terminal (.symbol .closeBrace)) (rest : List Token),
      tokens = Statement.tokensAll body ++ brace.val :: rest ∧ (depth = 0 → rest = []) ∧
        ∀ outer, depth = outer + 1 → Closes outer rest := by
  induction closes with
  | last brace => exact ⟨[], brace, [], rfl, fun _ => rfl, by simp⟩
  | brace brace others =>
    refine ⟨[], brace, _, rfl, by simp, ?_⟩
    rintro outer same
    cases same
    exact others
  | statement s others ih =>
    obtain ⟨body, brace, rest, rfl, inner, outer⟩ := ih
    exact ⟨s :: body, brace, rest, by rw [Statement.tokensAll, List.append_assoc], inner, outer⟩

theorem evaluates_leaf {terminator : Symbol} {others : List Token → Prop} {rest : List Token}
    (l : Leaf) (links : Links terminator others rest) :
    Evaluates terminator others (l.token :: rest) := by
  rcases links with ⟨stop, after, rfl, holds⟩ | ⟨s, after, rfl, e, stop, later, rfl, holds⟩
  · exact ⟨.leaf l, stop, after, rfl, holds⟩
  · exact ⟨.chain l s e, stop, later, rfl, holds⟩

theorem closes_assign {depth : Nat} {rest : List Token} (name : Terminal .identifier)
    (value : Starts (.symbol .assign) (Evaluates .semicolon (Closes depth)) rest) :
    Closes depth (name.val :: rest) := by
  obtain ⟨equals, _, rfl, e, stop, after, rfl, others⟩ := value
  have closes := Closes.statement (.assign name equals e stop) others
  simpa [Statement.tokens] using closes

theorem closes_declare {depth : Nat} {rest : List Token} (keyword : Terminal (.keyword .declare))
    (value : Starts .identifier
      (Starts (.symbol .assign) (Evaluates .semicolon (Closes depth))) rest) :
    Closes depth (keyword.val :: rest) := by
  obtain ⟨name, _, rfl, equals, _, rfl, e, stop, after, rfl, others⟩ := value
  have closes := Closes.statement (.declare keyword name equals e stop) others
  simpa [Statement.tokens] using closes

/-- A branch closes the body that it opens, and then the body around it goes on. -/
theorem closes_branch {depth : Nat} {rest : List Token} (keyword : Terminal (.keyword .condition))
    (value : Evaluates .openBrace (Closes (depth + 1)) rest) :
    Closes depth (keyword.val :: rest) := by
  obtain ⟨e, openBrace, _, rfl, inside⟩ := value
  obtain ⟨body, closeBrace, after, rfl, -, others⟩ := inside.split
  have closes := Closes.statement (.branch keyword e openBrace body closeBrace) (others depth rfl)
  simpa [Statement.tokens] using closes

theorem closes_leave {context : Context} {rest : List Token}
    (brace : Terminal (.symbol .closeBrace)) (others : Completes (State.leave context) rest) :
    Closes context.outer.length (brace.val :: rest) := by
  obtain ⟨name, result, statements, outer⟩ := context
  cases outer with
  | nil =>
    cases others
    exact .last brace
  | cons branch outer => exact .brace brace others

theorem outer_complete (context : Context) (e : Expr) (purpose : Purpose) :
    (context.complete e purpose).outer.length = depthAfter context purpose := by
  cases purpose <;> rfl

theorem completes_value {source : List UInt8} {context : Context} {purpose : Purpose}
    {chain : Chain} {after : State} {token : Token} {rest : List Token}
    (stepped : State.step source (.value context purpose chain) token = .next after)
    (others : Completes after rest) :
    Completes (.value context purpose chain) (token :: rest) := by
  cases chain with
  | operand links =>
    simp only [State.step, Chain.step] at stepped
    split at stepped
    · next read =>
      split at read
      · next type kind =>
        cases read
        cases stepped
        exact evaluates_leaf (.literal type ⟨token, kind⟩) others
      · next kind =>
        cases read
        cases stepped
        exact evaluates_leaf (.identifier ⟨token, kind⟩) others
      · cases read
    · cases stepped
    · next read => split at read <;> cases read
  | operator links last =>
    simp only [State.step, Chain.step] at stepped
    split at stepped
    · next read =>
      split at read
      · next kind =>
        cases read
        cases stepped
        exact .inr ⟨.add ⟨token, kind⟩, rest, rfl, others⟩
      · next kind =>
        cases read
        cases stepped
        exact .inr ⟨.greater ⟨token, kind⟩, rest, rfl, others⟩
      · cases read
      · cases read
      · cases read
    · cases stepped
    · split at stepped
      · next kind =>
        cases stepped
        rw [Completes, outer_complete] at others
        exact .inl ⟨⟨token, kind⟩, rest, rfl, others⟩
      · cases stepped

/-- A step leaves tokens that complete the state before it, with the token that was read in
front. -/
theorem completes_step {source : List UInt8} {state after : State} {token : Token}
    {rest : List Token} (stepped : State.step source state token = .next after)
    (others : Completes after rest) : Completes state (token :: rest) := by
  cases state with
  | value context purpose chain => exact completes_value stepped others
  | done => cases stepped
  | body context =>
    simp only [State.step] at stepped
    split at stepped
    · next kind =>
      cases stepped
      exact closes_leave ⟨token, kind⟩ others
    · next kind =>
      cases stepped
      exact closes_declare ⟨token, kind⟩ others
    · next kind =>
      cases stepped
      exact closes_branch ⟨token, kind⟩ others
    · next kind =>
      cases stepped
      exact closes_assign ⟨token, kind⟩ others
    · cases stepped
  | signature =>
    simp only [State.step] at stepped
    split at stepped
    · next kind =>
      cases stepped
      exact .inr ⟨⟨token, kind⟩, rest, rfl, others⟩
    · next kind =>
      cases stepped
      exact .inl ⟨⟨token, kind⟩, rest, rfl, others⟩
    · cases stepped
  | start | functionName | openParen | closeParen | resultName | openBrace | declareName
  | declareAssign | assign =>
    -- Only one kind of token goes on from these states.
    simp only [State.step] at stepped
    split at stepped
    · next kind =>
      cases stepped
      exact ⟨⟨token, kind⟩, rest, rfl, others⟩
    · cases stepped

theorem step_not_finished (source : List UInt8) (state : State) (token : Token) (m : Module) :
    State.step source state token ≠ .finished m := by
  unfold State.step
  repeat' split
  all_goals simp

theorem completes_of_ok {source : List UInt8} {state : State} {tokens : List Token} {m : Module}
    (read : (resume source state tokens).1 = .ok m) : Completes state tokens := by
  induction tokens generalizing state with
  | nil =>
    cases state with
    | done => rfl
    | _ => cases read
  | cons token rest ih =>
    rw [resume, run] at read
    split at read
    · next stepped => exact completes_step stepped (ih read)
    · next stepped => exact absurd stepped (step_not_finished source state token _)
    · cases read

theorem definition_of_completes {tokens : List Token} (completes : Completes .start tokens) :
    ∃ d : Definition, d.tokens = tokens := by
  obtain ⟨keyword, _, rfl, name, _, rfl, openParen, _, rfl, closeParen, _, rfl, signed⟩ := completes
  obtain ⟨openBrace, _, rfl, inside⟩ |
    ⟨arrow, _, rfl, result, _, rfl, openBrace, _, rfl, inside⟩ := signed
  · obtain ⟨body, closeBrace, _, rfl, ends, -⟩ := inside.split
    obtain rfl := ends rfl
    exact ⟨⟨keyword, name, openParen, closeParen, none, openBrace, body, closeBrace⟩, rfl⟩
  · obtain ⟨body, closeBrace, _, rfl, ends, -⟩ := inside.split
    obtain rfl := ends rfl
    exact ⟨⟨keyword, name, openParen, closeParen, some (arrow, result), openBrace, body,
      closeBrace⟩, rfl⟩

end States

theorem parse_eq_ok_iff {source : List UInt8} {tokens : List Token} {m : Module} :
    parse source tokens = .ok m ↔ (resume source .start tokens).1 = .ok m := by
  simp only [parse, Reader.readModule, Reader.conclude, Reader.ofTokens]
  cases (run (State.step source) State.atEnd .start tokens).1 with
  | ok found =>
    constructor
    · intro same
      cases same
      rfl
    · intro same
      cases same
      rfl
  | error failure =>
    constructor
    · intro contrary
      cases contrary
    · intro contrary
      cases contrary

theorem parse_definition (source : List UInt8) (d : Definition) :
    parse source d.tokens = .ok (.functions [d.tree source]) := by
  rw [parse_eq_ok_iff, resume_definition]

theorem definition_of_parse {source : List UInt8} {tokens : List Token} {m : Module}
    (parsed : parse source tokens = .ok m) :
    ∃ d : Definition, d.tokens = tokens ∧ m = .functions [d.tree source] := by
  obtain ⟨d, rfl⟩ := definition_of_completes (completes_of_ok (parse_eq_ok_iff.mp parsed))
  rw [parse_definition] at parsed
  cases parsed
  exact ⟨d, rfl, rfl⟩

/-- The parser accepts exactly the token sequences that the grammar derives. The derivation of such
a sequence is unique, and its tree is the answer. -/
theorem parse_accepts_grammar (source : List UInt8) (tokens : List Token) :
    ((∃ m, parse source tokens = .ok m) ↔ ∃ d : Definition, d.tokens = tokens) ∧
      ∀ d : Definition, d.tokens = tokens →
        parse source tokens = .ok (.functions [d.tree source]) ∧
          ∀ other : Definition, other.tokens = tokens → other = d := by
  refine ⟨⟨?_, ?_⟩, ?_⟩
  · rintro ⟨m, parsed⟩
    obtain ⟨d, derives, -⟩ := definition_of_parse parsed
    exact ⟨d, derives⟩
  · rintro ⟨d, rfl⟩
    exact ⟨_, parse_definition source d⟩
  · rintro d rfl
    exact ⟨parse_definition source d, fun other same => Definition.tokens_inj same⟩

end DeltaLang.Parser
