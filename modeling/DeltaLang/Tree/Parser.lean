import DeltaLang.Token
import DeltaLang.Tree
import DeltaLang.Error

/-!
Reading tokens as a tree. The grammar is

    module     := `fn` identifier `(` `)` (`->` identifier)? body
    body       := `{` statement* `}`
    statement  := `let` identifier `=` expression `;`
                | identifier `=` expression `;`
                | `if` expression body
    expression := (literal | identifier) ((`+` | `>`) expression)?

One token of it decides what comes next, so the reader is a machine that takes the tokens one by
one: its state holds what has been read so far, and the open bodies as a stack.
-/

namespace DeltaLang.Parser

/-- What may stand at a place in the token sequence. -/
inductive Expectation where
  | keyword (keyword : Keyword)
  | symbol (symbol : Symbol)
  | identifier
  | literal
  | endOfInput
  deriving DecidableEq, Repr

namespace Expectation

def text : Expectation → String
  | .keyword k => k.spelling
  | .symbol s => s.spelling
  | .identifier => "identifier"
  | .literal => "literal"
  | .endOfInput => "end of input"

end Expectation

/-- A place where reading cannot go on: the token found there, none at the end of the input, and
what could have stood there. -/
structure Failure where
  offender : Option Token
  expected : List Expectation
  deriving DecidableEq, Repr

/-- The answer of the machine to one token: a new state, a result that leaves the token unread, or
a failure, which counts the token as read or not. -/
inductive Step (σ α : Type) where
  | next (state : σ)
  | finished (result : α)
  | failed (expected : List Expectation) (read : Bool)

/-- Feeds tokens to a machine until it is finished or fails, and gives the tokens it left unread.
`atEnd` answers the end of the input. -/
def run {σ α : Type} (step : σ → Token → Step σ α) (atEnd : σ → Except (List Expectation) α) :
    σ → List Token → Except Failure α × List Token
  | state, [] =>
    (match atEnd state with
      | .ok result => .ok result
      | .error expected => .error ⟨none, expected⟩, [])
  | state, token :: rest =>
    match step state token with
    | .next state => run step atEnd state rest
    | .finished result => (.ok result, token :: rest)
    | .failed expected read =>
      (.error ⟨some token, expected⟩, if read then rest else token :: rest)

/-- An expression under construction. `links` are the operands that have been read with the
operator after each, the last first. -/
inductive Chain where
  | operand (links : List (Expr × Operator))
  | operator (links : List (Expr × Operator)) (last : Expr)
  deriving DecidableEq, Repr

namespace Chain

/-- The finished expression. Chains associate to the right. -/
def close (links : List (Expr × Operator)) (last : Expr) : Expr :=
  links.foldl (fun right link => .binary link.1 link.2 right) last

def expectOperand : List Expectation :=
  [.literal, .identifier]

def expectOperator : List Expectation :=
  [.symbol .add, .symbol .greater, .symbol .semicolon, .symbol .openBrace]

/-- An expression ends before `;` and `{`. -/
def step (source : List UInt8) : Chain → Token → Step Chain Expr
  | .operand links, token =>
    match token.kind with
    | .literal type => .next (.operator links (.lit (token.text source) type))
    | .identifier => .next (.operator links (.var (token.text source)))
    | _ => .failed expectOperand true
  | .operator links last, token =>
    match token.kind with
    | .symbol .add => .next (.operand ((last, .add) :: links))
    | .symbol .greater => .next (.operand ((last, .greater) :: links))
    | .symbol .semicolon => .finished (close links last)
    | .symbol .openBrace => .finished (close links last)
    | _ => .failed expectOperator false

def atEnd : Chain → Except (List Expectation) Expr
  | .operand _ => .error expectOperand
  | .operator links last => .ok (close links last)

end Chain

/-- What an expression is read for. -/
inductive Purpose where
  | declare (name : String)
  | assign (name : String)
  | condition
  deriving DecidableEq, Repr

namespace Purpose

/-- The symbol that must follow the expression. -/
def terminator : Purpose → Symbol
  | .declare _ => .semicolon
  | .assign _ => .semicolon
  | .condition => .openBrace

end Purpose

/-- The bodies that are open around a place: the statements of the innermost one, and for every
body around it the condition of the branch it waits for and its statements before that branch.
Statements are held last first. -/
structure Context where
  name : String
  result : Option String
  statements : List Stmt
  outer : List (Expr × List Stmt)

namespace Context

def push (c : Context) (s : Stmt) : Context :=
  { c with statements := s :: c.statements }

def enter (c : Context) (condition : Expr) : Context :=
  { c with statements := [], outer := (condition, c.statements) :: c.outer }

/-- The context after an expression and the symbol that ends it. -/
def complete (c : Context) (e : Expr) : Purpose → Context
  | .declare name => c.push (.declare name e)
  | .assign name => c.push (.evaluate (.assignTo name e))
  | .condition => c.enter e

end Context

/-- How far a module has been read. -/
inductive State where
  | start
  | functionName
  | openParen (name : String)
  | closeParen (name : String)
  | signature (name : String)
  | resultName (name : String)
  | openBrace (name result : String)
  | body (context : Context)
  | declareName (context : Context)
  | declareAssign (context : Context) (name : String)
  | assign (context : Context) (name : String)
  | value (context : Context) (purpose : Purpose) (chain : Chain)
  | done (function : Function)

namespace State

/-- The state after the brace that closes the innermost body. -/
def leave (c : Context) : State :=
  match c.outer with
  | [] => .done ⟨c.name, [], c.result, c.statements.reverse⟩
  | (condition, before) :: outer =>
    .body { c with statements := .branch condition c.statements.reverse :: before, outer := outer }

/-- What may follow, where only one token can. -/
def expected : State → List Expectation
  | .start => [.keyword .function]
  | .functionName => [.identifier]
  | .openParen _ => [.symbol .openParen]
  | .closeParen _ => [.symbol .closeParen]
  | .signature _ => [.symbol .openBrace]
  | .resultName _ => [.identifier]
  | .openBrace _ _ => [.symbol .openBrace]
  | .body _ => [.keyword .declare, .keyword .condition, .identifier, .symbol .closeBrace]
  | .declareName _ => [.identifier]
  | .declareAssign _ _ => [.symbol .assign]
  | .assign _ _ => [.symbol .assign]
  | .value _ _ (.operand _) => Chain.expectOperand
  | .value _ purpose (.operator _ _) => [.symbol purpose.terminator]
  | .done _ => [.endOfInput]

def step (source : List UInt8) (state : State) (token : Token) : Step State Module :=
  let refuse : Step State Module := .failed state.expected true
  match state with
  | .start =>
    match token.kind with
    | .keyword .function => .next .functionName
    | _ => refuse
  | .functionName =>
    match token.kind with
    | .identifier => .next (.openParen (token.text source))
    | _ => refuse
  | .openParen name =>
    match token.kind with
    | .symbol .openParen => .next (.closeParen name)
    | _ => refuse
  | .closeParen name =>
    match token.kind with
    | .symbol .closeParen => .next (.signature name)
    | _ => refuse
  | .signature name =>
    match token.kind with
    | .symbol .arrow => .next (.resultName name)
    | .symbol .openBrace => .next (.body ⟨name, none, [], []⟩)
    | _ => refuse
  | .resultName name =>
    match token.kind with
    | .identifier => .next (.openBrace name (token.text source))
    | _ => refuse
  | .openBrace name result =>
    match token.kind with
    | .symbol .openBrace => .next (.body ⟨name, some result, [], []⟩)
    | _ => refuse
  | .body context =>
    match token.kind with
    | .symbol .closeBrace => .next (leave context)
    | .keyword .declare => .next (.declareName context)
    | .keyword .condition => .next (.value context .condition (.operand []))
    | .identifier => .next (.assign context (token.text source))
    | _ => refuse
  | .declareName context =>
    match token.kind with
    | .identifier => .next (.declareAssign context (token.text source))
    | _ => refuse
  | .declareAssign context name =>
    match token.kind with
    | .symbol .assign => .next (.value context (.declare name) (.operand []))
    | _ => refuse
  | .assign context name =>
    match token.kind with
    | .symbol .assign => .next (.value context (.assign name) (.operand []))
    | _ => refuse
  | .value context purpose chain =>
    match chain.step source token with
    | .next chain => .next (.value context purpose chain)
    | .failed expected read => .failed expected read
    | .finished e =>
      if token.kind = .symbol purpose.terminator then
        .next (.body (context.complete e purpose))
      else .failed [.symbol purpose.terminator] true
  | .done _ => .failed state.expected false

def atEnd : State → Except (List Expectation) Module
  | .done function => .ok (.functions [function])
  | state => .error state.expected

end State

/-- A token sequence and how much of it is still to be read. -/
structure Reader where
  source : List UInt8
  tokens : List Token
  rest : List Token

namespace Reader

def ofTokens (source : List UInt8) (tokens : List Token) : Reader :=
  ⟨source, tokens, tokens⟩

/-- The diagnostic for a failure. The end of the input has the location of the last token, and its
span is empty, behind that token. -/
def report (r : Reader) (failure : Failure) : Unexpected :=
  let expected := failure.expected.map Expectation.text
  match failure.offender with
  | some token => ⟨some (token.describe r.source), expected, token.span, token.location⟩
  | none =>
    match r.tokens.getLast? with
    | some last => ⟨none, expected, ⟨last.span.stop, last.span.stop⟩, last.location⟩
    | none => ⟨none, expected, ⟨0, 0⟩, ⟨0, 0⟩⟩

def conclude {α : Type} (r : Reader) (answer : Except Failure α × List Token) :
    Except Unexpected α × Reader :=
  (answer.1.mapError r.report, { r with rest := answer.2 })

/-- Reads one function, which must reach to the end of the input. -/
def readModule (r : Reader) : Except Unexpected Module × Reader :=
  r.conclude (run (State.step r.source) State.atEnd .start r.rest)

/-- Reads one expression. -/
def readExpression (r : Reader) : Except Unexpected Expr × Reader :=
  r.conclude (run (Chain.step r.source) Chain.atEnd (.operand []) r.rest)

end Reader

def parse (source : List UInt8) (tokens : List Token) : Except Unexpected Module :=
  (Reader.ofTokens source tokens).readModule.1

def parseExpression (source : List UInt8) (tokens : List Token) : Except Unexpected Expr :=
  (Reader.ofTokens source tokens).readExpression.1

end DeltaLang.Parser
