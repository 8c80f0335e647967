import DeltaLang.Proofs.Tree.Viable

namespace DeltaLang.Parser

/-- The kinds of tokens that an expectation is about. The end of the input has none. -/
def Expectation.Admits : Expectation → Token.Kind → Prop
  | .keyword k, kind => kind = .keyword k
  | .symbol s, kind => kind = .symbol s
  | .identifier, kind => kind = .identifier
  | .literal, kind => ∃ type, kind = .literal type
  | .endOfInput, _ => False

/-- Something may follow some tokens: with one more token of its kind they still begin a sequence
that the parser accepts, or they are one where the input may end. -/
def Follows (source : List UInt8) (tokens : List Token) (x : Expectation) : Prop :=
  (∃ token : Token, x.Admits token.kind ∧ Viable source (tokens ++ [token])) ∨
    (x = .endOfInput ∧ Accepts source tokens)

def State.follows : State → List Expectation
  | .signature _ => [.symbol .arrow, .symbol .openBrace]
  | .value _ purpose (.operator _ _) =>
    [.symbol .add, .symbol .greater, .symbol purpose.terminator]
  | state => state.expected

section Continuations

variable {source : List UInt8} {tokens : List Token} {state : State}

/-- A state goes on with the kinds of tokens that may follow. -/
theorem step_next_iff {token : Token} :
    (∃ after, State.step source state token = .next after) ↔
      ∃ x ∈ state.follows, x.Admits token.kind := by
  cases state with
  | value context purpose chain =>
    cases chain with
    | operand links =>
      simp only [State.step, Chain.step, State.follows, State.expected, Chain.expectOperand]
      cases kind : token.kind <;> simp [Expectation.Admits]
    | operator links last =>
      simp only [State.step, Chain.step, State.follows]
      cases kind : token.kind with
      | symbol s => cases s <;> cases purpose <;> simp [Expectation.Admits, Purpose.terminator]
      | _ => simp [Expectation.Admits]
  | done f => simp [State.step, State.follows, State.expected, Expectation.Admits]
  | _ =>
    simp only [State.step, State.follows, State.expected]
    split <;> simp_all [Expectation.Admits]

theorem viable_concat_iff (walked : walk? (State.step source) .start tokens = some state)
    (token : Token) :
    Viable source (tokens ++ [token]) ↔ ∃ x ∈ state.follows, x.Admits token.kind := by
  rw [viable_iff_walk?, walk?_append, walked, ← @step_next_iff source, Option.bind_some]
  constructor
  · rintro ⟨after, reached⟩
    cases stepped : State.step source state token with
    | next between => exact ⟨between, rfl⟩
    | finished m => simp only [walk?, stepped, reduceCtorEq] at reached
    | failed expected read => simp only [walk?, stepped, reduceCtorEq] at reached
  · rintro ⟨after, stepped⟩
    exact ⟨after, walk?_next stepped []⟩

theorem accepts_iff (walked : walk? (State.step source) .start tokens = some state) :
    Accepts source tokens ↔ .endOfInput ∈ state.follows := by
  have reached : resume source .start tokens = resume source state [] := by
    simpa using run_walk? walked State.atEnd []
  simp only [Accepts, parse_eq_ok_iff, reached]
  cases state with
  | value context purpose chain =>
    cases chain <;>
      simp [resume, run, State.atEnd, State.follows, State.expected, Chain.expectOperand]
  | _ => simp [resume, run, State.atEnd, State.follows, State.expected]

/-- No kind of token belongs to two expectations. -/
theorem Expectation.Admits.unique {x y : Expectation} {kind : Token.Kind} (admits : x.Admits kind)
    (admits' : y.Admits kind) : x = y := by
  cases x <;> cases y <;> simp_all [Expectation.Admits]

theorem Expectation.admits_token {x : Expectation} (inside : x ≠ .endOfInput) :
    ∃ token : Token, x.Admits token.kind := by
  cases x with
  | keyword k => exact ⟨ofKind (.keyword k), rfl⟩
  | symbol s => exact ⟨ofKind (.symbol s), rfl⟩
  | identifier => exact ⟨ofKind .identifier, rfl⟩
  | literal => exact ⟨ofKind (.literal .number), .number, rfl⟩
  | endOfInput => exact absurd rfl inside

theorem follows_iff (walked : walk? (State.step source) .start tokens = some state)
    (x : Expectation) : Follows source tokens x ↔ x ∈ state.follows := by
  constructor
  · rintro (⟨token, admits, viable⟩ | ⟨rfl, accepted⟩)
    · obtain ⟨y, member, admits'⟩ := (viable_concat_iff walked token).mp viable
      rwa [admits.unique admits']
    · exact (accepts_iff walked).mp accepted
  · intro member
    by_cases ends : x = .endOfInput
    · subst ends
      exact .inr ⟨rfl, (accepts_iff walked).mpr member⟩
    · obtain ⟨token, admits⟩ := Expectation.admits_token ends
      exact .inl ⟨token, admits, (viable_concat_iff walked token).mpr ⟨x, member, admits⟩⟩

end Continuations

section Reports

/-- Whether an expression ends before a token, or at the end of the input. -/
def endsExpression (offender : Option Token) : Bool :=
  offender.all fun token => token.kind = .symbol .semicolon || token.kind = .symbol .openBrace

/-- What a state is reported to expect where it does not go on. -/
def State.reported (state : State) (offender : Option Token) : List Expectation :=
  match state with
  | .value _ purpose (.operator _ _) =>
    if endsExpression offender then [.symbol purpose.terminator] else Chain.expectOperator
  | state => state.expected

theorem reported_of_failed {source : List UInt8} {state : State} {token : Token}
    {expected : List Expectation} {read : Bool}
    (stepped : State.step source state token = .failed expected read) :
    expected = state.reported (some token) := by
  cases state with
  | value context purpose chain =>
    cases chain with
    | operand links =>
      simp only [State.step, Chain.step] at stepped
      cases kind : token.kind <;> simp_all [State.reported, State.expected]
    | operator links last =>
      obtain ⟨kind, span, location⟩ := token
      cases kind with
      | symbol s =>
        cases s <;> cases purpose <;>
          simp_all [State.step, Chain.step, State.reported, endsExpression, Purpose.terminator]
      | _ => simp_all [State.step, Chain.step, State.reported, endsExpression]
  | done f => simp_all [State.step, State.reported]
  | _ =>
    simp only [State.step] at stepped
    split at stepped <;> simp_all [State.reported]

theorem reported_of_ended {state : State} {expected : List Expectation}
    (stopped : State.atEnd state = .error expected) : expected = state.reported none := by
  cases state with
  | value context purpose chain =>
    cases chain <;>
      simp_all [State.atEnd, State.reported, State.expected, endsExpression, Chain.expectOperand]
  | _ => simp_all [State.atEnd, State.reported]

/-- The expectations that are ever reported. -/
def reportable : List Expectation :=
  [.keyword .function, .keyword .declare, .keyword .condition, .identifier, .literal,
    .endOfInput] ++ Symbol.all.map .symbol

theorem reported_reportable (state : State) (offender : Option Token) :
    ∀ x ∈ state.reported offender, x ∈ reportable := by
  cases state with
  | value context purpose chain =>
    cases chain with
    | operand links =>
      simp [State.reported, State.expected, Chain.expectOperand, reportable]
    | operator links last =>
      simp only [State.reported]
      split
      · cases purpose <;> simp [Purpose.terminator, reportable, Symbol.all]
      · simp [Chain.expectOperator, reportable, Symbol.all]
  | _ => simp [State.reported, State.expected, reportable, Symbol.all]

/-- What is reported is told from everything else by its text. -/
theorem text_inj {x y : Expectation} (member : y ∈ reportable) (same : x.text = y.text) :
    x = y := by
  have known : ∀ y ∈ reportable, ∀ x ∈ .keyword .result :: reportable, x.text = y.text → x = y := by
    decide
  have letter : ∀ y ∈ reportable,
      y.text.toList.head? ≠ some 'S' ∧ y.text.toList.head? ≠ some 'K' := by
    decide
  have others := letter y member
  rw [← same] at others
  apply known y member x _ same
  cases x with
  | keyword k =>
    cases k with
    | other code => simp [Expectation.text, Keyword.spelling] at others
    | _ => decide
  | symbol s =>
    cases s with
    | other code => simp [Expectation.text, Symbol.spelling] at others
    | _ => decide
  | _ => decide

theorem text_mem_iff {state : State} {offender : Option Token} {x : Expectation} :
    x.text ∈ (state.reported offender).map Expectation.text ↔ x ∈ state.reported offender := by
  constructor
  · intro named
    obtain ⟨y, member, same⟩ := List.mem_map.mp named
    rwa [text_inj (reported_reportable state offender y member) same.symm]
  · exact List.mem_map_of_mem

/-- Behind the parentheses of a function. -/
theorem reported_of_arrow {state : State} (arrow : .symbol .arrow ∈ state.follows)
    (offender : Option Token) :
    state.follows = [.symbol .arrow, .symbol .openBrace] ∧
      state.reported offender = [.symbol .openBrace] := by
  cases state with
  | signature name => exact ⟨rfl, rfl⟩
  | value context purpose chain =>
    cases chain with
    | operand links => simp [State.follows, State.expected, Chain.expectOperand] at arrow
    | operator links last => cases purpose <;> simp [State.follows, Purpose.terminator] at arrow
  | _ => simp [State.follows, State.expected] at arrow

/-- Behind an operand. -/
theorem reported_of_add {state : State} (add : .symbol .add ∈ state.follows)
    (offender : Option Token) :
    ∃ stop : Symbol, (stop = .semicolon ∨ stop = .openBrace) ∧
      state.follows = [.symbol .add, .symbol .greater, .symbol stop] ∧
      state.reported offender =
        if endsExpression offender then [.symbol stop] else Chain.expectOperator := by
  cases state with
  | value context purpose chain =>
    cases chain with
    | operand links => simp [State.follows, State.expected, Chain.expectOperand] at add
    | operator links last =>
      exact ⟨purpose.terminator, by cases purpose <;> simp [Purpose.terminator], rfl, rfl⟩
  | _ => simp [State.follows, State.expected] at add

/-- Everywhere else. -/
theorem reported_elsewhere {state : State} (arrow : .symbol .arrow ∉ state.follows)
    (add : .symbol .add ∉ state.follows) (offender : Option Token) :
    state.reported offender = state.follows := by
  cases state with
  | signature name => simp [State.follows] at arrow
  | value context purpose chain =>
    cases chain with
    | operand links => rfl
    | operator links last => simp [State.follows] at add
  | _ => rfl

theorem reported_exact_iff (state : State) (offender : Option Token) :
    (∀ x, x ∈ state.reported offender ↔ x ∈ state.follows) ↔
      .symbol .arrow ∉ state.follows ∧ .symbol .add ∉ state.follows := by
  constructor
  · intro exact
    refine ⟨?_, ?_⟩
    · intro arrow
      obtain ⟨-, reported⟩ := reported_of_arrow arrow offender
      have named := (exact (.symbol .arrow)).mpr arrow
      simp [reported] at named
    · intro add
      obtain ⟨stop, ends, follows, reported⟩ := reported_of_add add offender
      rw [follows, reported] at exact
      split at exact
      · -- the sign that may go on is not named
        have named := (exact (.symbol .add)).mpr (by simp)
        rcases ends with rfl | rfl <;> simp at named
      · -- one of the two symbols that are named may not follow
        have semicolon := (exact (.symbol .semicolon)).mp (by simp [Chain.expectOperator])
        have openBrace := (exact (.symbol .openBrace)).mp (by simp [Chain.expectOperator])
        rcases ends with rfl | rfl
        · simp at openBrace
        · simp at semicolon
  · rintro ⟨arrow, add⟩ x
    rw [reported_elsewhere arrow add]

end Reports

section Diagnostics

variable {source : List UInt8} {tokens : List Token} {u : Unexpected}

/-- A diagnostic is about the token of a number, behind which nothing can help any more, or about
the end of the input behind all tokens. -/
structure StopsAt (source : List UInt8) (tokens : List Token) (u : Unexpected) (i : Nat) :
    Prop where
  inside : i ≤ tokens.length
  got : u.got = tokens[i]?.map (·.describe source)
  begun : Viable source (tokens.take i)
  stuck : ∀ token, tokens[i]? = some token →
    u.span = token.span ∧ u.location = token.location ∧ ¬Viable source (tokens.take (i + 1))

/-- What a diagnostic expects is what is reported for the state before its place. -/
theorem expected_of_failed (failed : parse source tokens = .error u) :
    ∃ i state, StopsAt source tokens u i ∧
      walk? (State.step source) .start (tokens.take i) = some state ∧
      u.expected = (state.reported tokens[i]?).map Expectation.text := by
  obtain ⟨failure, fails, rfl⟩ := failure_of_parse failed
  cases fails with
  | @refused front back token state expected read walked stepped =>
    have before : (front ++ token :: back).take front.length = front := List.take_left
    have through : (front ++ token :: back).take (front.length + 1) = front ++ [token] := by
      rw [List.take_length_add_append, List.take_succ_cons, List.take_zero]
    have here : (front ++ token :: back)[front.length]? = some token := by simp
    refine ⟨front.length, state, ⟨by simp, ?_, ?_, ?_⟩, ?_, ?_⟩
    · rw [here]
      rfl
    · rw [before]
      exact viable_iff_walk?.mpr ⟨state, walked⟩
    · intro offender same
      obtain rfl : token = offender := Option.some.inj (here.symm.trans same)
      rw [through]
      exact ⟨rfl, rfl, not_viable_of_failed walked stepped⟩
    · rw [before, walked]
    · rw [here, ← reported_of_failed stepped]
      rfl
  | @ended tokens state expected walked stopped =>
    have behind : tokens[tokens.length]? = none := List.getElem?_eq_none (Nat.le_refl _)
    have whole : tokens.take tokens.length = tokens := List.take_length
    refine ⟨tokens.length, state, ⟨Nat.le_refl _, ?_, ?_, ?_⟩, ?_, ?_⟩
    · rw [behind]
      simp only [Reader.report]
      split <;> rfl
    · rw [whole]
      exact viable_iff_walk?.mpr ⟨state, walked⟩
    · intro token contrary
      rw [behind] at contrary
      cases contrary
    · rw [whole, walked]
    · rw [behind, ← reported_of_ended stopped]
      simp only [Reader.report]
      split <;> rfl

/-- What a diagnostic expects is exactly what may follow, unless an arrow or a sign may follow.
Where an arrow may, it is not named. Where a sign may, an expression may end with one of two symbols
only; before such a symbol, and at the end of the input, only the right one is named, and before all
else both of them together with the signs. -/
theorem expected_exact_iff (failed : parse source tokens = .error u) :
    ∃ i, StopsAt source tokens u i ∧
      ((∀ x : Expectation, x.text ∈ u.expected ↔ Follows source (tokens.take i) x) ↔
        ¬Follows source (tokens.take i) (.symbol .arrow) ∧
          ¬Follows source (tokens.take i) (.symbol .add)) ∧
      (Follows source (tokens.take i) (.symbol .arrow) →
        (∀ x, Follows source (tokens.take i) x ↔ x = .symbol .arrow ∨ x = .symbol .openBrace) ∧
          u.expected = ["\x7b"]) ∧
      (Follows source (tokens.take i) (.symbol .add) →
        ∃ stop : Symbol, (stop = .semicolon ∨ stop = .openBrace) ∧
          (∀ x, Follows source (tokens.take i) x ↔
            x = .symbol .add ∨ x = .symbol .greater ∨ x = .symbol stop) ∧
          u.expected =
            if endsExpression tokens[i]? then [stop.spelling] else ["+", ">", ";", "\x7b"]) := by
  obtain ⟨i, state, stops, walked, expected⟩ := expected_of_failed failed
  refine ⟨i, stops, ?_, ?_, ?_⟩
  · simp only [follows_iff walked, expected, text_mem_iff]
    exact reported_exact_iff state tokens[i]?
  · intro arrow
    obtain ⟨follows, reported⟩ := reported_of_arrow ((follows_iff walked _).mp arrow) tokens[i]?
    refine ⟨?_, by rw [expected, reported]; rfl⟩
    intro x
    simp [follows_iff walked, follows]
  · intro add
    obtain ⟨stop, ends, follows, reported⟩ :=
      reported_of_add ((follows_iff walked _).mp add) tokens[i]?
    refine ⟨stop, ends, ?_, ?_⟩
    · intro x
      simp [follows_iff walked, follows]
    · rw [expected, reported]
      split <;> rfl

/-- In `fn f() ;` an arrow may stand in the place of the semicolon, and is not named. -/
theorem expected_misses_arrow :
    let tokens := inRow [.keyword .function, .identifier, .symbol .openParen, .symbol .closeParen,
      .symbol .semicolon]
    let u : Unexpected := ⟨some "symbol ';'", ["\x7b"], ⟨4, 5⟩, ⟨0, 4⟩⟩
    parse [] tokens = .error u ∧ Follows [] (tokens.take 4) (.symbol .arrow) ∧
      ¬∀ x : Expectation, x.text ∈ u.expected ↔ Follows [] (tokens.take 4) x := by
  intro tokens u
  have failed : parse [] tokens = .error u := rfl
  have arrow : Follows [] (tokens.take 4) (.symbol .arrow) := by
    refine .inl ⟨ofKind (.symbol .arrow), rfl, _, ⟨[ofKind .identifier, ofKind (.symbol .openBrace),
      ofKind (.symbol .closeBrace)], rfl⟩, _, rfl⟩
  obtain ⟨i, stops, exact, -⟩ := expected_exact_iff failed
  have place : ∀ j ≤ 5, tokens[j]?.map (·.describe []) = some "symbol ';'" → j = 4 := by decide
  obtain rfl : i = 4 := place i stops.inside stops.got.symm
  exact ⟨failed, arrow, fun all => (exact.mp all).1 arrow⟩

end Diagnostics

end DeltaLang.Parser
