import DeltaLang.Proofs.Tree.Parser

namespace DeltaLang.Parser

section Walk

variable {σ α : Type} {step : σ → Token → Step σ α} {state after : σ}

/-- The state that a machine comes to over some tokens, none if it does not get over all of them. -/
def walk? (step : σ → Token → Step σ α) : σ → List Token → Option σ
  | state, [] => some state
  | state, token :: rest =>
    match step state token with
    | .next after => walk? step after rest
    | _ => none

theorem walk?_next {token : Token} (stepped : step state token = .next after) (rest : List Token) :
    walk? step state (token :: rest) = walk? step after rest := by
  simp only [walk?, stepped]

theorem walk?_append (front back : List Token) :
    walk? step state (front ++ back) =
      (walk? step state front).bind fun between => walk? step between back := by
  induction front generalizing state with
  | nil => rfl
  | cons token rest ih =>
    rw [List.cons_append]
    cases stepped : step state token with
    | next between => rw [walk?_next stepped, walk?_next stepped, ih]
    | finished result => simp only [walk?, stepped, Option.bind_none]
    | failed expected read => simp only [walk?, stepped, Option.bind_none]

/-- Behind tokens that it gets over a machine is run from where they have led it. -/
theorem run_walk? {front : List Token} (walked : walk? step state front = some after)
    (atEnd : σ → Except (List Expectation) α) (rest : List Token) :
    run step atEnd state (front ++ rest) = run step atEnd after rest := by
  induction front generalizing state with
  | nil =>
    cases walked
    rfl
  | cons token others ih =>
    rw [List.cons_append]
    cases stepped : step state token with
    | next between =>
      rw [walk?_next stepped] at walked
      rw [run, stepped]
      exact ih walked
    | finished result => simp only [walk?, stepped, reduceCtorEq] at walked
    | failed expected read => simp only [walk?, stepped, reduceCtorEq] at walked

/-- How a run fails: a token is refused, or the end of the input is. -/
inductive Fails (step : σ → Token → Step σ α) (atEnd : σ → Except (List Expectation) α)
    (state : σ) : List Token → Failure → Prop
  | refused {front back : List Token} {token : Token} {after : σ} {expected : List Expectation}
      {read : Bool} (walked : walk? step state front = some after)
      (stepped : step after token = .failed expected read) :
      Fails step atEnd state (front ++ token :: back) ⟨some token, expected⟩
  | ended {tokens : List Token} {after : σ} {expected : List Expectation}
      (walked : walk? step state tokens = some after) (stopped : atEnd after = .error expected) :
      Fails step atEnd state tokens ⟨none, expected⟩

theorem Fails.cons {atEnd : σ → Except (List Expectation) α} {token : Token} {rest : List Token}
    {failure : Failure} (stepped : step state token = .next after)
    (fails : Fails step atEnd after rest failure) :
    Fails step atEnd state (token :: rest) failure := by
  cases fails with
  | @refused front back offender last expected read walked failed =>
    have longer : walk? step state (token :: front) = some last := by
      rw [walk?_next stepped, walked]
    exact .refused longer failed
  | ended walked stopped => exact .ended (by rw [walk?_next stepped, walked]) stopped

theorem fails_of_run {atEnd : σ → Except (List Expectation) α} {tokens : List Token}
    {failure : Failure} (failed : (run step atEnd state tokens).1 = .error failure) :
    Fails step atEnd state tokens failure := by
  induction tokens generalizing state with
  | nil =>
    simp only [run] at failed
    split at failed
    · cases failed
    · next stopped =>
      cases failed
      exact .ended rfl stopped
  | cons token rest ih =>
    rw [run] at failed
    split at failed
    · next stepped => exact (ih failed).cons stepped
    · cases failed
    · next stepped =>
      cases failed
      have nothing : walk? step state [] = some state := rfl
      exact .refused nothing stepped

end Walk

section Completion

variable {source : List UInt8}

/-- Some tokens lead from a state to the end of a definition. -/
def Completable (source : List UInt8) (state : State) : Prop :=
  ∃ (rest : List Token) (m : Module), (resume source state rest).1 = .ok m

/-- A token that stands nowhere. -/
def ofKind (kind : Token.Kind) : Token :=
  ⟨kind, ⟨0, 0⟩, ⟨0, 0⟩⟩

theorem Completable.step {state after : State} (completable : Completable source after)
    (kind : Token.Kind) (stepped : State.step source state (ofKind kind) = .next after) :
    Completable source state := by
  obtain ⟨rest, m, read⟩ := completable
  exact ⟨ofKind kind :: rest, m, by rw [resume_next stepped, read]⟩

theorem completable_done (f : Function) : Completable source (.done f) :=
  ⟨[], .functions [f], rfl⟩

/-- The open bodies are closed one after the other. -/
theorem completable_body (context : Context) : Completable source (.body context) := by
  obtain ⟨name, result, statements, outer⟩ := context
  induction outer generalizing statements with
  | nil => exact (completable_done _).step (.symbol .closeBrace) rfl
  | cons branch outer ih => exact (ih _).step (.symbol .closeBrace) rfl

theorem completable_value (context : Context) (purpose : Purpose) (chain : Chain) :
    Completable source (.value context purpose chain) := by
  have operator (links : List (Expr × Operator)) (last : Expr) :
      Completable source (.value context purpose (.operator links last)) :=
    (completable_body _).step (.symbol purpose.terminator)
      (step_terminator source context purpose links last rfl)
  cases chain with
  | operand links => exact (operator links _).step .identifier rfl
  | operator links last => exact operator links last

/-- No state is a dead end. -/
theorem completable (state : State) : Completable source state := by
  have assigned (context : Context) (purpose : Purpose) :
      Completable source (.value context purpose (.operand [])) :=
    completable_value context purpose (.operand [])
  have declared (context : Context) (name : String) :
      Completable source (.declareAssign context name) :=
    (assigned context (.declare name)).step (.symbol .assign) rfl
  have opened (name result : String) : Completable source (.openBrace name result) :=
    (completable_body _).step (.symbol .openBrace) rfl
  have signed (name : String) : Completable source (.signature name) :=
    (completable_body _).step (.symbol .openBrace) rfl
  have closed (name : String) : Completable source (.closeParen name) :=
    (signed name).step (.symbol .closeParen) rfl
  have named (name : String) : Completable source (.openParen name) :=
    (closed name).step (.symbol .openParen) rfl
  have started : Completable source .functionName := (named _).step .identifier rfl
  cases state with
  | start => exact started.step (.keyword .function) rfl
  | functionName => exact started
  | openParen name => exact named name
  | closeParen name => exact closed name
  | signature name => exact signed name
  | resultName name => exact (opened name _).step .identifier rfl
  | openBrace name result => exact opened name result
  | body context => exact completable_body context
  | declareName context => exact (declared context _).step .identifier rfl
  | declareAssign context name => exact declared context name
  | assign context name => exact (assigned context (.assign name)).step (.symbol .assign) rfl
  | value context purpose chain => exact completable_value context purpose chain
  | done f => exact completable_done f

end Completion

section Viable

variable {source : List UInt8} {tokens : List Token}

def Accepts (source : List UInt8) (tokens : List Token) : Prop :=
  ∃ m, parse source tokens = .ok m

/-- Some tokens begin a sequence that the parser accepts. -/
def Viable (source : List UInt8) (tokens : List Token) : Prop :=
  ∃ whole, tokens <+: whole ∧ Accepts source whole

theorem walk?_of_accepts {state : State} {m : Module}
    (read : (resume source state tokens).1 = .ok m) :
    ∃ after, walk? (State.step source) state tokens = some after := by
  induction tokens generalizing state with
  | nil => exact ⟨state, rfl⟩
  | cons token rest ih =>
    rw [resume, run] at read
    split at read
    · next stepped =>
      obtain ⟨after, walked⟩ := ih read
      exact ⟨after, by rw [walk?_next stepped, walked]⟩
    · next stepped => exact absurd stepped (step_not_finished source state token _)
    · cases read

/-- The machine gets over some tokens exactly if they can be completed. -/
theorem viable_iff_walk? :
    Viable source tokens ↔ ∃ state, walk? (State.step source) .start tokens = some state := by
  constructor
  · rintro ⟨_, ⟨rest, rfl⟩, m, parsed⟩
    obtain ⟨after, walked⟩ := walk?_of_accepts (parse_eq_ok_iff.mp parsed)
    rw [walk?_append] at walked
    obtain ⟨state, reached, -⟩ := Option.bind_eq_some_iff.mp walked
    exact ⟨state, reached⟩
  · rintro ⟨state, walked⟩
    obtain ⟨rest, m, read⟩ : Completable source state := completable state
    refine ⟨tokens ++ rest, List.prefix_append tokens rest, m, parse_eq_ok_iff.mpr ?_⟩
    rw [resume, run_walk? walked, read]

/-- What is refused in a state that some tokens lead to cannot follow them. -/
theorem not_viable_of_failed {state : State} {token : Token} {expected : List Expectation}
    {read : Bool} (walked : walk? (State.step source) .start tokens = some state)
    (stepped : State.step source state token = .failed expected read) :
    ¬Viable source (tokens ++ [token]) := by
  rw [viable_iff_walk?, walk?_append, walked]
  simp [walk?, stepped]

theorem describe_filled (token : Token) : token.describe source ≠ "" := by
  unfold Token.describe
  split <;> simp

end Viable

theorem failure_of_parse {source : List UInt8} {tokens : List Token} {u : Unexpected}
    (failed : parse source tokens = .error u) :
    ∃ failure, Fails (State.step source) State.atEnd .start tokens failure ∧
      u = (Reader.ofTokens source tokens).report failure := by
  simp only [parse, Reader.readModule, Reader.conclude, Reader.ofTokens] at failed
  cases answer : (run (State.step source) State.atEnd .start tokens).1 with
  | ok m =>
    rw [answer] at failed
    cases failed
  | error failure =>
    rw [answer] at failed
    cases failed
    exact ⟨failure, fails_of_run answer, rfl⟩

/-- A failure points at the first token with which the tokens so far begin nothing that the parser
accepts. Where all of them begin something and yet are not all of it, the end of the input is
reported. -/
theorem parse_stops_at_first_impossible {source : List UInt8} {tokens : List Token} {u : Unexpected}
    (failed : parse source tokens = .error u) :
    (∃ (i : Nat) (token : Token), tokens[i]? = some token ∧
        u.got = some (token.describe source) ∧ token.describe source ≠ "" ∧
        u.span = token.span ∧ u.location = token.location ∧
        Viable source (tokens.take i) ∧ ¬Viable source (tokens.take (i + 1))) ∨
      (u.got = none ∧ Viable source tokens ∧ ¬Accepts source tokens) := by
  obtain ⟨failure, fails, rfl⟩ := failure_of_parse failed
  cases fails with
  | @refused front back token state expected read walked stepped =>
    left
    have before : (front ++ token :: back).take front.length = front := List.take_left
    have through : (front ++ token :: back).take (front.length + 1) = front ++ [token] := by
      rw [List.take_length_add_append, List.take_succ_cons, List.take_zero]
    refine ⟨front.length, token, by simp, rfl, describe_filled token, rfl, rfl, ?_, ?_⟩
    · rw [before]
      exact viable_iff_walk?.mpr ⟨state, walked⟩
    · rw [through]
      exact not_viable_of_failed walked stepped
  | @ended tokens state expected walked stopped =>
    right
    refine ⟨?_, viable_iff_walk?.mpr ⟨state, walked⟩, ?_⟩
    · simp only [Reader.report]
      split <;> rfl
    · rintro ⟨m, parsed⟩
      rw [failed] at parsed
      cases parsed

/-- Tokens of the given kinds, of one byte each and without anything between them. -/
def inRow (kinds : List Token.Kind) : List Token :=
  kinds.zipIdx.map fun (kind, place) => ⟨kind, ⟨place, place + 1⟩, ⟨0, place⟩⟩

/-- The brace in `fn f() { if a { b = c }` stands where a semicolon is missing. -/
theorem parse_stops_at_first_impossible_nested :
    let tokens := inRow [.keyword .function, .identifier, .symbol .openParen, .symbol .closeParen,
      .symbol .openBrace, .keyword .condition, .identifier, .symbol .openBrace, .identifier,
      .symbol .assign, .identifier, .symbol .closeBrace]
    parse [] tokens = .error ⟨some "symbol '\x7d'", ["+", ">", ";", "\x7b"], ⟨11, 12⟩, ⟨0, 11⟩⟩ ∧
      Viable [] (tokens.take 11) ∧ ¬Viable [] (tokens.take 12) := by
  intro tokens
  have failed : parse [] tokens =
    .error ⟨some "symbol '\x7d'", ["+", ">", ";", "\x7b"], ⟨11, 12⟩, ⟨0, 11⟩⟩ := rfl
  obtain ⟨i, token, here, -, -, span, -, viable, stuck⟩ | ⟨ended, -⟩ :=
    parse_stops_at_first_impossible failed
  · have place : ∀ j < 12, (tokens[j]?).map Token.span = some ⟨11, 12⟩ → j = 11 := by decide
    obtain ⟨inside, -⟩ := List.getElem?_eq_some_iff.mp here
    obtain rfl : i = 11 := place i inside (by rw [here, Option.map_some, ← span])
    exact ⟨failed, viable, stuck⟩
  · cases ended

end DeltaLang.Parser
