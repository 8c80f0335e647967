import DeltaLang.Proofs.Tree.Viable

namespace DeltaLang.Grammar

/-- Operands with a sign behind each of them. -/
abbrev Series := List (Leaf × Sign)

def Series.tokens (series : Series) : List Token :=
  series.flatMap fun link => [link.1.token, link.2.token]

/-- The tree of a series and the operand behind it. The sign of an operand joins it with all that
follows. -/
def Series.tree (source : List UInt8) (series : Series) (last : Leaf) : Expr :=
  series.foldr (fun link right => .binary (link.1.tree source) link.2.operator right)
    (last.tree source)

def IsOperand (t : Token) : Prop :=
  t.kind = .identifier ∨ ∃ type, t.kind = .literal type

def IsStop (t : Token) : Prop :=
  t.kind = .symbol .semicolon ∨ t.kind = .symbol .openBrace

/-- Nothing follows, or a token that ends an expression. -/
def Stops (behind : List Token) : Prop :=
  ∀ t ∈ behind.head?, IsStop t

theorem IsStop.not_isSign {t : Token} (stop : IsStop t) : ¬IsSign t := by
  rcases stop with kind | kind <;> simp [IsSign, kind]

theorem exists_leaf {t : Token} (operand : IsOperand t) : ∃ l : Leaf, l.token = t := by
  rcases operand with kind | ⟨type, kind⟩
  · exact ⟨.identifier ⟨t, kind⟩, rfl⟩
  · exact ⟨.literal type ⟨t, kind⟩, rfl⟩

theorem exists_sign {t : Token} (sign : IsSign t) : ∃ s : Sign, s.token = t := by
  rcases sign with kind | kind
  · exact ⟨.add ⟨t, kind⟩, rfl⟩
  · exact ⟨.greater ⟨t, kind⟩, rfl⟩

/-- How tokens go on where an expression is due: with an expression and what may follow it, up to
the end where an operand is missing, up to a token in the place of an operand, or up to one in the
place of a sign. -/
theorem expression_cases (tokens : List Token) :
    (∃ (series : Series) (last : Leaf) (behind : List Token),
      tokens = series.tokens ++ last.token :: behind ∧ Stops behind) ∨
    (∃ series : Series, tokens = series.tokens) ∨
    (∃ (series : Series) (t : Token) (behind : List Token),
      tokens = series.tokens ++ t :: behind ∧ ¬IsOperand t) ∨
    ∃ (series : Series) (last : Leaf) (t : Token) (behind : List Token),
      tokens = series.tokens ++ last.token :: t :: behind ∧ ¬IsSign t ∧ ¬IsStop t := by
  induction bound : tokens.length using Nat.strongRecOn generalizing tokens with
  | ind count ih =>
    cases tokens with
    | nil => exact .inr (.inl ⟨[], rfl⟩)
    | cons first rest =>
      by_cases operand : IsOperand first
      · obtain ⟨l, rfl⟩ := exists_leaf operand
        cases rest with
        | nil => exact .inl ⟨[], l, [], rfl, by simp [Stops]⟩
        | cons second behind =>
          by_cases sign : IsSign second
          · obtain ⟨s, rfl⟩ := exists_sign sign
            have shorter : behind.length < count := by
              simp only [List.length_cons] at bound
              omega
            -- one more operand with its sign in front of whatever follows
            obtain ⟨series, last, others, rfl, stops⟩ | ⟨series, rfl⟩ |
              ⟨series, t, others, rfl, other⟩ | ⟨series, last, t, others, rfl, other⟩ :=
              ih _ shorter behind rfl
            · exact .inl ⟨(l, s) :: series, last, others, rfl, stops⟩
            · exact .inr (.inl ⟨(l, s) :: series, rfl⟩)
            · exact .inr (.inr (.inl ⟨(l, s) :: series, t, others, rfl, other⟩))
            · exact .inr (.inr (.inr ⟨(l, s) :: series, last, t, others, rfl, other⟩))
          · by_cases stop : IsStop second
            · exact .inl ⟨[], l, second :: behind, rfl, by simpa [Stops] using stop⟩
            · exact .inr (.inr (.inr ⟨[], l, second, behind, rfl, sign, stop⟩))
      · exact .inr (.inr (.inl ⟨[], first, rest, rfl, operand⟩))

end DeltaLang.Grammar

namespace DeltaLang.Parser

open Grammar

section Expressions

variable (source : List UInt8)

namespace Chain

theorem step_leaf (links : List (Expr × Operator)) (l : Leaf) :
    step source (.operand links) l.token = .next (.operator links (l.tree source)) := by
  cases l with
  | literal type token => simp [step, Leaf.token, token.property, Leaf.tree]
  | identifier token => simp [step, Leaf.token, token.property, Leaf.tree]

theorem step_sign (links : List (Expr × Operator)) (last : Expr) (s : Sign) :
    step source (.operator links last) s.token =
      .next (.operand ((last, s.operator) :: links)) := by
  cases s with
  | add token => simp [step, Sign.token, token.property, Sign.operator]
  | greater token => simp [step, Sign.token, token.property, Sign.operator]

theorem step_stop (links : List (Expr × Operator)) (last : Expr) {t : Token} (stop : IsStop t) :
    step source (.operator links last) t = .finished (close links last) := by
  rcases stop with kind | kind
  · simp only [step, kind]
  · simp only [step, kind]

theorem step_not_operand (links : List (Expr × Operator)) {t : Token} (other : ¬IsOperand t) :
    step source (.operand links) t = .failed expectOperand true := by
  simp only [step]
  split
  · next type kind => exact absurd (.inr ⟨type, kind⟩) other
  · next kind => exact absurd (.inl kind) other
  · rfl

theorem step_not_operator (links : List (Expr × Operator)) (last : Expr) {t : Token}
    (noSign : ¬IsSign t) (noStop : ¬IsStop t) :
    step source (.operator links last) t = .failed expectOperator false := by
  simp only [step]
  split
  · next kind => exact absurd (.inl kind) noSign
  · next kind => exact absurd (.inr kind) noSign
  · next kind => exact absurd (.inl kind) noStop
  · next kind => exact absurd (.inr kind) noStop
  · rfl

/-- What the machine holds of a series, the last operand first. -/
def held (series : Series) : List (Expr × Operator) :=
  (series.map fun link => (link.1.tree source, link.2.operator)).reverse

theorem close_held (series : Series) (last : Leaf) :
    close (held source series) (last.tree source) = series.tree source last := by
  rw [close, held, List.foldl_reverse, List.foldr_map, Series.tree]

theorem walk?_series (series : Series) (links : List (Expr × Operator)) :
    walk? (step source) (.operand links) series.tokens =
      some (.operand (held source series ++ links)) := by
  induction series generalizing links with
  | nil => rfl
  | cons link others ih =>
    have shape : Series.tokens (link :: others) =
        link.1.token :: link.2.token :: Series.tokens others := rfl
    rw [shape, walk?_next (step_leaf source links link.1),
      walk?_next (step_sign source links _ _), ih]
    simp [held]

end Chain

/-- The machine behind a series. -/
theorem run_series (series : Series) (rest : List Token) :
    run (Chain.step source) Chain.atEnd (.operand []) (series.tokens ++ rest) =
      run (Chain.step source) Chain.atEnd (.operand (Chain.held source series)) rest := by
  have walked := Chain.walk?_series source series []
  rw [List.append_nil] at walked
  exact run_walk? walked Chain.atEnd rest

theorem run_expression (series : Series) (last : Leaf) {behind : List Token}
    (stops : Stops behind) :
    run (Chain.step source) Chain.atEnd (.operand []) (series.tokens ++ last.token :: behind) =
      (.ok (series.tree source last), behind) := by
  rw [run_series, run, Chain.step_leaf, ← Chain.close_held]
  cases behind with
  | nil => rfl
  | cons t others =>
    have stop : IsStop t := stops t rfl
    simp only [run, Chain.step_stop source _ _ stop]

theorem run_not_operand (series : Series) {t : Token} (other : ¬IsOperand t) (behind : List Token) :
    run (Chain.step source) Chain.atEnd (.operand []) (series.tokens ++ t :: behind) =
      (.error ⟨some t, Chain.expectOperand⟩, behind) := by
  rw [run_series, run, Chain.step_not_operand source _ other]
  rfl

theorem run_not_operator (series : Series) (last : Leaf) {t : Token} (noSign : ¬IsSign t)
    (noStop : ¬IsStop t) (behind : List Token) :
    run (Chain.step source) Chain.atEnd (.operand []) (series.tokens ++ last.token :: t :: behind) =
      (.error ⟨some t, Chain.expectOperator⟩, t :: behind) := by
  rw [run_series, run, Chain.step_leaf]
  simp only [run, Chain.step_not_operator source _ _ noSign noStop]
  rfl

end Expressions

section Places

/-- The tokens between two places are a series, so that an operand is due at the second one. -/
def OperandDue (tokens : List Token) (start place : Nat) : Prop :=
  ∃ series : Series, place = start + series.tokens.length ∧ series.tokens <+: tokens.drop start

/-- The tokens between two places are a series and one more operand, so that the second one is the
place of a sign, unless the expression ends there. -/
def SignDue (tokens : List Token) (start place : Nat) : Prop :=
  ∃ (series : Series) (last : Leaf), place = start + series.tokens.length + 1 ∧
    series.tokens ++ [last.token] <+: tokens.drop start

/-- An expression that is read from `start` on reaches up to `place`. -/
def Reaches (tokens : List Token) (start place : Nat) : Prop :=
  (OperandDue tokens start place ∧ ∀ t ∈ tokens[place]?, ¬IsOperand t) ∨
    (SignDue tokens start place ∧ ∀ t ∈ tokens[place]?, ¬IsSign t)

/-- Why no expression can be read from `start` on, and the place from where reading goes on. -/
inductive Breaks (tokens : List Token) (start : Nat) : Failure → Nat → Prop
  | operand {place : Nat} {t : Token} (due : OperandDue tokens start place)
      (found : tokens[place]? = some t) (other : ¬IsOperand t) :
      Breaks tokens start ⟨some t, Chain.expectOperand⟩ (place + 1)
  | sign {place : Nat} {t : Token} (due : SignDue tokens start place)
      (found : tokens[place]? = some t) (noSign : ¬IsSign t) (noStop : ¬IsStop t) :
      Breaks tokens start ⟨some t, Chain.expectOperator⟩ place
  | ended (due : OperandDue tokens start tokens.length) :
      Breaks tokens start ⟨none, Chain.expectOperand⟩ tokens.length

/-- Sequences that agree up to a place have the same tokens before it. -/
theorem drop_of_agree {tokens others front behind : List Token} {start : Nat}
    (split : tokens.drop start = front ++ behind)
    (agree : others.take (start + front.length) = tokens.take (start + front.length)) :
    others.drop start = front ++ others.drop (start + front.length) := by
  have same : (others.drop start).take front.length = front := by
    rw [List.take_drop, agree, ← List.take_drop, split, List.take_left]
  calc
    _ = (others.drop start).take front.length ++ (others.drop start).drop front.length :=
      (List.take_append_drop _ _).symm
    _ = _ := by rw [same, List.drop_drop]

end Places

section Readers

inductive Call where
  | module
  | expression
  deriving DecidableEq, Repr

namespace Reader

/-- The reader after a call, whether it succeeds or fails. -/
def call (r : Reader) : Call → Reader
  | .module => r.readModule.2
  | .expression => r.readExpression.2

def cursor (r : Reader) : Nat :=
  r.tokens.length - r.rest.length

/-- The reader that has read so many tokens. -/
def placed (source : List UInt8) (tokens : List Token) (cursor : Nat) : Reader :=
  ⟨source, tokens, tokens.drop cursor⟩

/-- The answer to a call for an expression, and the place where it leaves the cursor, do not depend
on the tokens behind the one at `place`. -/
def LocalAt (r : Reader) (place : Nat) : Prop :=
  place < r.tokens.length → ∀ others : List Token,
    others.take (place + 1) = r.tokens.take (place + 1) →
    let s := placed r.source others r.cursor
    s.readExpression.1 = r.readExpression.1 ∧
      s.readExpression.2.cursor = r.readExpression.2.cursor

end Reader

theorem run_suffix {σ α : Type} (step : σ → Token → Step σ α)
    (atEnd : σ → Except (List Expectation) α) (state : σ) (tokens : List Token) :
    (run step atEnd state tokens).2 <:+ tokens := by
  induction tokens generalizing state with
  | nil => exact List.suffix_refl []
  | cons token rest ih =>
    rw [run]
    split
    · exact (ih _).trans (List.suffix_cons token rest)
    · exact List.suffix_refl _
    · split
      · exact List.suffix_cons token rest
      · exact List.suffix_refl _

namespace Reader

variable (r : Reader)

theorem call_rest (call : Call) : (r.call call).rest <:+ r.rest := by
  cases call with
  | module => exact run_suffix _ _ _ r.rest
  | expression => exact run_suffix _ _ _ r.rest

theorem call_cursor_le (call : Call) : r.cursor ≤ (r.call call).cursor := by
  have shorter := (r.call_rest call).length_le
  have same : (r.call call).tokens = r.tokens := by cases call <;> rfl
  simp only [cursor, same]
  omega

/-- Calls go on in the same tokens. -/
theorem calls_inside (calls : List Call) :
    (calls.foldl call r).source = r.source ∧ (calls.foldl call r).tokens = r.tokens ∧
      (calls.foldl call r).rest <:+ r.rest := by
  induction calls generalizing r with
  | nil => exact ⟨rfl, rfl, List.suffix_refl r.rest⟩
  | cons first others ih =>
    obtain ⟨source, tokens, rest⟩ := ih (r.call first)
    have here := r.call_rest first
    cases first with
    | module => exact ⟨source, tokens, rest.trans here⟩
    | expression => exact ⟨source, tokens, rest.trans here⟩

variable {r} (inside : r.rest <:+ r.tokens)

include inside

theorem rest_eq_drop : r.rest = r.tokens.drop r.cursor :=
  List.suffix_iff_eq_drop.mp inside

/-- The cursor behind some of the tokens that are left. -/
theorem cursor_behind {front behind : List Token} (split : r.rest = front ++ behind) :
    ({ r with rest := behind } : Reader).cursor = r.cursor + front.length := by
  have bound := inside.length_le
  have length := congrArg List.length split
  rw [List.length_append] at length
  simp only [cursor]
  omega

theorem token_behind {front behind : List Token} (split : r.rest = front ++ behind) :
    r.tokens[r.cursor + front.length]? = behind.head? := by
  rw [← List.head?_drop, ← List.drop_drop, ← rest_eq_drop inside, split, List.drop_left]

end Reader

end Readers

namespace Reader

section Answers

variable {r : Reader} {series : Series} {last : Leaf} {t : Token} {behind : List Token}

theorem readExpression_whole (split : r.rest = series.tokens ++ last.token :: behind)
    (stops : Stops behind) :
    r.readExpression = (.ok (series.tree r.source last), { r with rest := behind }) := by
  rw [readExpression, split, run_expression r.source series last stops]
  rfl

theorem readExpression_ended (split : r.rest = series.tokens) :
    r.readExpression = (.error (r.report ⟨none, Chain.expectOperand⟩), { r with rest := [] }) := by
  rw [readExpression, split, ← List.append_nil series.tokens, run_series]
  rfl

theorem readExpression_not_operand (split : r.rest = series.tokens ++ t :: behind)
    (other : ¬IsOperand t) :
    r.readExpression =
      (.error (r.report ⟨some t, Chain.expectOperand⟩), { r with rest := behind }) := by
  rw [readExpression, split, run_not_operand r.source series other]
  rfl

theorem readExpression_not_sign (split : r.rest = series.tokens ++ last.token :: t :: behind)
    (noSign : ¬IsSign t) (noStop : ¬IsStop t) :
    r.readExpression =
      (.error (r.report ⟨some t, Chain.expectOperator⟩), { r with rest := t :: behind }) := by
  rw [readExpression, split, run_not_operator r.source series last noSign noStop]
  rfl

/-- A report about a token does not depend on the other ones. -/
theorem report_token {s : Reader} (same : s.source = r.source) (expected : List Expectation) :
    s.report ⟨some t, expected⟩ = r.report ⟨some t, expected⟩ := by
  simp only [report, same]

theorem readExpression_eq_ok_iff (r : Reader) (e : Expr) :
    r.readExpression.1 = .ok e ↔
      ∃ (series : Series) (last : Leaf) (behind : List Token),
        r.rest = series.tokens ++ last.token :: behind ∧ Stops behind ∧
          e = series.tree r.source last := by
  constructor
  · intro read
    obtain ⟨series, last, behind, split, stops⟩ | ⟨series, split⟩ |
      ⟨series, t, behind, split, other⟩ | ⟨series, last, t, behind, split, noSign, noStop⟩ :=
      expression_cases r.rest
    · rw [readExpression_whole split stops] at read
      cases read
      exact ⟨series, last, behind, split, stops, rfl⟩
    · rw [readExpression_ended split] at read
      cases read
    · rw [readExpression_not_operand split other] at read
      cases read
    · rw [readExpression_not_sign split noSign noStop] at read
      cases read
  · rintro ⟨series, last, behind, split, stops, rfl⟩
    rw [readExpression_whole split stops]

end Answers

section Places

variable {r : Reader} (inside : r.rest <:+ r.tokens) {series : Series} {last : Leaf}
  {behind : List Token}

include inside

theorem operandDue (split : r.rest = series.tokens ++ behind) :
    OperandDue r.tokens r.cursor (r.cursor + series.tokens.length) := by
  refine ⟨series, rfl, ?_⟩
  rw [← rest_eq_drop inside, split]
  exact List.prefix_append _ behind

theorem signDue (split : r.rest = series.tokens ++ last.token :: behind) :
    SignDue r.tokens r.cursor (r.cursor + series.tokens.length + 1) := by
  refine ⟨series, last, rfl, ?_⟩
  rw [List.append_cons] at split
  rw [← rest_eq_drop inside, split]
  exact List.prefix_append _ behind

/-- The cursor is left on the token that ends the expression. -/
theorem readExpression_cursor (split : r.rest = series.tokens ++ last.token :: behind)
    (stops : Stops behind) :
    r.readExpression.2.cursor = r.cursor + series.tokens.length + 1 := by
  rw [readExpression_whole split stops]
  rw [List.append_cons] at split
  rw [cursor_behind inside split, List.length_append, List.length_singleton, Nat.add_assoc]

theorem readExpression_breaks {u : Unexpected} (failed : r.readExpression.1 = .error u) :
    ∃ failure, Breaks r.tokens r.cursor failure r.readExpression.2.cursor ∧
      u = r.report failure := by
  obtain ⟨series, last, behind, split, stops⟩ | ⟨series, split⟩ |
    ⟨series, t, behind, split, other⟩ | ⟨series, last, t, behind, split, noSign, noStop⟩ :=
    expression_cases r.rest
  · rw [readExpression_whole split stops] at failed
    cases failed
  · rw [readExpression_ended split] at failed ⊢
    cases failed
    rw [← List.append_nil series.tokens] at split
    have due := operandDue inside split
    rw [← cursor_behind inside split] at due
    exact ⟨_, .ended due, rfl⟩
  · rw [readExpression_not_operand split other] at failed ⊢
    cases failed
    have due := operandDue inside split
    have found := token_behind inside split
    rw [List.append_cons] at split
    rw [cursor_behind inside split, List.length_append]
    exact ⟨_, .operand due found other, rfl⟩
  · rw [readExpression_not_sign split noSign noStop] at failed ⊢
    cases failed
    have due := signDue inside split
    rw [List.append_cons] at split
    have found := token_behind inside split
    rw [cursor_behind inside split]
    rw [List.length_append, List.length_singleton, ← Nat.add_assoc] at found ⊢
    exact ⟨_, .sign due found noSign noStop, rfl⟩

theorem length_eq {front : List Token} (split : r.rest = front) :
    r.tokens.length = r.cursor + front.length := by
  have bound := inside.length_le
  rw [← split, cursor]
  omega

/-- If an answer and the tokens that are read for it depend on what stands before `behind` only, the
same holds of the place to which it leads. -/
theorem answer_local {taken kept : List Token} (split : r.rest = taken ++ kept ++ behind)
    (answers : ∀ (s : Reader) (later : List Token), s.source = r.source →
      s.rest = taken ++ kept ++ later →
      s.readExpression = (r.readExpression.1, { s with rest := kept ++ later }))
    {others : List Token} (agree : others.take (r.cursor + (taken ++ kept).length) =
      r.tokens.take (r.cursor + (taken ++ kept).length)) :
    let s := placed r.source others r.cursor
    s.readExpression.1 = r.readExpression.1 ∧
      s.readExpression.2.cursor = r.readExpression.2.cursor := by
  intro s
  have enough : r.cursor ≤ others.length := by
    have bound := inside.length_le
    have lengths := congrArg List.length agree
    have total := congrArg List.length split
    simp only [List.length_take, List.length_append] at lengths total
    simp only [cursor] at lengths ⊢
    omega
  have standing : s.rest <:+ s.tokens := List.drop_suffix _ others
  have start : s.cursor = r.cursor := by
    simp only [s, placed, cursor, List.length_drop] at enough ⊢
    omega
  have there : s.rest = taken ++ kept ++ others.drop (r.cursor + (taken ++ kept).length) := by
    rw [rest_eq_drop inside] at split
    exact drop_of_agree split agree
  rw [answers r behind rfl split, answers s _ rfl there]
  refine ⟨rfl, ?_⟩
  rw [List.append_assoc] at split there
  calc
    _ = s.cursor + taken.length := cursor_behind standing there
    _ = r.cursor + taken.length := by rw [start]
    _ = _ := (cursor_behind inside split).symm

/-- Nothing is looked at behind a token in the place of a sign if it is left unread, whatever
follows. -/
theorem local_at_sign {t : Token} (split : r.rest = series.tokens ++ last.token :: t :: behind)
    (noSign : ¬IsSign t)
    (answers : ∀ (s : Reader) (later : List Token), s.source = r.source →
      s.rest = series.tokens ++ last.token :: t :: later →
      s.readExpression = (r.readExpression.1, { s with rest := t :: later })) :
    ∃ place, Reaches r.tokens r.cursor place ∧ r.LocalAt place := by
  have shape (later : List Token) : series.tokens ++ last.token :: t :: later =
      series.tokens ++ [last.token] ++ [t] ++ later := by simp
  have found := token_behind inside (split.trans (List.append_cons _ _ _))
  rw [List.length_append, List.length_singleton, ← Nat.add_assoc] at found
  refine ⟨_, .inr ⟨signDue inside split, ?_⟩, ?_⟩
  · rw [found]
    simpa using noSign
  · intro within others agree
    refine answer_local inside (split.trans (shape behind)) ?_
      (by simpa [Nat.add_assoc] using agree)
    intro s later same there
    exact answers s later same (there.trans (shape later).symm)

/-- Reading an expression comes to a place behind which nothing is looked at. -/
theorem readExpression_local : ∃ place, Reaches r.tokens r.cursor place ∧ r.LocalAt place := by
  have outside : ∀ t ∈ r.tokens[r.tokens.length]?, ¬IsOperand t ∧ ¬IsSign t := by simp
  obtain ⟨series, last, behind, split, stops⟩ | ⟨series, split⟩ |
    ⟨series, t, behind, split, other⟩ | ⟨series, last, t, behind, split, noSign, noStop⟩ :=
    expression_cases r.rest
  · cases behind with
    | nil =>
      have due := signDue inside split
      have total := length_eq inside split
      rw [List.length_append, List.length_singleton, ← Nat.add_assoc] at total
      rw [← total] at due
      exact ⟨_, .inr ⟨due, fun t found => (outside t found).2⟩,
        fun within => absurd within (by omega)⟩
    | cons t behind =>
      have stop : IsStop t := stops t rfl
      refine local_at_sign inside split stop.not_isSign ?_
      intro s later same there
      rw [readExpression_whole there (by simpa [Stops] using stop),
        readExpression_whole split stops, same]
  · have due := operandDue inside (split.trans (List.append_nil _).symm)
    rw [← length_eq inside split] at due
    exact ⟨_, .inl ⟨due, fun t found => (outside t found).1⟩,
      fun within => absurd within (by omega)⟩
  · have found := token_behind inside split
    refine ⟨_, .inl ⟨operandDue inside split, ?_⟩, ?_⟩
    · rw [found]
      simpa using other
    · intro within others agree
      have shape (later : List Token) :
          series.tokens ++ t :: later = series.tokens ++ [t] ++ [] ++ later := by simp
      refine answer_local inside (split.trans (shape behind)) ?_
        (by simpa [Nat.add_assoc] using agree)
      intro s later same there
      rw [← shape] at there
      rw [readExpression_not_operand there other, readExpression_not_operand split other,
        report_token same]
      rfl
  · refine local_at_sign inside split noSign ?_
    intro s later same there
    rw [readExpression_not_sign there noSign noStop, readExpression_not_sign split noSign noStop,
      report_token same]

end Places

end Reader

/-- However a reader has come to its place, the cursor stands between the tokens that are read and
those that are not, and no call moves it back. From there an expression is read exactly if operands
with signs between them follow, and behind them the end or a token that ends an expression. The
answer is their tree, and the cursor is left on that token. Otherwise it is left behind a token that
stands in the place of an operand, or on one that stands in the place of a sign. The tokens behind
the one at which reading ends make no difference. -/
theorem readExpression_from_anywhere (source : List UInt8) (tokens : List Token)
    (calls : List Call) :
    let r := calls.foldl Reader.call (.ofTokens source tokens)
    (r.cursor ≤ tokens.length ∧ r.rest = tokens.drop r.cursor ∧
      ∀ call, r.cursor ≤ (r.call call).cursor) ∧
    (∀ e, r.readExpression.1 = .ok e ↔
      ∃ (series : Series) (last : Leaf) (behind : List Token),
        tokens.drop r.cursor = series.tokens ++ last.token :: behind ∧ Stops behind ∧
          e = series.tree source last) ∧
    (∀ (series : Series) (last : Leaf) (behind : List Token),
      tokens.drop r.cursor = series.tokens ++ last.token :: behind → Stops behind →
        r.readExpression.2.cursor = r.cursor + series.tokens.length + 1) ∧
    (∀ u, r.readExpression.1 = .error u →
      ∃ failure, Breaks tokens r.cursor failure r.readExpression.2.cursor ∧
        u = r.report failure) ∧
    ∃ place, Reaches tokens r.cursor place ∧ r.LocalAt place := by
  intro r
  obtain ⟨sameSource, sameTokens, inside⟩ :=
    Reader.calls_inside (.ofTokens source tokens) calls
  change r.source = source at sameSource
  change r.tokens = tokens at sameTokens
  change r.rest <:+ tokens at inside
  rw [← sameTokens] at inside
  have standing := Reader.rest_eq_drop inside
  rw [← sameSource, ← sameTokens, ← standing]
  refine ⟨⟨Nat.sub_le _ _, rfl, r.call_cursor_le⟩, r.readExpression_eq_ok_iff, ?_, ?_, ?_⟩
  · intro series last behind split stops
    exact Reader.readExpression_cursor inside split stops
  · intro u failed
    exact Reader.readExpression_breaks inside failed
  · exact Reader.readExpression_local inside

/-- In `a + 1 {` a call for a module reads `a`, one for an expression `+`, and the next one `1`. -/
example :
    let tokens := inRow [.identifier, .symbol .add, .literal .number, .symbol .openBrace]
    let r := [Call.module, .expression].foldl Reader.call (.ofTokens [] tokens)
    r.cursor = 2 ∧ r.readExpression.2.cursor = 3 := by
  decide

end DeltaLang.Parser
