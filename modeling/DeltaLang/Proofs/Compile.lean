import DeltaLang.Compile
import DeltaLang.Proofs.Tree.Render

namespace DeltaLang

/-- Two computations with the same result, or with faults that are related. -/
inductive Agree {ε ε' α : Type} (related : ε → ε' → Prop) : Except ε α → Except ε' α → Prop
  | ok (result : α) : Agree related (.ok result) (.ok result)
  | error {fault : ε} {fault' : ε'} (holds : related fault fault') :
      Agree related (.error fault) (.error fault')

namespace Agree

variable {ε ε' δ δ' α β : Type} {related : ε → ε' → Prop}
variable {first : Except ε α} {second : Except ε' α}

theorem refl {same : ε → ε → Prop} (holds : ∀ fault, same fault fault) (answer : Except ε α) :
    Agree same answer answer := by
  cases answer with
  | ok result => exact .ok result
  | error fault => exact .error (holds fault)

theorem mapError {following : δ → δ' → Prop} {view : ε → δ} {view' : ε' → δ'}
    (agree : Agree related first second)
    (holds : ∀ fault fault', related fault fault' → following (view fault) (view' fault')) :
    Agree following (first.mapError view) (second.mapError view') := by
  cases agree with
  | ok result => exact .ok result
  | error found => exact .error (holds _ _ found)

theorem bind {rest : α → Except ε β} {rest' : α → Except ε' β} (agree : Agree related first second)
    (others : ∀ result, Agree related (rest result) (rest' result)) :
    Agree related (first >>= rest) (second >>= rest') := by
  cases agree with
  | ok result => exact others result
  | error found => exact .error found

end Agree

namespace Token

variable {source other : List UInt8} {t u : Token}

theorem kind_of_word (same : t.word source = u.word other) : t.kind = u.kind :=
  congrArg Prod.fst same

theorem text_of_word (same : t.word source = u.word other) : t.text source = u.text other :=
  congrArg Prod.snd same

/-- A token is described by its word. -/
theorem describe_congr (same : t.word source = u.word other) :
    t.describe source = u.describe other := by
  unfold describe
  rw [kind_of_word same, text_of_word same]

end Token

namespace Parser

section LockStep

variable {source other : List UInt8}

theorem Chain.step_congr (chain : Chain) {t u : Token} (same : t.word source = u.word other) :
    chain.step source t = chain.step other u := by
  have kind := Token.kind_of_word same
  have text := Token.text_of_word same
  cases chain with
  | operand links => simp only [step, kind, text]
  | operator links last => simp only [step, kind]

/-- A reader sees of a token only its word. -/
theorem State.step_congr (state : State) {t u : Token} (same : t.word source = u.word other) :
    state.step source t = state.step other u := by
  have kind := Token.kind_of_word same
  have text := Token.text_of_word same
  cases state with
  | value context purpose chain => simp only [step, kind, chain.step_congr same]
  | _ => simp only [step, kind, text]

/-- Failures at tokens with the same word, where the same was expected. -/
structure Failure.SameWord (source other : List UInt8) (first second : Failure) : Prop where
  offender : first.offender.map (Token.word source) = second.offender.map (Token.word other)
  expected : first.expected = second.expected

/-- Machines that answer alike to tokens with the same word agree on token sequences with the same
words. -/
theorem run_congr {σ α : Type} {step step' : σ → Token → Step σ α}
    (atEnd : σ → Except (List Expectation) α)
    (alike : ∀ state t u, t.word source = u.word other → step state t = step' state u)
    (state : σ) {tokens tokens' : List Token}
    (spelled : tokens.map (Token.word source) = tokens'.map (Token.word other)) :
    Agree (Failure.SameWord source other) (run step atEnd state tokens).1
      (run step' atEnd state tokens').1 := by
  induction tokens generalizing state tokens' with
  | nil =>
    have none : tokens' = [] := by simpa using spelled.symm
    subst none
    simp only [run]
    cases atEnd state with
    | ok result => exact .ok result
    | error expected => exact .error ⟨rfl, rfl⟩
  | cons t rest ih =>
    cases tokens' with
    | nil => cases spelled
    | cons u rest' =>
      have same : t.word source = u.word other := (List.cons.inj spelled).1
      have others := (List.cons.inj spelled).2
      simp only [run, alike state t u same]
      cases step' state u with
      | next after => exact ih after others
      | finished result => exact .ok result
      | failed expected read => exact .error ⟨congrArg some same, rfl⟩

end LockStep

end Parser

/-- Diagnostics that differ at most in the place that they are about. -/
structure Unexpected.Alike (first second : Unexpected) : Prop where
  got : first.got = second.got
  expected : first.expected = second.expected

namespace Parser

/-- A report shows the word of the offending token, and its place besides. -/
theorem Reader.report_alike (r r' : Reader) {failure failure' : Failure}
    (same : Failure.SameWord r.source r'.source failure failure') :
    (r.report failure).Alike (r'.report failure') := by
  obtain ⟨offender, expected⟩ := failure
  obtain ⟨offender', expected'⟩ := failure'
  obtain ⟨words, rfl⟩ := same
  cases offender with
  | none =>
    have none : offender' = none := by simpa using words.symm
    subst none
    simp only [report]
    cases r.tokens.getLast? <;> cases r'.tokens.getLast? <;> exact ⟨rfl, rfl⟩
  | some t =>
    obtain ⟨u, rfl, spelled⟩ := Option.map_eq_some_iff.mp words.symm
    have described := Token.describe_congr spelled
    exact ⟨congrArg some described.symm, rfl⟩

theorem parse_congr {source other : List UInt8} {tokens tokens' : List Token}
    (spelled : tokens.map (Token.word source) = tokens'.map (Token.word other)) :
    Agree Unexpected.Alike (parse source tokens) (parse other tokens') := by
  have runs := run_congr State.atEnd (fun state t u => state.step_congr) .start spelled
  apply runs.mapError
  intro failure failure' same
  exact Reader.report_alike (.ofTokens source tokens) (.ofTokens other tokens') same

end Parser

/-- Faults that are equal, except that two unexpected tokens may be reported at different places. -/
inductive Compile.Fault.Alike : Fault → Fault → Prop
  | unexpected {first second : Unexpected} (alike : first.Alike second) :
      Alike (.refused (.unexpectedToken first)) (.refused (.unexpectedToken second))
  | same (fault : Fault) : Alike fault fault

theorem parseSource_eq {source : List UInt8} (clean : Lexer.invalids source = []) :
    parseSource source =
      (Parser.parse source (Lexer.tokens source)).mapError .unexpectedToken := by
  simp only [parseSource, clean]

/-- Sources without invalid characters and with the same words are compiled to the same text or
refused for the same reason, whatever stands between the words. -/
theorem compile_ignores_layout (backend : String) (options : Options) {first second : List UInt8}
    (clean : Lexer.invalids first = []) (clean' : Lexer.invalids second = [])
    (spelled : (Lexer.tokens first).map (Token.word first) =
      (Lexer.tokens second).map (Token.word second)) :
    Agree Compile.Fault.Alike (Compile.compile backend options first)
      (Compile.compile backend options second) := by
  have parsed := Parser.parse_congr spelled
  have located : Agree (fun fault fault' => Compile.Fault.Alike (.refused fault) (.refused fault'))
      (parseSource first) (parseSource second) := by
    rw [parseSource_eq clean, parseSource_eq clean']
    exact parsed.mapError fun _ _ alike => .unexpected alike
  refine (located.mapError fun _ _ alike => alike).bind ?_
  intro m
  exact .refl .same _

/-- A line end and a blank in front of a program make no difference. -/
theorem compile_ignores_layout_shifted :
    let text := Utf8.encode (Function.render ⟨"main", [], none, [.declare "a" (.lit "1" .number)]⟩)
    Lexer.invalids text = [] ∧ Lexer.invalids (0x0A :: 0x20 :: text) = [] ∧
      Agree Compile.Fault.Alike (Compile.compile "llvm" ⟨"", 0, true⟩ text)
        (Compile.compile "llvm" ⟨"", 0, true⟩ (0x0A :: 0x20 :: text)) := by
  intro text
  have reads := Function.reads_render (f := ⟨"main", [], none, [.declare "a" (.lit "1" .number)]⟩)
    (by decide)
  have shifted := Lexer.Reads.separator ((Lexer.blank_iff 0x0A).mp (.inr rfl))
    (.separator ((Lexer.blank_iff 0x20).mp (.inl rfl)) reads)
  have plain := Lexer.words_of_reads reads
  have moved := Lexer.words_of_reads shifted
  refine ⟨plain.1, moved.1, ?_⟩
  exact compile_ignores_layout "llvm" ⟨"", 0, true⟩ plain.1 moved.1 (plain.2.trans moved.2.symm)

end DeltaLang
