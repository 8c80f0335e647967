import DeltaLang.Proofs.Token.Position
import DeltaLang.Proofs.Tree.Viable

namespace DeltaLang

namespace Lexer

/-- An offset has one line and one column only. -/
theorem Stands.unique {source : List UInt8} {offset : Nat} {place other : Position}
    (stands : Stands source offset place) (stands' : Stands source offset other) :
    place = other := by
  obtain ⟨line, column⟩ := place
  obtain ⟨line', column'⟩ := other
  obtain ⟨n, rfl, counts⟩ : ∃ n : Nat, column = n ∧ _ := stands.column
  obtain ⟨n', rfl, counts'⟩ : ∃ n : Nat, column' = n ∧ _ := stands'.column
  obtain rfl : line = line' := stands.line.trans stands'.line.symm
  rw [Utf8.counts_iff] at counts counts'
  rw [counts, counts']

theorem stands_start (source : List UInt8) : Stands source 0 ⟨0, 0⟩ :=
  (Cursor.Behind.start source).stands

/-- A token has a line and as many columns as bytes. -/
structure Spans (source : List UInt8) (t : Token) (size : Nat) : Prop where
  filled : 0 < size
  length : t.span.length = size
  first : ∃ start : Nat, t.span.start = start ∧ Stands source start t.location
  past : ∃ stop : Nat, t.span.stop = stop ∧
    Stands source stop ⟨t.location.line, t.location.column + size⟩

theorem spans_token {c : Cursor} {read text rest : List UInt8} {kind : Token.Kind}
    (behind : c.Behind read) (front : c.rest = text ++ rest)
    (lexeme : Lexeme (some kind) text rest) :
    Spans (read ++ c.rest) ⟨kind, ⟨c.index, c.index + text.length⟩, c.position⟩ text.length := by
  have past := (behind.token front lexeme).stands
  rw [Cursor.advance_rest front, List.append_assoc, ← front] at past
  refine ⟨List.length_pos_iff.mpr (filled_of_lexeme lexeme), ?_, ⟨c.index, rfl, behind.stands⟩,
    c.index + text.length, ?_, past⟩
  · simp only [Span.length]
    omega
  · exact (Int.natCast_add c.index text.length).symm

theorem Scans.spans {c last : Cursor} {all : List Item} (scans : Scans c all last)
    {read : List UInt8} (behind : c.Behind read) {t : Token} (member : .token t ∈ all) :
    ∃ size, Spans (read ++ c.rest) t size := by
  induction scans generalizing read with
  | done => cases member
  | separator front separates _ ih =>
    have others := ih (behind.separator front separates) member
    rwa [Cursor.skip_rest front, List.append_assoc, List.singleton_append, ← front] at others
  | @token c last kind text rest all front lexeme _ ih =>
    rcases List.mem_cons.mp member with same | later
    · cases same
      exact ⟨text.length, spans_token behind front lexeme⟩
    · have others := ih (behind.token front lexeme) later
      rwa [Cursor.advance_rest front, List.append_assoc, ← front] at others
  | invalid front _ invalid settled counted _ ih =>
    rcases List.mem_cons.mp member with same | later
    · cases same
    · have others := ih (behind.run front invalid settled counted) later
      rwa [Cursor.advance_rest front, List.append_assoc, ← front] at others

theorem spans_of_mem {source : List UInt8} {t : Token} (member : t ∈ tokens source) :
    ∃ size, Spans source t size := by
  obtain ⟨item, inItems, isToken⟩ := List.mem_filterMap.mp member
  obtain ⟨last, scans⟩ := scans_items (.ofSource source)
  cases item with
  | token u =>
    cases isToken
    exact scans.spans (.start source) inItems
  | invalid place => cases isToken

/-- The place of the first byte of a token is not the place behind its last. -/
theorem Spans.stop {source : List UInt8} {t : Token} {size : Nat} (spans : Spans source t size) :
    ∃ stop : Nat, t.span.stop = stop ∧ ¬Stands source stop t.location ∧
      Stands source stop ⟨t.location.line, t.location.column + t.span.length⟩ := by
  obtain ⟨stop, same, stands⟩ := spans.past
  have filled := spans.filled
  refine ⟨stop, same, ?_, ?_⟩
  · intro misplaced
    have columns := congrArg Position.column (misplaced.unique stands)
    simp only at columns
    omega
  · rw [spans.length]
    exact stands

end Lexer

namespace Parser

open Lexer

theorem report_end {source : List UInt8} {all : List Token} {last : Token}
    (ends : all.getLast? = some last) (expected : List Expectation) :
    (Reader.ofTokens source all).report ⟨none, expected⟩ =
      ⟨none, expected.map Expectation.text, ⟨last.span.stop, last.span.stop⟩, last.location⟩ := by
  simp only [Reader.report, Reader.ofTokens, ends]

/-- A diagnostic stands where its offset does exactly if it is about a token, or if the source has
none. At the end of the input the column is too small by the length of the last token. -/
theorem diagnostic_stands_iff {source : List UInt8} {u : Unexpected}
    (failed : parse source (tokens source) = .error u) :
    ∃ offset : Nat, u.span.start = offset ∧
      (Stands source offset u.location ↔ u.got ≠ none ∨ tokens source = []) ∧
      ∀ last, u.got = none → (tokens source).getLast? = some last →
        Stands source offset ⟨u.location.line, u.location.column + last.span.length⟩ := by
  obtain ⟨failure, fails, rfl⟩ := failure_of_parse failed
  generalize sequence : tokens source = all at fails ⊢
  cases fails with
  | @refused front back token after expected read walked stepped =>
    have member : token ∈ tokens source := by
      rw [sequence]
      exact List.mem_append_right front List.mem_cons_self
    obtain ⟨size, spans⟩ := spans_of_mem member
    obtain ⟨start, same, stands⟩ := spans.first
    refine ⟨start, same, iff_of_true stands (.inl (Option.some_ne_none _)), ?_⟩
    intro last contrary
    cases contrary
  | ended walked stopped =>
    cases shape : all.getLast? with
    | none =>
      obtain rfl := List.getLast?_eq_none_iff.mp shape
      refine ⟨0, rfl, iff_of_true (stands_start source) (.inr rfl), ?_⟩
      intro last _ contrary
      cases contrary
    | some last =>
      have member : last ∈ tokens source := sequence ▸ List.mem_of_getLast? shape
      obtain ⟨size, spans⟩ := spans_of_mem member
      obtain ⟨stop, same, misplaced, stands⟩ := spans.stop
      rw [report_end shape]
      refine ⟨stop, same, iff_of_false misplaced ?_, ?_⟩
      · rintro (contrary | rfl)
        · exact contrary rfl
        · cases shape
      · rintro other - ⟨⟩
        exact stands

/-- In `fn a()` a body is missing at offset 6, in column 6, and column 5 is reported. -/
theorem diagnostic_displaced_at_end :
    let source := Utf8.encode "fn a()"
    let u : Unexpected := ⟨none, ["\x7b"], ⟨6, 6⟩, ⟨0, 5⟩⟩
    parse source (tokens source) = .error u ∧ ¬Stands source 6 u.location ∧
      Stands source 6 ⟨0, 6⟩ := by
  intro source u
  have first : next (.ofSource source) =
      some (.token ⟨.keyword .function, ⟨0, 2⟩, ⟨0, 0⟩⟩, ⟨Utf8.encode " a()", 2, 0, 2⟩) := by
    decide
  have second : next ⟨Utf8.encode " a()", 2, 0, 2⟩ =
      some (.token ⟨.identifier, ⟨3, 4⟩, ⟨0, 3⟩⟩, ⟨Utf8.encode "()", 4, 0, 4⟩) := by decide
  have third : next ⟨Utf8.encode "()", 4, 0, 4⟩ =
      some (.token ⟨.symbol .openParen, ⟨4, 5⟩, ⟨0, 4⟩⟩, ⟨Utf8.encode ")", 5, 0, 5⟩) := by decide
  have fourth : next ⟨Utf8.encode ")", 5, 0, 5⟩ =
      some (.token ⟨.symbol .closeParen, ⟨5, 6⟩, ⟨0, 5⟩⟩, ⟨[], 6, 0, 6⟩) := by decide
  have all : tokens source = [⟨.keyword .function, ⟨0, 2⟩, ⟨0, 0⟩⟩, ⟨.identifier, ⟨3, 4⟩, ⟨0, 3⟩⟩,
      ⟨.symbol .openParen, ⟨4, 5⟩, ⟨0, 4⟩⟩, ⟨.symbol .closeParen, ⟨5, 6⟩, ⟨0, 5⟩⟩] := by
    rw [tokens, items_of_some first, items_of_some second, items_of_some third,
      items_of_some fourth, items_of_none (next_end rfl)]
    rfl
  have failed : parse source (tokens source) = .error u := by
    rw [all]
    rfl
  obtain ⟨offset, same, stands, behind⟩ := diagnostic_stands_iff failed
  obtain rfl : offset = 6 := Int.ofNat_inj.mp same.symm
  refine ⟨failed, ?_, ?_⟩
  · rw [stands, all]
    simp [u]
  · exact behind ⟨.symbol .closeParen, ⟨5, 6⟩, ⟨0, 5⟩⟩ rfl (by rw [all]; rfl)

end Parser

end DeltaLang
