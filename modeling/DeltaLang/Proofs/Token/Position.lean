import DeltaLang.Proofs.Token.Scan
import DeltaLang.Proofs.Token.Segments
import Mathlib.Data.List.DropRight

namespace DeltaLang.Lexer

def lastLine (text : List UInt8) : List UInt8 :=
  text.rtakeWhile (· ≠ 0x0A)

/-- The line and the column of an offset in a source. -/
structure Stands (source : List UInt8) (offset : Nat) (place : Position) : Prop where
  inside : offset ≤ source.length
  line : place.line = (source.take offset).count 0x0A
  column : ∃ n : Nat, place.column = n ∧ Utf8.Counts (lastLine (source.take offset)) n

/-- A run of characters in one line of a source, from the place of its first byte to the place
behind its last. -/
structure Stretches (source : List UInt8) (place : Section) : Prop where
  oneLine : place.lines.start = place.lines.stop
  first : ∃ start : Nat, place.index.start = start ∧
    Stands source start ⟨place.lines.start, place.columns.start⟩
  past : ∃ stop : Nat, place.index.stop = stop ∧
    Stands source stop ⟨place.lines.stop, place.columns.stop⟩
  characters : ∃ n : Nat, place.columns.length = n ∧ Utf8.Counts (place.index.cut source) n

section Lines

theorem lastLine_newline (front : List UInt8) : lastLine (front ++ [0x0A]) = [] :=
  List.rtakeWhile_concat_neg _ _ _ (by decide)

theorem lastLine_append {front back : List UInt8} (inLine : 0x0A ∉ back) :
    lastLine (front ++ back) = lastLine front ++ back := by
  have kept : ∀ b ∈ back.reverse, decide (b ≠ 0x0A) = true := by
    intro b member
    have other : b ≠ 0x0A := by
      rintro rfl
      exact inLine (List.mem_reverse.mp member)
    exact decide_eq_true other
  rw [lastLine, List.rtakeWhile, List.reverse_append, List.takeWhile_append_of_pos kept,
    List.reverse_append, List.reverse_reverse]
  rfl

/-- No byte of a token is a line feed, and all of them are in ASCII. -/
theorem lexeme_plain {kind : Token.Kind} {text rest : List UInt8}
    (lexeme : Lexeme (some kind) text rest) : 0x0A ∉ text ∧ ∀ b ∈ text, b.toNat < 128 := by
  have ofWord (word : ∀ b ∈ text, wordChar (Char.ofUInt8 b) = true) :
      0x0A ∉ text ∧ ∀ b ∈ text, b.toNat < 128 := by
    constructor
    · intro member
      have contrary := word 0x0A member
      revert contrary
      decide
    · intro b member
      exact byte_ascii (word b member)
  cases lexeme with
  | number filled digits ends => exact ofWord fun b member => wordChar_of_digit (digits b member)
  | @keyword k rest known ends => exact ofWord (keyword_spelling_word k known)
  | identifier starts word ends free => exact ofWord word
  | @symbol s rest known longest =>
    constructor
    · intro member
      have plain := (symbol_spelling_plain s known 0x0A member).2.1
      cases plain
    · exact symbol_ascii s known

theorem newline_not_invalid {run rest : List UInt8} (invalid : Lexeme none run rest) :
    0x0A ∉ run := by
  intro member
  obtain ⟨front, back, rfl⟩ := List.append_of_mem member
  cases invalid with
  | invalid strange =>
    apply (strange front 0x0A back rfl).notSeparator
    exact (blank_iff 0x0A).mp (.inr rfl)

end Lines

section Steps

/-- A cursor that has come over some bytes and stands at no byte inside of a character. -/
structure Cursor.Behind (read : List UInt8) (c : Cursor) : Prop where
  index : c.index = read.length
  line : c.line = read.count 0x0A
  column : c.column = (Utf8.decode (lastLine read)).length
  apart : Utf8.Apart read c.rest

variable {c : Cursor} {read text rest : List UInt8}

theorem Cursor.Behind.start (source : List UInt8) : Behind [] (.ofSource source) where
  index := rfl
  line := rfl
  column := by
    rw [lastLine, List.rtakeWhile_nil, Utf8.decode]
    rfl
  apart := .inl (by simp)

theorem Cursor.Behind.advance (behind : Behind read c) (front : c.rest = text ++ rest)
    (inLine : 0x0A ∉ text) (apart : Utf8.Apart (read ++ text) rest) {characters : Nat}
    (counted : characters = (Utf8.decode text).length) :
    Behind (read ++ text) (c.advance text.length characters) := by
  have begins : Utf8.Apart (lastLine read) text := by
    have whole : Utf8.Apart (lastLine read) c.rest :=
      behind.apart.suffix (List.rtakeWhile_suffix _ read)
    rw [front] at whole
    exact whole.initial (List.prefix_append text rest)
  constructor
  · rw [List.length_append, ← behind.index]
    rfl
  · rw [List.count_append, List.count_eq_zero_of_not_mem inLine, ← behind.line]
    rfl
  · rw [lastLine_append inLine, Utf8.decode_append begins, List.length_append, ← behind.column,
      ← counted]
    rfl
  · rw [Cursor.advance_rest front]
    exact apart

theorem Cursor.Behind.separator (behind : Behind read c) {b : UInt8} (front : c.rest = b :: rest)
    (separates : Separates b) : Behind (read ++ [b]) (c.skip b) := by
  have ascii : ∀ d ∈ [b], d.toNat < 128 := by simpa using separates_ascii separates
  have apart : Utf8.Apart (read ++ [b]) rest :=
    Utf8.apart_of_ascii (List.cons_ne_nil b []) ascii rest
  by_cases newline : b = 0x0A
  · subst newline
    constructor
    · rw [Cursor.skip_index, behind.index, List.length_append, List.length_singleton]
    · rw [List.count_append, ← behind.line]
      rfl
    · rw [lastLine_newline, Utf8.decode]
      rfl
    · rw [Cursor.skip_rest front]
      exact apart
  · have moved : c.skip b = c.advance [b].length 1 := if_neg (by simpa [isNewline] using newline)
    rw [moved]
    have inLine : 0x0A ∉ [b] := by simpa using Ne.symm newline
    exact behind.advance front inLine apart (Utf8.decode_length ascii).symm

theorem Cursor.Behind.token (behind : Behind read c) {kind : Token.Kind}
    (front : c.rest = text ++ rest) (lexeme : Lexeme (some kind) text rest) :
    Behind (read ++ text) (c.advance text.length text.length) := by
  obtain ⟨inLine, ascii⟩ := lexeme_plain lexeme
  have apart : Utf8.Apart (read ++ text) rest :=
    Utf8.apart_of_ascii (filled_of_lexeme lexeme) ascii rest
  exact behind.advance front inLine apart (Utf8.decode_length ascii).symm

theorem Cursor.Behind.run (behind : Behind read c) (front : c.rest = text ++ rest)
    (invalid : Lexeme none text rest) (settled : Settled rest) {characters : Nat}
    (counted : characters = (Utf8.decode text).length) :
    Behind (read ++ text) (c.advance text.length characters) :=
  behind.advance front (newline_not_invalid invalid) (.inr (settled_ascii settled)) counted

theorem Cursor.Behind.stands (behind : Behind read c) :
    Stands (read ++ c.rest) c.index c.position := by
  have before : (read ++ c.rest).take c.index = read := by rw [behind.index, List.take_left]
  constructor
  · rw [behind.index, List.length_append]
    omega
  · rw [before, ← behind.line]
    rfl
  · rw [before]
    exact ⟨c.column, rfl, Utf8.counts_iff.mpr behind.column⟩

end Steps

section Items

/-- An item stands at the line and the column that its bytes have in a source. -/
def Located (source : List UInt8) : Item → Prop
  | .token t => ∃ start : Nat, t.span.start = start ∧ Stands source start t.location
  | .invalid place => Stretches source place

theorem located_token {c : Cursor} {read : List UInt8} (behind : c.Behind read) (kind : Token.Kind)
    (stop : Int) : Located (read ++ c.rest) (.token ⟨kind, ⟨c.index, stop⟩, c.position⟩) :=
  ⟨c.index, rfl, behind.stands⟩

theorem located_run {c : Cursor} {read run rest : List UInt8} (behind : c.Behind read)
    (front : c.rest = run ++ rest) (invalid : Lexeme none run rest) (settled : Settled rest)
    {characters : Nat} (counted : characters = (Utf8.decode run).length) :
    Located (read ++ c.rest) (.invalid ⟨⟨c.index, c.index + run.length⟩, ⟨c.line, c.line⟩,
      ⟨c.column, c.column + characters⟩⟩) := by
  have past := (behind.run front invalid settled counted).stands
  rw [Cursor.advance_rest front, List.append_assoc, ← front] at past
  have split : (read ++ c.rest).drop c.index = run ++ rest := by
    rw [behind.index, List.drop_left, front]
  refine ⟨rfl, ⟨c.index, rfl, behind.stands⟩, ⟨c.index + run.length, ?_, ?_⟩, characters, ?_, ?_⟩
  · exact (Int.natCast_add c.index run.length).symm
  · exact past
  · simp only [Span.length]
    omega
  · rw [cut_split split]
    exact Utf8.counts_iff.mpr counted

theorem Scans.behind {c last : Cursor} {all : List Item} (scans : Scans c all last)
    {read : List UInt8} (behind : c.Behind read) :
    last.Behind (read ++ c.rest) ∧ last.rest = [] := by
  induction scans generalizing read with
  | done front =>
    refine ⟨?_, front⟩
    rw [front, List.append_nil]
    exact behind
  | separator front separates _ ih =>
    have after := ih (behind.separator front separates)
    rwa [Cursor.skip_rest front, List.append_assoc, List.singleton_append, ← front] at after
  | token front lexeme _ ih =>
    have after := ih (behind.token front lexeme)
    rwa [Cursor.advance_rest front, List.append_assoc, ← front] at after
  | invalid front _ invalid settled counted _ ih =>
    have after := ih (behind.run front invalid settled counted)
    rwa [Cursor.advance_rest front, List.append_assoc, ← front] at after

theorem Scans.located {c last : Cursor} {all : List Item} (scans : Scans c all last)
    {read : List UInt8} (behind : c.Behind read) :
    ∀ item ∈ all, Located (read ++ c.rest) item := by
  induction scans generalizing read with
  | done => simp
  | separator front separates _ ih =>
    have others := ih (behind.separator front separates)
    rwa [Cursor.skip_rest front, List.append_assoc, List.singleton_append, ← front] at others
  | @token c last kind text rest all front lexeme _ ih =>
    have others := ih (behind.token front lexeme)
    rw [Cursor.advance_rest front, List.append_assoc, ← front] at others
    exact List.forall_mem_cons.mpr ⟨located_token behind kind (c.index + text.length), others⟩
  | invalid front _ invalid settled counted _ ih =>
    have others := ih (behind.run front invalid settled counted)
    rw [Cursor.advance_rest front, List.append_assoc, ← front] at others
    exact List.forall_mem_cons.mpr ⟨located_run behind front invalid settled counted, others⟩

/-- Positions are right: tokens and runs of invalid characters have the line and the column of their
bytes in the source, and the columns of a run are as many as its characters. -/
theorem items_located (source : List UInt8) :
    (∀ t ∈ tokens source, ∃ start : Nat, t.span.start = start ∧
      Stands source start t.location) ∧
    ∀ place ∈ invalids source, Stretches source place := by
  obtain ⟨last, scans⟩ := scans_items (.ofSource source)
  have located := scans.located (Cursor.Behind.start source)
  constructor
  · intro t member
    obtain ⟨item, inItems, isToken⟩ := List.mem_filterMap.mp member
    have here := located item inItems
    cases item with
    | token u =>
      cases isToken
      exact here
    | invalid place => cases isToken
  · intro place member
    obtain ⟨item, inItems, isInvalid⟩ := List.mem_filterMap.mp member
    have here := located item inItems
    cases item with
    | token u => cases isInvalid
    | invalid other =>
      cases isInvalid
      exact here

end Items

end DeltaLang.Lexer
