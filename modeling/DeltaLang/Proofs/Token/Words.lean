import DeltaLang.Proofs.Acceptance
import DeltaLang.Proofs.Token.Segments

namespace DeltaLang

/-- A token without its place. -/
abbrev Word := Token.Kind × String

def Token.word (source : List UInt8) (t : Token) : Word :=
  (t.kind, t.text source)

def Symbol.word (s : Symbol) : Word :=
  (.symbol s, s.spelling)

def Keyword.word (k : Keyword) : Word :=
  (.keyword k, k.spelling)

def isName (text : String) : Bool :=
  isIdentifier text && Keyword.all.all fun k => text != k.spelling

def isNumeral (text : String) : Bool :=
  text != "" && text.toList.all Char.isDigit

namespace Lexer

/-- A text is made of words with separators between them, and each word is a lexeme where it
stands. -/
inductive Reads : List UInt8 → List Word → Prop
  | done : Reads [] []
  | separator {b : UInt8} {rest : List UInt8} {words : List Word} (separates : Separates b)
      (others : Reads rest words) : Reads (b :: rest) words
  | word {kind : Token.Kind} {text : String} {rest : List UInt8} {words : List Word}
      (lexeme : Lexeme (some kind) (Utf8.encode text) rest) (others : Reads rest words) :
      Reads (Utf8.encode text ++ rest) ((kind, text) :: words)

section Reading

theorem bytes_split {source text rest : List UInt8} {start : Nat} {kind : Token.Kind}
    {location : Position} (split : source.drop start = text ++ rest) (filled : text ≠ []) :
    Token.bytes ⟨kind, ⟨start, start + text.length⟩, location⟩ source = text := by
  have length := length_split split filled
  have inside : (0 : Int) ≤ start ∧ (start : Int) ≤ start + text.length ∧
      (start : Int) + text.length ≤ source.length := by omega
  rw [Token.bytes, if_pos inside]
  exact cut_split split

theorem items_of_reads {source text : List UInt8} {words : List Word} (reads : Reads text words)
    (c : Cursor) (front : c.rest = text) (place : source.drop c.index = text) :
    ∃ tokens : List Token, items c = tokens.map .token ∧
      tokens.map (Token.word source) = words := by
  induction reads generalizing c with
  | done => exact ⟨[], items_of_none (next_end front), rfl⟩
  | @separator b rest words separates _ ih =>
    have after := drop_succ_split place
    rw [items_separator front separates]
    exact ih (c.skip b) (Cursor.skip_rest front) (by rw [Cursor.skip_index, after])
  | @word kind text rest words lexeme _ ih =>
    have filled := filled_of_lexeme lexeme
    obtain ⟨tokens, later, spelled⟩ := ih (c.advance _ _) (Cursor.advance_rest front _)
      (drop_split place)
    refine ⟨_ :: tokens, by rw [items_of_some (next_token front lexeme), later]; rfl, ?_⟩
    rw [List.map_cons, spelled, Token.word, Token.text, bytes_split place filled,
      Utf8.toString_encode]

/-- A text that is put together from words has no invalid characters, and its tokens are these
words. -/
theorem words_of_reads {source : List UInt8} {words : List Word} (reads : Reads source words) :
    invalids source = [] ∧ (tokens source).map (Token.word source) = words := by
  obtain ⟨found, all, spelled⟩ := items_of_reads reads (.ofSource source) rfl rfl
  have kept : tokens source = found := by
    rw [tokens, all, List.filterMap_map]
    exact List.filterMap_some
  constructor
  · rw [invalids, all, List.filterMap_map]
    exact List.filterMap_eq_nil_iff.mpr fun _ _ => rfl
  · rw [kept, spelled]

end Reading

section Lexemes

variable {text : String} {rest : List UInt8}

theorem wordChar_of_start {c : Char} (start : wordStart c = true) : wordChar c = true := by
  simp only [wordStart, wordChar, Char.isAlphanum, Bool.or_eq_true] at start ⊢
  rcases start with letter | underscore
  · exact .inl (.inl letter)
  · exact .inr underscore

theorem isName_iff : isName text = true ↔
    (∃ first others, text.toList = first :: others ∧ wordStart first = true ∧
      ∀ c ∈ others, wordChar c = true) ∧ ∀ k ∈ Keyword.all, text ≠ k.spelling := by
  rw [isName, Bool.and_eq_true, isIdentifier]
  cases text.toList with
  | nil => simp
  | cons first others => simp [wordStart, wordChar]

theorem isNumeral_iff : isNumeral text = true ↔
    text.toList ≠ [] ∧ ∀ c ∈ text.toList, c.isDigit = true := by
  simp [isNumeral]

theorem encode_class {inClass : Char → Bool} (inside : ∀ c ∈ text.toList, inClass c = true)
    (same : (Utf8.encode text).map Char.ofUInt8 = text.toList) :
    ∀ b ∈ Utf8.encode text, inClass (Char.ofUInt8 b) = true := by
  intro b member
  apply inside
  rw [← same]
  exact List.mem_map_of_mem member

/-- A name is read as an identifier. -/
theorem lexeme_name (named : isName text = true) (ends : ¬Begins wordChar rest) :
    Lexeme (some .identifier) (Utf8.encode text) rest := by
  obtain ⟨⟨first, others, spelled, start, later⟩, free⟩ := isName_iff.mp named
  have word : ∀ c ∈ text.toList, wordChar c = true := by
    rw [spelled]
    simpa using ⟨wordChar_of_start start, later⟩
  have same := Utf8.map_encode_ascii fun c member => wordChar_ascii (word c member)
  refine .identifier ?_ (encode_class word same) ends ?_
  · rw [spelled] at same
    obtain ⟨b, tail, bytes, rfl, -⟩ := List.map_eq_cons_iff.mp same
    exact ⟨b, tail, bytes, start⟩
  · intro k known contrary
    exact free k known (Utf8.encode_inj contrary)

/-- A numeral is read as a literal. -/
theorem lexeme_numeral (numeral : isNumeral text = true) (ends : ¬Begins wordChar rest) :
    Lexeme (some (.literal .number)) (Utf8.encode text) rest := by
  obtain ⟨filled, digits⟩ := isNumeral_iff.mp numeral
  have same := Utf8.map_encode_ascii fun c member =>
    wordChar_ascii (wordChar_of_digit (digits c member))
  refine .number ?_ (encode_class digits same) ?_
  · intro empty
    rw [empty] at same
    exact filled same.symm
  · rintro ⟨b, tail, rfl, digit⟩
    exact ends ⟨b, tail, rfl, wordChar_of_digit digit⟩

theorem symbol_extension : ∀ s ∈ Symbol.all, ∀ t ∈ Symbol.all,
    Utf8.encode s.spelling <+: Utf8.encode t.spelling →
      t = s ∨ Utf8.encode t.spelling = Utf8.encode s.spelling ++ [0x3D] := by
  decide

/-- A symbol goes on as a longer one only where an equals sign follows. -/
theorem lexeme_symbol {s : Symbol} (known : s ∈ Symbol.all) (ends : rest.head? ≠ some 0x3D) :
    Lexeme (some (.symbol s)) (Utf8.encode s.spelling) rest := by
  refine .symbol known fun other knownToo begins => ?_
  rcases List.prefix_or_prefix_of_prefix begins (List.prefix_append _ rest) with shorter | longer
  · exact shorter.length_le
  · rcases symbol_extension s known other knownToo longer with rfl | extended
    · exact Nat.le_refl _
    · rw [extended, List.prefix_append_right_inj] at begins
      obtain ⟨after, rfl⟩ := begins
      exact absurd rfl ends

end Lexemes

section Tokens

/-- A token whose text is what its kind asks for. -/
structure Proper (source : List UInt8) (t : Token) : Prop where
  name : t.kind = .identifier → isName (t.text source) = true
  numeral : ∀ type, t.kind = .literal type → type = .number ∧ isNumeral (t.text source) = true

theorem toList_toString {bytes : List UInt8}
    (word : ∀ b ∈ bytes, wordChar (Char.ofUInt8 b) = true) :
    (Utf8.toString bytes).toList = bytes.map Char.ofUInt8 := by
  rw [Utf8.toString, String.toList_ofList]
  exact Utf8.decode_ascii fun b member => byte_ascii (word b member)

theorem name_of_lexeme {bytes rest : List UInt8} (lexeme : Lexeme (some .identifier) bytes rest) :
    isName (Utf8.toString bytes) = true := by
  cases lexeme with
  | identifier starts word ends free =>
    have spelled := toList_toString word
    obtain ⟨first, tail, rfl, start⟩ := starts
    refine isName_iff.mpr ⟨⟨_, _, spelled, start, ?_⟩, ?_⟩
    · intro c member
      obtain ⟨b, inTail, rfl⟩ := List.mem_map.mp member
      exact word b (List.mem_cons_of_mem _ inTail)
    · intro k known same
      apply free k known
      rw [← same, Utf8.encode_toString_ascii fun b member => byte_ascii (word b member)]

theorem numeral_of_lexeme {type : Primitive} {bytes rest : List UInt8}
    (lexeme : Lexeme (some (.literal type)) bytes rest) :
    type = .number ∧ isNumeral (Utf8.toString bytes) = true := by
  cases lexeme with
  | number filled digits ends =>
    have spelled := toList_toString fun b member => wordChar_of_digit (digits b member)
    refine ⟨rfl, isNumeral_iff.mpr ?_⟩
    rw [spelled]
    exact ⟨by simpa using filled, by simpa using digits⟩

theorem lexeme_of_token {source : List UInt8} {t : Token} (member : t ∈ tokens source) :
    ∃ rest, Lexeme (some t.kind) (t.bytes source) rest := by
  obtain ⟨item, inItems, isToken⟩ := List.mem_filterMap.mp member
  obtain rfl : item = .token t := by
    cases item with
    | token u => simpa [Item.token?] using isToken
    | invalid place => cases isToken
  have segments := items_segments source
  have inPieces := List.mem_map_of_mem (f := Item.piece) inItems
  have bounds := segments.covers.inside _ (List.mem_map_of_mem inPieces)
  have lexeme := segments.lexemes _ inPieces
  have inside : 0 ≤ t.span.start ∧ t.span.start ≤ t.span.stop ∧ t.span.stop ≤ source.length := by
    simp only [Item.piece] at bounds
    omega
  rw [Token.bytes, if_pos inside]
  exact ⟨_, lexeme⟩

theorem proper_of_token {source : List UInt8} {t : Token} (member : t ∈ tokens source) :
    Proper source t := by
  obtain ⟨rest, lexeme⟩ := lexeme_of_token member
  constructor
  · intro kind
    rw [kind] at lexeme
    exact name_of_lexeme lexeme
  · intro type kind
    rw [kind] at lexeme
    exact numeral_of_lexeme lexeme

end Tokens

end Lexer

end DeltaLang
