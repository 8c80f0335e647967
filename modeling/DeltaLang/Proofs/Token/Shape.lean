import DeltaLang.Token.Lexer
import DeltaLang.Proofs.Text.Utf8

namespace DeltaLang.Lexer

def wordChar (c : Char) : Bool :=
  c.isAlphanum || c == '_'

def wordStart (c : Char) : Bool :=
  c.isAlpha || c == '_'

def Separates (b : UInt8) : Prop :=
  Char.ofUInt8 b ∈ [' ', '\r', '\n']

/-- A byte of a text that belongs to no token: it separates nothing, belongs to no word, and no
symbol begins with it where it stands. Characters beyond ASCII are of this kind in every byte. -/
structure Invalid (b : UInt8) (rest : List UInt8) : Prop where
  notSeparator : ¬Separates b
  notWord : wordChar (Char.ofUInt8 b) = false
  notSymbol : ∀ s ∈ Symbol.all, ¬Utf8.encode s.spelling <+: b :: rest

/-- Whether a text begins with a character of some class. -/
def Begins (inClass : Char → Bool) (text : List UInt8) : Prop :=
  ∃ b rest, text = b :: rest ∧ inClass (Char.ofUInt8 b) = true

/-- The text, with `rest` behind it, is a token of a kind, or for no kind it is made of invalid
characters. -/
inductive Lexeme : Option Token.Kind → List UInt8 → List UInt8 → Prop
  | number {text rest : List UInt8} (filled : text ≠ [])
      (digits : ∀ b ∈ text, (Char.ofUInt8 b).isDigit = true) (ends : ¬Begins Char.isDigit rest) :
      Lexeme (some (.literal .number)) text rest
  | keyword {k : Keyword} {rest : List UInt8} (known : k ∈ Keyword.all)
      (ends : ¬Begins wordChar rest) :
      Lexeme (some (.keyword k)) (Utf8.encode k.spelling) rest
  | identifier {text rest : List UInt8} (starts : Begins wordStart text)
      (word : ∀ b ∈ text, wordChar (Char.ofUInt8 b) = true) (ends : ¬Begins wordChar rest)
      (free : ∀ k ∈ Keyword.all, text ≠ Utf8.encode k.spelling) :
      Lexeme (some .identifier) text rest
  | symbol {s : Symbol} {rest : List UInt8} (known : s ∈ Symbol.all)
      (longest : ∀ other ∈ Symbol.all,
        Utf8.encode other.spelling <+: Utf8.encode s.spelling ++ rest →
          (Utf8.encode other.spelling).length ≤ (Utf8.encode s.spelling).length) :
      Lexeme (some (.symbol s)) (Utf8.encode s.spelling) rest
  | invalid {text rest : List UInt8}
      (strange : ∀ front b back, text = front ++ b :: back → Invalid b (back ++ rest)) :
      Lexeme none text rest

section Classes

theorem ofUInt8_toNat (b : UInt8) : (Char.ofUInt8 b).val.toNat = b.toNat :=
  UInt8.toNat_toUInt32 b

theorem isDigit_eq (b : UInt8) : isDigit b = (Char.ofUInt8 b).isDigit := by
  rw [Bool.eq_iff_iff]
  simp only [isDigit, Char.isDigit, UInt8.le_iff_toNat_le, UInt32.le_iff_toNat_le, ofUInt8_toNat,
    Bool.and_eq_true, decide_eq_true_eq, ge_iff_le]
  rfl

theorem isWord_eq (b : UInt8) : isWord b = wordChar (Char.ofUInt8 b) := by
  rw [Bool.eq_iff_iff]
  simp only [isWord, isDigit_eq, wordChar, Char.isAlphanum, Utf8.isAlpha_iff,
    UInt8.le_iff_toNat_le, ofUInt8_toNat, Bool.or_eq_true, Bool.and_eq_true, decide_eq_true_eq,
    beq_iff_eq, ← UInt8.toNat_inj, Char.ext_iff, ← UInt32.toNat_inj]
  grind

theorem wordStart_eq (b : UInt8) : wordStart (Char.ofUInt8 b) = (isWord b && !isDigit b) := by
  rw [Bool.eq_iff_iff]
  simp only [isWord, isDigit, wordStart, Utf8.isAlpha_iff, UInt8.le_iff_toNat_le, ofUInt8_toNat,
    Bool.or_eq_true, Bool.and_eq_true, decide_eq_true_eq, beq_iff_eq, ← UInt8.toNat_inj,
    Char.ext_iff, ← UInt32.toNat_inj]
  grind

theorem blank_iff (b : UInt8) : isBlank b = true ∨ isNewline b = true ↔ Separates b := by
  simp only [isBlank, isNewline, Separates, List.mem_cons, List.not_mem_nil, or_false,
    Bool.or_eq_true, beq_iff_eq, ← UInt8.toNat_inj, Char.ext_iff, ← UInt32.toNat_inj,
    ofUInt8_toNat]
  grind

theorem not_separates_iff (b : UInt8) : ¬Separates b ↔ isBlank b = false ∧ isNewline b = false := by
  rw [← blank_iff]
  simp

theorem wordChar_ascii {c : Char} (word : wordChar c = true) : c.val.toNat < 128 := by
  simp only [wordChar, Char.isAlphanum, Utf8.isAlpha_iff, Char.isDigit,
    Bool.or_eq_true, Bool.and_eq_true, decide_eq_true_eq, beq_iff_eq, UInt32.le_iff_toNat_le,
    ge_iff_le, Char.ext_iff, ← UInt32.toNat_inj] at word
  grind

theorem wordChar_of_digit {c : Char} (digit : c.isDigit = true) : wordChar c = true := by
  simp [wordChar, Char.isAlphanum, digit]

theorem byte_ascii {b : UInt8} (word : wordChar (Char.ofUInt8 b) = true) : b.toNat < 128 := by
  rw [← ofUInt8_toNat]
  exact wordChar_ascii word

theorem word_of_digit {b : UInt8} (digit : isDigit b = true) : isWord b = true := by
  simp [isWord, digit]

theorem not_digit_of_plain {b : UInt8} (plain : isWord b = false) : isDigit b = false := by
  cases digit : isDigit b with
  | false => rfl
  | true => exact absurd (word_of_digit digit) (by simp [plain])

theorem not_separates_of_word {b : UInt8} (word : isWord b = true) : ¬Separates b := by
  simp only [not_separates_iff, isBlank, isNewline, Bool.or_eq_false_iff, beq_eq_false_iff_ne]
  refine ⟨⟨?_, ?_⟩, ?_⟩ <;> rintro rfl <;> revert word <;> decide

theorem begins_iff {inClass : Char → Bool} {test : UInt8 → Bool}
    (same : ∀ b, test b = inClass (Char.ofUInt8 b)) (text : List UInt8) :
    Begins inClass text ↔ text.head?.any test = true := by
  cases text <;> simp [Begins, same]

/-- A run of characters of one class that does not go on is what is taken of the text as long as
the characters are of that class. -/
theorem takeWhile_run {inClass : Char → Bool} {test : UInt8 → Bool}
    (same : ∀ b, test b = inClass (Char.ofUInt8 b)) {text rest : List UInt8}
    (inside : ∀ b ∈ text, inClass (Char.ofUInt8 b) = true) (ends : ¬Begins inClass rest) :
    (text ++ rest).takeWhile test = text := by
  have stops : rest.takeWhile test = [] := by
    rw [begins_iff same] at ends
    cases rest with
    | nil => rfl
    | cons b rest => exact List.takeWhile_cons_of_neg (by simpa using ends)
  rw [List.takeWhile_append_of_pos (by simpa only [same] using inside), stops, List.append_nil]

theorem takeWhile_split {inClass : Char → Bool} {test : UInt8 → Bool}
    (same : ∀ b, test b = inClass (Char.ofUInt8 b)) (text : List UInt8) :
    (∀ b ∈ text.takeWhile test, inClass (Char.ofUInt8 b) = true) ∧
      ¬Begins inClass (text.dropWhile test) := by
  constructor
  · simpa only [List.all_eq_true, same] using List.all_takeWhile (p := test) (l := text)
  · rw [begins_iff same]
    have stopped := List.head?_dropWhile_not test text
    cases front : (text.dropWhile test).head? with
    | none => simp
    | some b => simpa [front] using stopped

end Classes

section Keywords

theorem keyword_spelling_word :
    ∀ k ∈ Keyword.all, ∀ b ∈ Utf8.encode k.spelling, wordChar (Char.ofUInt8 b) = true := by
  have checked : ∀ k ∈ Keyword.all,
      (Utf8.encode k.spelling).all (fun b => wordChar (Char.ofUInt8 b)) = true := by decide
  simpa only [List.all_eq_true] using checked

theorem keyword_spelling_letter :
    ∀ k ∈ Keyword.all, ∀ b ∈ Utf8.encode k.spelling, isDigit b = false := by
  have checked : ∀ k ∈ Keyword.all,
      (Utf8.encode k.spelling).all (fun b => !isDigit b) = true := by decide
  simpa only [List.all_eq_true, Bool.not_eq_true'] using checked

theorem keyword_spelling_inj :
    ∀ k ∈ Keyword.all, ∀ l ∈ Keyword.all,
      Utf8.encode k.spelling = Utf8.encode l.spelling → k = l := by
  decide

theorem beginsWith_iff {k : Keyword} {text : List UInt8} (known : k ∈ Keyword.all) :
    beginsWith k text = true ↔ text.takeWhile isWord = Utf8.encode k.spelling := by
  simp only [beginsWith, Bool.and_eq_true, List.isPrefixOf_iff_prefix, Bool.not_eq_true']
  constructor
  · rintro ⟨⟨rest, rfl⟩, ends⟩
    rw [List.drop_left] at ends
    exact takeWhile_run isWord_eq (keyword_spelling_word k known)
      (by simp [begins_iff isWord_eq, ends])
  · intro spelled
    have split := List.takeWhile_append_dropWhile (p := isWord) (l := text)
    have ends := (takeWhile_split isWord_eq text).2
    rw [spelled] at split
    refine ⟨⟨_, split⟩, ?_⟩
    rw [← split, List.drop_left]
    simpa [begins_iff isWord_eq] using ends

/-- A keyword is found where it is the whole word at the front of a text. -/
theorem keywordAt?_eq_some_iff {k : Keyword} {text : List UInt8} :
    keywordAt? text = some k ↔
      k ∈ Keyword.all ∧ text.takeWhile isWord = Utf8.encode k.spelling := by
  constructor
  · intro found
    have known := List.mem_of_find?_eq_some found
    have begins := List.find?_some found
    exact ⟨known, (beginsWith_iff known).mp begins⟩
  · rintro ⟨known, spelled⟩
    cases found : keywordAt? text with
    | none =>
      have refused := List.find?_eq_none.mp found k known
      exact absurd ((beginsWith_iff known).mpr spelled) refused
    | some l =>
      have knownToo := List.mem_of_find?_eq_some found
      have beginsToo := List.find?_some found
      have spelledToo := (beginsWith_iff knownToo).mp beginsToo
      rw [keyword_spelling_inj l knownToo k known (spelledToo.symm.trans spelled)]

end Keywords

section Symbols

theorem symbol_spelling_filled : ∀ s ∈ Symbol.all, Utf8.encode s.spelling ≠ [] := by
  decide

theorem symbol_spelling_plain : ∀ s ∈ Symbol.all, ∀ b ∈ Utf8.encode s.spelling,
    isBlank b = false ∧ isNewline b = false ∧ isWord b = false := by
  have checked : ∀ s ∈ Symbol.all,
      (Utf8.encode s.spelling).all (fun b => !isBlank b && (!isNewline b && !isWord b)) = true := by
    decide
  simpa only [List.all_eq_true, Bool.and_eq_true, Bool.not_eq_true'] using checked

theorem symbol_spelling_inj :
    ∀ s ∈ Symbol.all, ∀ t ∈ Symbol.all,
      Utf8.encode s.spelling = Utf8.encode t.spelling → s = t := by
  decide

theorem symbol_order :
    Symbol.all.Pairwise fun s t => ¬Utf8.encode s.spelling <+: Utf8.encode t.spelling := by
  decide

theorem longest_of_symbolAt? {s other : Symbol} {text : List UInt8}
    (found : symbolAt? text = some s) (known : other ∈ Symbol.all)
    (begins : Utf8.encode other.spelling <+: text) :
    (Utf8.encode other.spelling).length ≤ (Utf8.encode s.spelling).length := by
  obtain ⟨here, earlier, later, order, refused⟩ := List.find?_eq_some_iff_append.mp found
  rw [List.isPrefixOf_iff_prefix] at here
  rw [order, List.mem_append, List.mem_cons] at known
  rcases known with before | rfl | after
  · have contrary := refused other before
    simp [List.isPrefixOf_iff_prefix.mpr begins] at contrary
  · exact Nat.le_refl _
  · -- A later symbol does not begin with `s`, so `s` begins with it.
    have ordered := symbol_order
    rw [order] at ordered
    have apart := (List.pairwise_cons.mp (List.pairwise_append.mp ordered).2.1).1 other after
    rcases List.prefix_or_prefix_of_prefix here begins with shorter | longer
    · exact absurd shorter apart
    · exact longer.length_le

/-- The symbol that is found is the longest one at the front of a text. -/
theorem symbolAt?_eq_some_iff {s : Symbol} {text : List UInt8} :
    symbolAt? text = some s ↔ s ∈ Symbol.all ∧ Utf8.encode s.spelling <+: text ∧
      ∀ other ∈ Symbol.all, Utf8.encode other.spelling <+: text →
        (Utf8.encode other.spelling).length ≤ (Utf8.encode s.spelling).length := by
  constructor
  · intro found
    have begins := List.find?_some found
    exact ⟨List.mem_of_find?_eq_some found, List.isPrefixOf_iff_prefix.mp begins,
      fun other known here => longest_of_symbolAt? found known here⟩
  · rintro ⟨known, begins, longest⟩
    cases found : symbolAt? text with
    | none =>
      have refused := List.find?_eq_none.mp found s known
      exact absurd (List.isPrefixOf_iff_prefix.mpr begins) refused
    | some t =>
      obtain ⟨matched, -⟩ := List.find?_eq_some_iff_append.mp found
      have knownToo := List.mem_of_find?_eq_some found
      have beginsToo := List.isPrefixOf_iff_prefix.mp matched
      have bound := longest t knownToo beginsToo
      have boundToo := longest_of_symbolAt? found known begins
      have within := List.prefix_of_prefix_length_le beginsToo begins bound
      rw [symbol_spelling_inj t knownToo s known (within.eq_of_length (by omega))]

theorem mem_of_symbolAt? {s : Symbol} {first : UInt8} {rest : List UInt8}
    (found : symbolAt? (first :: rest) = some s) : first ∈ Utf8.encode s.spelling := by
  obtain ⟨known, begins, -⟩ := symbolAt?_eq_some_iff.mp found
  have filled := symbol_spelling_filled s known
  cases spelled : Utf8.encode s.spelling with
  | nil => exact absurd spelled filled
  | cons b tail =>
    rw [spelled, List.cons_prefix_cons] at begins
    simp [begins.1]

end Symbols

section Shape

theorem separates_iff_shape {first : UInt8} {rest : List UInt8} :
    Separates first ↔ shape first rest = .blank ∨ shape first rest = .newline := by
  rw [← blank_iff]
  unfold shape
  repeat' split
  all_goals simp_all

/-- What the lexer takes for a token is a lexeme of its kind. -/
theorem lexeme_of_shape {first : UInt8} {rest : List UInt8} {kind : Token.Kind} {size : Nat}
    (shaped : shape first rest = .token kind size) :
    ∃ text after, first :: rest = text ++ after ∧ text.length = size ∧
      Lexeme (some kind) text after := by
  unfold shape at shaped
  split at shaped
  · cases shaped
  split at shaped
  · cases shaped
  split at shaped
  · next digit =>
    cases shaped
    obtain ⟨digits, ends⟩ := takeWhile_split isDigit_eq (first :: rest)
    exact ⟨_, _, List.takeWhile_append_dropWhile.symm, rfl, .number (by simp [digit]) digits ends⟩
  next letter =>
  split at shaped
  · next s found =>
    cases shaped
    obtain ⟨known, ⟨after, split⟩, longest⟩ := symbolAt?_eq_some_iff.mp found
    rw [← split] at longest
    exact ⟨_, after, split.symm, rfl, .symbol known longest⟩
  obtain ⟨word, ends⟩ := takeWhile_split isWord_eq (first :: rest)
  have split := List.takeWhile_append_dropWhile (p := isWord) (l := first :: rest)
  split at shaped
  · next k found =>
    cases shaped
    obtain ⟨known, spelled⟩ := keywordAt?_eq_some_iff.mp found
    rw [spelled] at split
    exact ⟨_, _, split.symm, rfl, .keyword known ends⟩
  next missing =>
  split at shaped
  · next inWord =>
    cases shaped
    refine ⟨_, _, split.symm, rfl, .identifier ?_ word ends ?_⟩
    · refine ⟨first, rest.takeWhile isWord, List.takeWhile_cons_of_pos inWord, ?_⟩
      simp [wordStart_eq, inWord, letter]
    · intro k known spelled
      rw [keywordAt?_eq_some_iff.mpr ⟨known, spelled⟩] at missing
      cases missing
  · cases shaped

theorem symbolAt?_word {first : UInt8} {rest : List UInt8} (word : isWord first = true) :
    symbolAt? (first :: rest) = none := by
  cases found : symbolAt? (first :: rest) with
  | none => rfl
  | some s =>
    have plain := symbol_spelling_plain s (List.mem_of_find?_eq_some found) first
      (mem_of_symbolAt? found)
    rw [word] at plain
    cases plain.2.2

theorem keywordAt?_plain {first : UInt8} {rest : List UInt8} (plain : isWord first = false) :
    keywordAt? (first :: rest) = none := by
  cases found : keywordAt? (first :: rest) with
  | none => rfl
  | some k =>
    obtain ⟨known, spelled⟩ := keywordAt?_eq_some_iff.mp found
    have filled := keyword_spelling_pos k known
    rw [← spelled, List.takeWhile_cons_of_neg (by simp [plain])] at filled
    cases filled

/-- The lexer does not miss a lexeme at the front of a text. -/
theorem shape_of_lexeme {kind : Token.Kind} {text rest : List UInt8}
    (lexeme : Lexeme (some kind) text rest) :
    ∃ first tail, text = first :: tail ∧ shape first (tail ++ rest) = .token kind text.length := by
  cases lexeme with
  | number filled digits ends =>
    obtain ⟨first, tail, rfl⟩ := List.exists_cons_of_ne_nil filled
    have digit : isDigit first = true := by
      rw [isDigit_eq]
      exact digits first (by simp)
    have separate := (not_separates_iff first).mp (not_separates_of_word (word_of_digit digit))
    have taken := takeWhile_run isDigit_eq digits ends
    refine ⟨first, tail, rfl, ?_⟩
    rw [List.cons_append] at taken
    simp only [shape, separate.1, separate.2, digit, taken]
    rfl
  | @keyword k rest known ends =>
    have word := keyword_spelling_word k known
    have taken := takeWhile_run isWord_eq word ends
    have found := keywordAt?_eq_some_iff.mpr ⟨known, taken⟩
    obtain ⟨first, tail, spelled⟩ := List.exists_cons_of_length_pos (keyword_spelling_pos k known)
    have inWord : isWord first = true := by
      rw [isWord_eq]
      exact word first (by simp [spelled])
    have letter := keyword_spelling_letter k known first (by simp [spelled])
    have separate := (not_separates_iff first).mp (not_separates_of_word inWord)
    rw [spelled, List.cons_append] at found
    refine ⟨first, tail, spelled, ?_⟩
    simp only [shape, separate.1, separate.2, letter, symbolAt?_word inWord, found]
    rfl
  | identifier starts word ends free =>
    obtain ⟨first, tail, rfl, start⟩ := starts
    rw [wordStart_eq, Bool.and_eq_true, Bool.not_eq_true'] at start
    obtain ⟨inWord, letter⟩ := start
    have separate := (not_separates_iff first).mp (not_separates_of_word inWord)
    have taken := takeWhile_run isWord_eq word ends
    rw [List.cons_append] at taken
    have missing : keywordAt? (first :: (tail ++ rest)) = none := by
      cases found : keywordAt? (first :: (tail ++ rest)) with
      | none => rfl
      | some k =>
        obtain ⟨known, spelled⟩ := keywordAt?_eq_some_iff.mp found
        exact absurd (taken.symm.trans spelled) (free k known)
    refine ⟨first, tail, rfl, ?_⟩
    simp only [shape, separate.1, separate.2, letter, symbolAt?_word inWord, missing, inWord, taken]
    rfl
  | @symbol s rest known longest =>
    have plain := symbol_spelling_plain s known
    have found := symbolAt?_eq_some_iff.mpr ⟨known, List.prefix_append _ rest, longest⟩
    obtain ⟨first, tail, spelled⟩ := List.exists_cons_of_length_pos (symbol_spelling_pos s known)
    obtain ⟨blank, newline, word⟩ := plain first (by simp [spelled])
    rw [spelled, List.cons_append] at found
    refine ⟨first, tail, spelled, ?_⟩
    simp only [shape, blank, newline, not_digit_of_plain word, found]
    rfl

theorem filled_of_lexeme {kind : Token.Kind} {text rest : List UInt8}
    (lexeme : Lexeme (some kind) text rest) : text ≠ [] := by
  obtain ⟨first, tail, rfl, -⟩ := shape_of_lexeme lexeme
  exact List.cons_ne_nil first tail

theorem invalid_of_shape {first : UInt8} {rest : List UInt8} {size : Nat}
    (shaped : shape first rest = .invalid size) :
    Invalid first rest ∧ size = (Utf8.front first rest).2 := by
  unfold shape at shaped
  split at shaped
  · cases shaped
  next blank =>
  split at shaped
  · cases shaped
  next newline =>
  split at shaped
  · cases shaped
  split at shaped
  · cases shaped
  next missing =>
  split at shaped
  · cases shaped
  split at shaped
  · cases shaped
  next word =>
  cases shaped
  refine ⟨⟨?_, ?_, ?_⟩, rfl⟩
  · exact (not_separates_iff first).mpr ⟨by simpa using blank, by simpa using newline⟩
  · rw [← isWord_eq]
    simpa using word
  · intro s known begins
    exact List.find?_eq_none.mp missing s known (List.isPrefixOf_iff_prefix.mpr begins)

theorem shape_of_invalid {first : UInt8} {rest : List UInt8} (strange : Invalid first rest) :
    shape first rest = .invalid (Utf8.front first rest).2 := by
  obtain ⟨blank, newline⟩ := (not_separates_iff first).mp strange.notSeparator
  have word : isWord first = false := by
    rw [isWord_eq]
    exact strange.notWord
  have missing : symbolAt? (first :: rest) = none := by
    apply List.find?_eq_none.mpr
    intro s known begins
    exact strange.notSymbol s known (List.isPrefixOf_iff_prefix.mp begins)
  simp only [shape, blank, newline, not_digit_of_plain word, missing, keywordAt?_plain word, word]
  rfl

end Shape

section Runs

theorem separates_ascii {b : UInt8} (separates : Separates b) : b.toNat < 128 := by
  simp only [← blank_iff, isBlank, isNewline, Bool.or_eq_true, beq_iff_eq, ← UInt8.toNat_inj,
    UInt8.reduceToNat] at separates
  omega

theorem symbol_ascii : ∀ s ∈ Symbol.all, ∀ b ∈ Utf8.encode s.spelling, b.toNat < 128 := by
  have checked : ∀ s ∈ Symbol.all,
      (Utf8.encode s.spelling).all (fun b => decide (b.toNat < 128)) = true := by decide
  simpa only [List.all_eq_true, decide_eq_true_eq] using checked

theorem invalid_of_high {b : UInt8} (high : 128 ≤ b.toNat) (rest : List UInt8) :
    Invalid b rest where
  notSeparator := fun separates => by
    have low := separates_ascii separates
    omega
  notWord := by
    rw [Bool.eq_false_iff]
    intro word
    have low := byte_ascii word
    omega
  notSymbol := fun s known begins => by
    obtain ⟨first, tail, spelled⟩ := List.exists_cons_of_length_pos (symbol_spelling_pos s known)
    have low := symbol_ascii s known first (by simp [spelled])
    rw [spelled, List.cons_prefix_cons] at begins
    rw [begins.1] at low
    omega

theorem lexeme_invalid_nil (rest : List UInt8) : Lexeme none [] rest :=
  .invalid (by simp)

theorem lexeme_invalid_cons {b : UInt8} {text rest : List UInt8} :
    Lexeme none (b :: text) rest ↔ Invalid b (text ++ rest) ∧ Lexeme none text rest := by
  constructor
  · intro invalid
    cases invalid with
    | invalid strange =>
      refine ⟨strange [] b text rfl, .invalid ?_⟩
      intro front c back split
      exact strange (b :: front) c back (by rw [split, List.cons_append])
  · rintro ⟨first, invalid⟩
    cases invalid with
    | invalid strange =>
      apply Lexeme.invalid
      intro front c back split
      cases front with
      | nil =>
        cases split
        exact first
      | cons d front => exact strange front c back (List.cons.inj split).2

theorem lexeme_invalid_high {high text rest : List UInt8} (beyond : ∀ b ∈ high, 128 ≤ b.toNat)
    (invalid : Lexeme none text rest) : Lexeme none (high ++ text) rest := by
  induction high with
  | nil => exact invalid
  | cons b high ih =>
    exact lexeme_invalid_cons.mpr
      ⟨invalid_of_high (beyond b (by simp)) _, ih fun c member => beyond c (by simp [member])⟩

/-- Nothing invalid stands at the front of a text. -/
def Settled (text : List UInt8) : Prop :=
  ∀ b rest, text = b :: rest → ¬Invalid b rest

theorem invalidRun_spec (text : List UInt8) :
    ∃ run rest, text = run ++ rest ∧ run.length = (invalidRun text).1 ∧ Lexeme none run rest ∧
      Settled rest := by
  fun_induction invalidRun text with
  | case1 => exact ⟨[], [], rfl, rfl, lexeme_invalid_nil [], by simp [Settled]⟩
  | case2 first rest size shaped bytes characters found ih =>
    obtain ⟨run, after, split, length, invalid, settled⟩ := ih
    obtain ⟨strange, rfl⟩ := invalid_of_shape shaped
    have positive := Utf8.front_size_pos first rest
    have bound := Utf8.front_size_le first rest
    have whole := List.take_append_drop ((Utf8.front first rest).2 - 1) rest
    have joined := lexeme_invalid_high (Utf8.front_tail_high first rest) invalid
    rw [split] at whole
    refine ⟨first :: (rest.take ((Utf8.front first rest).2 - 1) ++ run), after, ?_, ?_, ?_, settled⟩
    · rw [List.cons_append, List.append_assoc, whole]
    · simp only [found] at length
      simp only [List.length_cons, List.length_append, List.length_take, length]
      omega
    · refine lexeme_invalid_cons.mpr ⟨?_, joined⟩
      rw [List.append_assoc, whole]
      exact strange
  | case3 first rest refused =>
    refine ⟨[], first :: rest, rfl, rfl, lexeme_invalid_nil _, ?_⟩
    intro b tail split strange
    cases split
    exact refused _ (shape_of_invalid strange)

theorem invalid_run_unique {run rest other after : List UInt8} (same : run ++ rest = other ++ after)
    (invalid : Lexeme none run rest) (settled : Settled rest)
    (invalid' : Lexeme none other after) (settled' : Settled after) : run = other := by
  induction run generalizing other with
  | nil =>
    cases other with
    | nil => rfl
    | cons b other =>
      exact absurd (lexeme_invalid_cons.mp invalid').1 (settled b _ same)
  | cons b run ih =>
    cases other with
    | nil =>
      exact absurd (lexeme_invalid_cons.mp invalid).1 (settled' b _ same.symm)
    | cons c other =>
      rw [List.cons_append, List.cons_append, List.cons.injEq] at same
      rw [same.1, ih same.2 (lexeme_invalid_cons.mp invalid).2 (lexeme_invalid_cons.mp invalid').2]

/-- The lexer takes invalid characters together as far as they reach. -/
theorem invalidRun_append {run rest : List UInt8} (invalid : Lexeme none run rest)
    (settled : Settled rest) : (invalidRun (run ++ rest)).1 = run.length := by
  obtain ⟨other, after, same, length, invalid', settled'⟩ := invalidRun_spec (run ++ rest)
  rw [← length, invalid_run_unique same invalid settled invalid' settled']

end Runs

end DeltaLang.Lexer
