import DeltaLang.Proofs.Text.Hex
import DeltaLang.Proofs.Text.Utf8
import DeltaLang.Yaml.Scalar.Reader
import DeltaLang.Yaml.Scalar.Writer

namespace DeltaLang.Yaml

theorem Mark.advance_advance (m : Mark) (i j : Nat) :
    (m.advance i).advance j = m.advance (i + j) := by
  simp [Mark.advance, Nat.add_assoc]

theorem Mark.notFirst {m : Mark} (right : 0 < m.column) : (m.column == 0) = false := by
  simpa using Nat.ne_of_gt right

theorem isSpace_eq_false_iff {c : Char} :
    isSpace c = false ↔ isBlank c = false ∧ isBreak c = false := by
  rw [isSpace, Bool.or_eq_false_iff]

/-- What follows a scalar: the end of the text, or a line that begins with a token. -/
inductive NextLine : List Char → Nat → Prop
  | ended : NextLine [] 0
  | token {c : Char} {rest : List Char} {column : Nat} (visible : isSpace c = false)
      (noComment : c ≠ '#') : NextLine (c :: rest) column

namespace Scalar

/-- What the reader has passed over since the last character, and what the writer knows about it:
`afterSpace` says that a space comes before `text`. A line end stands for a single space, so no
other space follows it. -/
inductive Gapped : Bool → Gap → List Char → Prop
  | none {afterSpace : Bool} {text : List Char} : Gapped afterSpace .none text
  | blanks {run text : List Char} : Gapped true (.blanks run) text
  | folded {text : List Char} (alone : text.head? ≠ some ' ') :
      Gapped true (.lines (some '\n') []) text

theorem Gapped.gap_eq_none {gap : Gap} {text : List Char} (gapped : Gapped false gap text) :
    gap = .none := by
  cases gapped
  rfl

/-- One more space that is written as it is. -/
theorem Gapped.space {afterSpace : Bool} {gap : Gap} {rest : List Char}
    (gapped : Gapped afterSpace gap (' ' :: rest)) :
    Gapped true (gap.add ' ') rest ∧ (gap.add ' ').text = gap.text ++ [' '] := by
  cases gapped with
  | none => exact ⟨.blanks, rfl⟩
  | blanks => exact ⟨.blanks, rfl⟩
  | folded alone => exact absurd rfl alone

section Lines

variable {β : Type} {read : List Char → Mark → Gap → β}

theorem read_indentation
    (spaces : ∀ rest mark gap,
      read (' ' :: rest) mark gap = read rest (mark.advance 1) (gap.add ' '))
    (count : Nat) (rest : List Char) (mark : Mark) (first : Option Char) (more : List Char) :
    read (List.replicate count ' ' ++ rest) mark (.lines first more) =
      read rest (mark.advance count) (.lines first more) := by
  induction count generalizing mark with
  | zero => rfl
  | succ count ih =>
    rw [List.replicate_succ, List.cons_append, spaces]
    have same : (Gap.lines first more).add ' ' = .lines first more := rfl
    rw [same, ih, Mark.advance_advance, Nat.add_comm]

/-- Behind a new line the reader stands at its indentation, and knows of one line end. -/
theorem read_newLine
    (spaces : ∀ rest mark gap,
      read (' ' :: rest) mark gap = read rest (mark.advance 1) (gap.add ' '))
    (lines : ∀ rest mark,
      read ('\n' :: rest) mark .none = read rest mark.newline (Gap.none.add '\n'))
    (count : Nat) (rest : List Char) (mark : Mark) :
    read (newLine count ++ rest) mark .none =
      read rest (mark.newline.advance count) (.lines (some '\n') []) := by
  rw [newLine, List.cons_append, lines]
  exact read_indentation spaces count rest mark.newline (some '\n') []

end Lines

section Classes

/-- A text of characters that are written as they are, on one line. -/
def Visible (text : List Char) : Prop :=
  ∀ c ∈ text, isPlainlyWritten c = true ∧ isLineEnd c = false

theorem Visible.tail {c : Char} {rest : List Char} (visible : Visible (c :: rest)) : Visible rest :=
  fun d member => visible d (List.mem_cons_of_mem _ member)

theorem isSpace_of_visible {c : Char} {rest : List Char} (visible : Visible (c :: rest))
    (other : c ≠ ' ') : isSpace c = false := by
  obtain ⟨written, oneLine⟩ := visible c List.mem_cons_self
  have noTab : c ≠ '\t' := by
    rintro rfl
    exact absurd written (by decide)
  have noBreak : isBreak c = false := by
    simp only [isLineEnd, Bool.or_eq_false_iff] at oneLine
    exact oneLine.1.1
  simp [isSpace, isBlank, other, noTab, noBreak]

end Classes

section Plain

variable {indent : Nat}

theorem plain?_space (rest : List Char) (mark : Mark) (gap : Gap) :
    plain? false indent (' ' :: rest) mark gap =
      plain? false indent rest (mark.advance 1) (gap.add ' ') := by
  rw [plain?]
  rfl

theorem plain?_line (rest : List Char) (mark : Mark) :
    plain? false indent ('\n' :: rest) mark .none =
      plain? false indent rest mark.newline (Gap.none.add '\n') := by
  rw [plain?]
  rfl

theorem plain?_newLine (count : Nat) (rest : List Char) (mark : Mark) :
    plain? false indent (newLine count ++ rest) mark .none =
      plain? false indent rest (mark.newline.advance count) (.lines (some '\n') []) :=
  read_newLine plain?_space plain?_line count rest mark

theorem atSpace_plainLines {text : List Char} (visible : Visible text) (margin column : Nat)
    (afterSpace : Bool) (rest : List Char) :
    atSpace (plainLines margin column afterSpace text ++ '\n' :: rest) = atBlank text := by
  cases text with
  | nil => rfl
  | cons c others =>
    by_cases space : c = ' '
    · subst space
      simp only [plainLines, ↓reduceIte]
      split <;> rfl
    · have notSpace := isSpace_of_visible visible space
      have notBlank := (isSpace_eq_false_iff.mp notSpace).1
      simp [plainLines, space, atSpace, atBlank, notSpace, notBlank]

/-- The end of a plain scalar. -/
theorem plain?_end {place : Nat} {next : List Char} (follows : NextLine next place)
    (outside : place < indent) (mark : Mark) :
    ∃ r, plain? false indent (newLine place ++ next) mark .none = some r ∧ r.value = [] ∧
      r.rest = next ∧ r.mark.column = place ∧ r.leftLine = true := by
  have column : (mark.newline.advance place).column = place := Nat.zero_add place
  rw [plain?_newLine]
  cases follows with
  | ended => exact ⟨_, rfl, rfl, rfl, column, rfl⟩
  | @token c rest _ visible noComment =>
    have ends : endsPlain false indent (mark.newline.advance place).column
        (.lines (some '\n') []) c rest = true := by
      simp [endsPlain, column, outside]
    rw [plain?, visible, ends]
    exact ⟨_, rfl, rfl, rfl, column, rfl⟩

theorem endsPlain_inside {c : Char} {rest : List Char} {flag : Bool} {gap : Gap} {place : Nat}
    (positive : 0 < indent) (reached : indent ≤ place) (visible : Visible rest)
    (noColon : (c = ':' && atBlank rest) = false) (noComment : (c = '#' && flag) = false)
    (flagged : gap ≠ .none → flag = true) (margin column : Nat) (tail : List Char) :
    endsPlain false indent place gap c (plainLines margin column false rest ++ '\n' :: tail) =
      false := by
  have inside : ¬ place < indent := Nat.not_lt.mpr reached
  have right : place ≠ 0 := by omega
  rw [endsPlain, atSpace_plainLines visible, noColon]
  by_cases apart : gap = .none
  · simp [apart]
  · rw [flagged apart, Bool.and_true] at noComment
    simp [inside, right, noComment]

/-- A plain scalar is read up to the next line. The induction follows the writer, and `gap` is what
the reader has passed over so far. -/
theorem plain?_plainLines {margin place : Nat} {next : List Char} (positive : 0 < indent)
    (inside : indent ≤ margin) (follows : NextLine next place) (outside : place < indent)
    {text : List Char} (visible : Visible text) (column : Nat) {afterSpace flag : Bool} {gap : Gap}
    {mark : Mark} (gapped : Gapped afterSpace gap text)
    (noIndicator : hasInnerIndicator flag text = false) (flagged : gap ≠ .none → flag = true)
    (complete : text = [] → gap = .none) (last : text.getLast? ≠ some ' ')
    (reached : indent ≤ mark.column) :
    ∃ r, plain? false indent (plainLines margin column afterSpace text ++ (newLine place ++ next))
        mark gap = some r ∧ r.value = gap.text ++ text ∧ r.rest = next ∧ r.mark.column = place ∧
        r.leftLine = true := by
  induction text generalizing column afterSpace flag gap mark with
  | nil =>
    obtain rfl := complete rfl
    exact plain?_end follows outside mark
  | cons c rest ih =>
    have visibleRest := visible.tail
    simp only [hasInnerIndicator, Bool.or_eq_false_iff] at noIndicator
    obtain ⟨⟨noColon, noComment⟩, noIndicatorRest⟩ := noIndicator
    by_cases space : c = ' '
    · subst space
      have filled : rest ≠ [] := by
        rintro rfl
        exact last rfl
      have lastRest : rest.getLast? ≠ some ' ' := by
        rwa [List.getLast?_cons_of_ne_nil filled] at last
      simp only [plainLines, ↓reduceIte]
      split
      · next folds =>
        simp only [Bool.and_eq_true, Bool.not_eq_true', decide_eq_true_eq, bne_iff_ne] at folds
        obtain ⟨⟨notAfter, -⟩, alone⟩ := folds
        subst notAfter
        -- a line ends only behind a word, so nothing has been passed over before it
        obtain rfl := gapped.gap_eq_none
        rw [List.append_assoc, plain?_newLine]
        have deep : indent ≤ (mark.newline.advance margin).column := by
          simpa [Mark.newline, Mark.advance] using inside
        exact ih visibleRest margin (.folded alone) noIndicatorRest (fun _ => rfl)
          (fun empty => absurd empty filled) lastRest deep
      · obtain ⟨gapped', text'⟩ := gapped.space
        rw [List.cons_append, plain?_space]
        have deep : indent ≤ (mark.advance 1).column := Nat.le_succ_of_le reached
        obtain ⟨r, read, value, others⟩ := ih visibleRest (column + 1) gapped' noIndicatorRest
          (fun _ => rfl) (fun empty => absurd empty filled) lastRest deep
        refine ⟨r, read, ?_, others⟩
        rw [value, text', List.append_assoc, List.singleton_append]
    · have notSpace := isSpace_of_visible visible space
      have lastRest : rest.getLast? ≠ some ' ' := by
        cases rest with
        | nil => simp
        | cons d others => rwa [List.getLast?_cons_cons] at last
      have deep : indent ≤ (mark.advance 1).column := Nat.le_succ_of_le reached
      obtain ⟨r, read, value, others⟩ := ih visibleRest (column + 1) (@Gapped.none false rest)
        noIndicatorRest (fun contrary => absurd rfl contrary) (fun _ => rfl) lastRest deep
      have goesOn := endsPlain_inside positive reached visibleRest noColon noComment flagged margin
        (column + 1) (List.replicate place ' ' ++ next)
      refine ⟨r.prependAfter gap mark [c], ?_, ?_, others⟩
      · rw [plainLines, if_neg space, List.cons_append, plain?, notSpace, newLine, List.cons_append,
          goesOn, ← List.cons_append, ← newLine, read]
        rfl
      · simp [Scanned.prependAfter, value, Gap.text]

/-- A plain scalar ends before a `:` that a space follows. -/
theorem plain?_word {word tail : List Char} (solid : ∀ c ∈ word, isSpace c = false ∧ c ≠ ':')
    (ends : atSpace tail = true) (mark : Mark) :
    ∃ r, plain? false indent (word ++ ':' :: tail) mark .none = some r ∧ r.value = word ∧
      r.rest = ':' :: tail ∧ r.mark = mark.advance word.length ∧ r.leftLine = false := by
  induction word generalizing mark with
  | nil =>
    have stops : endsPlain false indent mark.column .none ':' tail = true := by
      simp [endsPlain, ends]
    have visible : isSpace ':' = false := rfl
    rw [List.nil_append, plain?, visible, stops]
    exact ⟨_, rfl, rfl, rfl, rfl, rfl⟩
  | cons c rest ih =>
    obtain ⟨visible, noColon⟩ := solid c List.mem_cons_self
    obtain ⟨r, read, value, others, place, sameLine⟩ :=
      ih (fun d member => solid d (List.mem_cons_of_mem _ member)) (mark.advance 1)
    have goesOn : endsPlain false indent mark.column .none c (rest ++ ':' :: tail) = false := by
      simp [endsPlain, noColon]
    refine ⟨r.prependAfter .none mark [c], ?_, ?_, others, ?_, sameLine⟩
    · rw [List.cons_append, plain?, visible, goesOn, read]
      rfl
    · simp [Scanned.prependAfter, value, Gap.text]
    · rw [List.length_cons, Nat.add_comm, ← Mark.advance_advance]
      exact place

end Plain

/-- A reader comes to the end of a quoted scalar, and goes on behind it on the same line. -/
def Gives (result : Option Scanned) (value rest : List Char) : Prop :=
  ∃ r, result = some r ∧ r.value = value ∧ r.rest = rest ∧ r.leftLine = false

section Gives

variable {result : Option Scanned} {value rest : List Char}

theorem Gives.prependAfter (gives : Gives result value rest) (gap : Gap) (mark : Mark)
    (before : List Char) :
    Gives (result.map (·.prependAfter gap mark before)) (gap.text ++ before ++ value) rest := by
  obtain ⟨r, rfl, rfl, rfl, sameLine⟩ := gives
  exact ⟨_, rfl, rfl, rfl, sameLine⟩

theorem Gives.prepend (gives : Gives result value rest) (before : List Char) :
    Gives (result.map (·.prepend before)) (before ++ value) rest := by
  obtain ⟨r, rfl, rfl, rfl, sameLine⟩ := gives
  exact ⟨_, rfl, rfl, rfl, sameLine⟩

end Gives

section SingleQuoted

theorem singleQuoted?_space (rest : List Char) (mark : Mark) (gap : Gap) :
    singleQuoted? (' ' :: rest) mark gap = singleQuoted? rest (mark.advance 1) (gap.add ' ') := by
  rw [singleQuoted?.eq_def]
  rfl

theorem singleQuoted?_line (rest : List Char) (mark : Mark) :
    singleQuoted? ('\n' :: rest) mark .none =
      singleQuoted? rest mark.newline (Gap.none.add '\n') := by
  rw [singleQuoted?.eq_def]
  rfl

theorem singleQuoted?_newLine (count : Nat) (rest : List Char) (mark : Mark) :
    singleQuoted? (newLine count ++ rest) mark .none =
      singleQuoted? rest (mark.newline.advance count) (.lines (some '\n') []) :=
  read_newLine singleQuoted?_space singleQuoted?_line count rest mark

theorem singleQuoted?_close {mark : Mark} (right : 0 < mark.column) {tail : List Char}
    (apart : tail.head? ≠ some '\'') (gap : Gap) :
    Gives (singleQuoted? ('\'' :: tail) mark gap) gap.text tail := by
  have visible : isSpace '\'' = false := rfl
  rw [singleQuoted?.eq_def]
  simp only [visible, Mark.notFirst right, Bool.false_and, Bool.false_eq_true, ↓reduceIte]
  split
  · exact absurd rfl apart
  · exact ⟨_, rfl, rfl, rfl, rfl⟩

/-- What stands for one character between single quotes. -/
theorem singleQuoted?_word {c : Char} (visible : isSpace c = false) {mark : Mark}
    (right : 0 < mark.column) (gap : Gap) (rest : List Char) :
    singleQuoted? ((if c = '\'' then ['\'', '\''] else [c]) ++ rest) mark gap =
      (singleQuoted? rest (mark.advance (if c = '\'' then ['\'', '\''] else [c]).length) .none).map
        (·.prependAfter gap mark [c]) := by
  by_cases quote : c = '\''
  · subst quote
    rw [if_pos rfl]
    simp only [List.cons_append, List.nil_append]
    rw [singleQuoted?.eq_def]
    simp only [visible, Mark.notFirst right, Bool.false_and, Bool.false_eq_true, ↓reduceIte]
    rfl
  · rw [if_neg quote, List.cons_append, List.nil_append, singleQuoted?.eq_def]
    simp [visible, Mark.notFirst right, quote]

theorem singleQuoted?_singleLines {margin : Nat} (positive : 0 < margin) {tail : List Char}
    (apart : tail.head? ≠ some '\'') {text : List Char} (visible : Visible text) (column : Nat)
    (isFirst : Bool) {afterSpace : Bool} {gap : Gap} {mark : Mark}
    (gapped : Gapped afterSpace gap text) (right : 0 < mark.column) :
    Gives (singleQuoted? (singleLines margin column isFirst afterSpace false text ++ '\'' :: tail)
      mark gap) (gap.text ++ text) tail := by
  induction text generalizing column isFirst afterSpace gap mark with
  | nil =>
    rw [List.append_nil]
    exact singleQuoted?_close right apart gap
  | cons c rest ih =>
    have visibleRest := visible.tail
    by_cases space : c = ' '
    · subst space
      simp only [singleLines, ↓reduceIte]
      split
      · next folds =>
        simp only [Bool.and_eq_true, Bool.not_eq_true', decide_eq_true_eq, bne_iff_ne] at folds
        obtain ⟨⟨⟨⟨notAfter, -⟩, -⟩, -⟩, alone⟩ := folds
        subst notAfter
        obtain rfl := gapped.gap_eq_none
        rw [List.append_assoc, singleQuoted?_newLine]
        have deep : 0 < (mark.newline.advance margin).column := by
          simpa [Mark.newline, Mark.advance] using positive
        exact ih visibleRest margin false (.folded alone) deep
      · obtain ⟨gapped', text'⟩ := gapped.space
        rw [List.cons_append, singleQuoted?_space]
        have later := ih visibleRest (column + 1) false gapped'
          (show 0 < (mark.advance 1).column from Nat.succ_pos _)
        rwa [text', List.append_assoc, List.singleton_append] at later
    · have notSpace := isSpace_of_visible visible space
      have notBreak := (isSpace_eq_false_iff.mp notSpace).2
      simp only [singleLines, space, notBreak, Bool.false_eq_true, ↓reduceIte, List.replicate_zero,
        List.nil_append, List.append_assoc]
      rw [singleQuoted?_word notSpace right]
      have deep : 0 < (mark.advance (if c = '\'' then ['\'', '\''] else [c]).length).column := by
        simp only [Mark.advance]
        omega
      have later := ih visibleRest
        (column + 0 + (if c = '\'' then ['\'', '\''] else [c]).length) false
        (@Gapped.none false rest) deep
      simpa [Gap.text] using later.prependAfter gap mark [c]

end SingleQuoted

section DoubleQuoted

theorem doubleQuoted?_space (rest : List Char) (mark : Mark) (gap : Gap) :
    doubleQuoted? (' ' :: rest) mark (.text gap) =
      doubleQuoted? rest (mark.advance 1) (.text (gap.add ' ')) := by
  rw [doubleQuoted?.eq_def]
  rfl

theorem doubleQuoted?_line (rest : List Char) (mark : Mark) :
    doubleQuoted? ('\n' :: rest) mark (.text .none) =
      doubleQuoted? rest mark.newline (.text (Gap.none.add '\n')) := by
  rw [doubleQuoted?.eq_def]
  rfl

theorem doubleQuoted?_newLine (count : Nat) (rest : List Char) (mark : Mark) :
    doubleQuoted? (newLine count ++ rest) mark (.text .none) =
      doubleQuoted? rest (mark.newline.advance count) (.text (.lines (some '\n') [])) :=
  @read_newLine _ (fun text mark gap => doubleQuoted? text mark (.text gap)) doubleQuoted?_space
    doubleQuoted?_line count rest mark

theorem doubleQuoted?_close {mark : Mark} (right : 0 < mark.column) (tail : List Char) (gap : Gap) :
    Gives (doubleQuoted? ('"' :: tail) mark (.text gap)) gap.text tail := by
  have visible : isSpace '"' = false := rfl
  rw [doubleQuoted?.eq_def]
  simp only [visible, Mark.notFirst right, Bool.false_and, Bool.false_eq_true, ↓reduceIte]
  exact ⟨_, rfl, rfl, rfl, rfl⟩

theorem doubleQuoted?_backslash {mark : Mark} (right : 0 < mark.column) (rest : List Char)
    (gap : Gap) :
    doubleQuoted? ('\\' :: rest) mark (.text gap) =
      (doubleQuoted? rest (mark.advance 1) .escape).map (·.prependAfter gap mark []) := by
  have visible : isSpace '\\' = false := rfl
  rw [doubleQuoted?.eq_def]
  simp only [visible, Mark.notFirst right, Bool.false_and, Bool.false_eq_true, ↓reduceIte]
  rfl

theorem doubleQuoted?_char {c : Char} (visible : isSpace c = false) (noQuote : c ≠ '"')
    (noEscape : c ≠ '\\') {mark : Mark} (right : 0 < mark.column) (rest : List Char) (gap : Gap) :
    doubleQuoted? (c :: rest) mark (.text gap) =
      (doubleQuoted? rest (mark.advance 1) (.text .none)).map (·.prependAfter gap mark [c]) := by
  rw [doubleQuoted?.eq_def]
  simp [visible, Mark.notFirst right, noQuote, noEscape]

/-- Every letter that is written behind a backslash is read back. -/
theorem escape?_letter {c letter : Char} (written : escapeLetter? c = some letter) :
    isBreak letter = false ∧ escape? letter = some (.char c) := by
  unfold escapeLetter? at written
  split at written <;> cases written <;> exact ⟨rfl, rfl⟩

theorem doubleQuoted?_letter {letter e : Char} (noBreak : isBreak letter = false)
    (escapes : escape? letter = some (.char e)) (rest : List Char) (mark : Mark) :
    doubleQuoted? (letter :: rest) mark .escape =
      (doubleQuoted? rest (mark.advance 1) (.text .none)).map (·.prepend [e]) := by
  rw [doubleQuoted?.eq_def]
  simp [noBreak, escapes]

theorem character?_toNat (c : Char) : character? c.toNat = some c := by
  rw [character?, if_pos (Utf8.toNat_range c), Char.ofNat_toNat]

/-- The digits of a code point add up to it. -/
theorem doubleQuoted?_digits {digits : List Nat} (small : ∀ d ∈ digits, d < 16) {left value : Nat}
    (count : digits.length = left + 1) {c : Char}
    (total : digits.foldl (fun value d => value * 16 + d) value = c.toNat) (rest : List Char)
    (mark : Mark) :
    doubleQuoted? (digits.map (fun d => (Nat.digitChar d).toUpper) ++ rest) mark
        (.code left value) =
      (doubleQuoted? rest (mark.advance (left + 1)) (.text .none)).map (·.prepend [c]) := by
  induction digits generalizing left value mark with
  | nil => cases count
  | cons d others ih =>
    have digit := Hex.digit?_toUpper d (small d List.mem_cons_self)
    have smallOthers : ∀ d ∈ others, d < 16 := fun d member =>
      small d (List.mem_cons_of_mem _ member)
    rw [List.map_cons, List.cons_append, doubleQuoted?.eq_def]
    simp only [digit]
    cases left with
    | zero =>
      obtain rfl : others = [] := by simpa using count
      have code : value * 16 + d = c.toNat := total
      simp [code, character?_toNat]
    | succ left =>
      have countOthers : others.length = left + 1 := by simpa using count
      simp only
      rw [ih smallOthers countOthers total, Mark.advance_advance, Nat.add_comm 1]

theorem doubleQuoted?_code {letter c : Char} {width : Nat} (noBreak : isBreak letter = false)
    (escapes : escape? letter = some (.code (width + 1))) (small : c.toNat < 16 ^ (width + 1))
    (rest : List Char) (mark : Mark) :
    doubleQuoted? (letter :: (Hex.pad (width + 1) (Hex.upperDigits c.toNat) ++ rest)) mark .escape =
      (doubleQuoted? rest (mark.advance (width + 2)) (.text .none)).map (·.prepend [c]) := by
  have begins : doubleQuoted? (letter :: (Hex.pad (width + 1) (Hex.upperDigits c.toNat) ++ rest))
      mark .escape = doubleQuoted? (Hex.pad (width + 1) (Hex.upperDigits c.toNat) ++ rest)
        (mark.advance 1) (.code width 0) := by
    rw [doubleQuoted?.eq_def]
    simp [noBreak, escapes]
  rw [begins, Hex.pad_upperDigits small]
  have digits := doubleQuoted?_digits (Hex.places_lt (width + 1) c.toNat)
    (Hex.length_places (width + 1) c.toNat) (Hex.foldl_places small) rest (mark.advance 1)
  rwa [Mark.advance_advance, Nat.add_comm 1] at digits

/-- An escaped character is read back, whatever it is. -/
theorem doubleQuoted?_escapeText (c : Char) {rest value tail : List Char} {mark : Mark}
    (right : 0 < mark.column)
    (later : ∀ mark : Mark, 0 < mark.column →
      Gives (doubleQuoted? rest mark (.text .none)) value tail) (gap : Gap) :
    Gives (doubleQuoted? (escapeText c ++ rest) mark (.text gap)) (gap.text ++ c :: value)
      tail := by
  have range := Utf8.toNat_range c
  have finish (count : Nat) :
      Gives (((doubleQuoted? rest ((mark.advance 1).advance (count + 1)) (.text .none)).map
        (·.prepend [c])).map (·.prependAfter gap mark [])) (gap.text ++ c :: value) tail := by
    have deep : 0 < ((mark.advance 1).advance (count + 1)).column := Nat.succ_pos _
    simpa using ((later _ deep).prepend [c]).prependAfter gap mark []
  unfold escapeText
  split
  · next letter written =>
    obtain ⟨noBreak, escapes⟩ := escape?_letter written
    rw [List.cons_append, doubleQuoted?_backslash right, List.cons_append,
      doubleQuoted?_letter noBreak escapes]
    exact finish 0
  · simp only
    split
    · next small =>
      rw [List.cons_append, doubleQuoted?_backslash right, List.cons_append,
        @doubleQuoted?_code 'x' c 1 rfl rfl (by omega)]
      exact finish 2
    · split
      · next small =>
        rw [List.cons_append, doubleQuoted?_backslash right, List.cons_append,
          @doubleQuoted?_code 'u' c 3 rfl rfl (by omega)]
        exact finish 4
      · rw [List.cons_append, doubleQuoted?_backslash right, List.cons_append,
          @doubleQuoted?_code 'U' c 7 rfl rfl (by omega)]
        exact finish 8

/-- Where the reader stands between double quotes, what it has passed over since the last character,
and what the writer knows about it. Where a line end stands for the first of several spaces, the
writer escapes the second. -/
inductive Resumes : Bool → Quoting → List Char → List Char → Prop
  | text {afterSpace : Bool} {gap : Gap} {text : List Char} (gapped : Gapped afterSpace gap text) :
      Resumes afterSpace (.text gap) gap.text text
  | escape {rest : List Char} : Resumes true .escape [] (' ' :: rest)

theorem isEscaped_space : isEscaped ' ' = false := by
  decide

theorem isSpace_of_isEscaped {c : Char} (written : isEscaped c = false) (other : c ≠ ' ') :
    isSpace c = false ∧ c ≠ '"' ∧ c ≠ '\\' := by
  simp only [isEscaped, Bool.or_eq_false_iff, Bool.not_eq_false', decide_eq_false_iff_not]
    at written
  obtain ⟨⟨⟨plain, oneLine⟩, noQuote⟩, noEscape⟩ := written
  have visible : Visible [c] := by simp [Visible, plain, oneLine]
  exact ⟨isSpace_of_visible visible other, noQuote, noEscape⟩

theorem doubleQuoted?_doubleLines {margin : Nat} (positive : 0 < margin) (tail : List Char)
    {text passed : List Char} (column : Nat) (isFirst : Bool) {afterSpace : Bool} {place : Quoting}
    {mark : Mark} (resumes : Resumes afterSpace place passed text) (right : 0 < mark.column) :
    Gives (doubleQuoted? (doubleLines margin column isFirst afterSpace text ++ '"' :: tail) mark
      place) (passed ++ text) tail := by
  induction text generalizing passed column isFirst afterSpace place mark with
  | nil =>
    cases resumes with
    | @text _ gap _ _ =>
      rw [List.append_nil]
      exact doubleQuoted?_close right tail gap
  | cons c rest ih =>
    have next : 0 < (mark.advance 1).column := Nat.succ_pos _
    cases resumes with
    | escape =>
      simp only [doubleLines, isEscaped_space, Bool.not_true, Bool.false_and, Bool.false_eq_true,
        ↓reduceIte, List.cons_append]
      rw [@doubleQuoted?_letter ' ' ' ' rfl rfl]
      exact (ih (column + 1) false (.text .none) next).prepend [' ']
    | @text _ gap _ gapped =>
      by_cases escaped : isEscaped c = true
      · rw [doubleLines, if_pos escaped, List.append_assoc]
        exact doubleQuoted?_escapeText c right
          (fun mark right => ih _ false (.text (@Gapped.none false rest)) right) gap
      · rw [Bool.not_eq_true] at escaped
        by_cases space : c = ' '
        · subst space
          simp only [doubleLines, isEscaped_space, Bool.false_eq_true, ↓reduceIte]
          split
          · next folds =>
            simp only [Bool.and_eq_true, Bool.not_eq_true', decide_eq_true_eq] at folds
            obtain ⟨⟨⟨notAfter, -⟩, -⟩, -⟩ := folds
            subst notAfter
            obtain rfl := gapped.gap_eq_none
            have deep : 0 < (mark.newline.advance margin).column := by
              simpa [Mark.newline, Mark.advance] using positive
            rw [List.append_assoc, List.append_assoc, doubleQuoted?_newLine]
            split
            · -- the second of several spaces is escaped, or it would count as indentation
              next spaces =>
              rw [beq_iff_eq] at spaces
              obtain ⟨others, rfl⟩ : ∃ others, rest = ' ' :: others := by
                cases rest with
                | nil => cases spaces
                | cons d others =>
                  cases spaces
                  exact ⟨others, rfl⟩
              rw [List.cons_append, List.nil_append, doubleQuoted?_backslash deep]
              have later := ih (margin + 1) false .escape
                (show 0 < ((mark.newline.advance margin).advance 1).column from Nat.succ_pos _)
              exact later.prependAfter (.lines (some '\n') []) _ []
            · next spaces =>
              have alone : rest.head? ≠ some ' ' := by simpa using spaces
              exact ih margin false (.text (.folded alone)) deep
          · obtain ⟨gapped', text'⟩ := gapped.space
            rw [List.cons_append, doubleQuoted?_space]
            have later := ih (column + 1) false (.text gapped') next
            rwa [text', List.append_assoc, List.singleton_append] at later
        · obtain ⟨visible, noQuote, noEscape⟩ := isSpace_of_isEscaped escaped space
          rw [doubleLines, escaped]
          simp only [space, Bool.false_eq_true, ↓reduceIte, List.cons_append]
          rw [doubleQuoted?_char visible noQuote noEscape right]
          have later := ih (column + 1) false (.text (@Gapped.none false rest)) next
          simpa [Gap.text] using later.prependAfter gap mark [c]

theorem doubleQuoted?_doubleBody {margin : Nat} (positive : 0 < margin) (column : Nat)
    (text tail : List Char) {mark : Mark} (right : 0 < mark.column) :
    Gives (doubleQuoted? (doubleBody margin column text ++ '"' :: tail) mark (.text .none)) text
      tail := by
  unfold doubleBody
  split
  · clear * - right
    induction text generalizing mark with
    | nil => exact doubleQuoted?_close right tail .none
    | cons c rest ih =>
      rw [List.flatMap_cons, List.append_assoc]
      exact doubleQuoted?_escapeText c right (fun _ right => ih right) .none
  · exact doubleQuoted?_doubleLines positive tail column true (.text .none) right

end DoubleQuoted

section Written

/-- What is written can be read as input: no character of it needs an escape. -/
def Printed (text : List Char) : Prop :=
  ∀ c ∈ text, isPlainlyWritten c = true

@[simp] theorem printed_nil : Printed [] := by
  simp [Printed]

@[simp] theorem printed_cons {c : Char} {rest : List Char} :
    Printed (c :: rest) ↔ isPlainlyWritten c = true ∧ Printed rest := by
  simp [Printed]

@[simp] theorem printed_append {first second : List Char} :
    Printed (first ++ second) ↔ Printed first ∧ Printed second := by
  simp only [Printed, List.forall_mem_append]

@[simp] theorem printed_replicate (count : Nat) : Printed (List.replicate count ' ') := by
  intro c member
  rw [List.eq_of_mem_replicate member]
  decide

@[simp] theorem printed_newLine (count : Nat) : Printed (newLine count) := by
  rw [newLine, printed_cons]
  exact ⟨by decide, printed_replicate count⟩

theorem Visible.printed {text : List Char} (visible : Visible text) : Printed text :=
  fun c member => (visible c member).1

theorem Printed.allowed {text : List Char} (printed : Printed text) :
    ∀ c ∈ text, isAllowed c = true := by
  intro c member
  have written := printed c member
  simp only [isPlainlyWritten, Bool.or_eq_true, Bool.and_eq_true, decide_eq_true_eq] at written
  rcases written with (rfl | ⟨low, high⟩) | ⟨⟨low, high⟩, -⟩
  · decide
  · simp [isAllowed, low, high]
  · simp [isAllowed, low, high]

theorem Printed.common {text : List Char} (printed : Printed text) :
    ∀ c ∈ text, c ≠ '\r' ∧ c ≠ '\u0085' := by
  intro c member
  have written := printed c member
  constructor <;> (rintro rfl; exact absurd written (by decide))

theorem printed_plainLines {text : List Char} (printed : Printed text) (margin column : Nat)
    (afterSpace : Bool) : Printed (plainLines margin column afterSpace text) := by
  fun_induction plainLines margin column afterSpace text with
  | case1 => exact printed_nil
  | case2 _ _ rest _ ih =>
    exact printed_append.mpr ⟨printed_newLine _, ih (printed_cons.mp printed).2⟩
  | case3 _ _ rest _ ih =>
    obtain ⟨here, others⟩ := printed_cons.mp printed
    exact printed_cons.mpr ⟨here, ih others⟩
  | case4 _ _ c rest _ ih =>
    obtain ⟨here, others⟩ := printed_cons.mp printed
    exact printed_cons.mpr ⟨here, ih others⟩

theorem printed_singleLines {text : List Char} (printed : Printed text) (margin column : Nat)
    (isFirst afterSpace afterBreak : Bool) :
    Printed (singleLines margin column isFirst afterSpace afterBreak text) := by
  fun_induction singleLines margin column isFirst afterSpace afterBreak text with
  | case1 => exact printed_nil
  | case2 _ _ _ _ rest _ ih =>
    exact printed_append.mpr ⟨printed_newLine _, ih (printed_cons.mp printed).2⟩
  | case3 _ _ _ _ rest _ ih =>
    obtain ⟨here, others⟩ := printed_cons.mp printed
    exact printed_cons.mpr ⟨here, ih others⟩
  | case4 _ _ _ _ c rest _ _ ih =>
    obtain ⟨here, others⟩ := printed_cons.mp printed
    exact printed_cons.mpr ⟨here, ih others⟩
  | case5 _ _ _ _ c rest _ _ indentation word ih =>
    obtain ⟨here, others⟩ := printed_cons.mp printed
    have wordPrinted : Printed word := by
      by_cases quote : c = '\''
      · simp [word, quote, show isPlainlyWritten '\'' = true by decide]
      · simp [word, quote, here]
    exact printed_append.mpr
      ⟨printed_append.mpr ⟨printed_replicate _, wordPrinted⟩, ih others⟩

theorem isPlainlyWritten_digit : ∀ d < 16, isPlainlyWritten (Nat.digitChar d).toUpper = true := by
  decide

theorem printed_pad {width n : Nat} (small : n < 16 ^ (width + 1)) :
    Printed (Hex.pad (width + 1) (Hex.upperDigits n)) := by
  intro c member
  rw [Hex.pad_upperDigits small] at member
  obtain ⟨d, inside, rfl⟩ := List.mem_map.mp member
  exact isPlainlyWritten_digit d (Hex.places_lt _ _ d inside)

theorem printed_escapeText (c : Char) : Printed (escapeText c) := by
  have range := Utf8.toNat_range c
  have backslash : isPlainlyWritten '\\' = true := by decide
  unfold escapeText
  split
  · next letter written =>
    have plain : isPlainlyWritten letter = true := by
      unfold escapeLetter? at written
      split at written <;> cases written <;> decide
    simp [backslash, plain]
  · simp only
    split
    · exact printed_cons.mpr ⟨backslash, printed_cons.mpr ⟨by decide, printed_pad (by omega)⟩⟩
    · split
      · exact printed_cons.mpr ⟨backslash, printed_cons.mpr ⟨by decide, printed_pad (by omega)⟩⟩
      · exact printed_cons.mpr ⟨backslash, printed_cons.mpr ⟨by decide, printed_pad (by omega)⟩⟩

theorem printed_doubleLines (text : List Char) (margin column : Nat) (isFirst afterSpace : Bool) :
    Printed (doubleLines margin column isFirst afterSpace text) := by
  fun_induction doubleLines margin column isFirst afterSpace text with
  | case1 => exact printed_nil
  | case2 _ _ _ c rest _ ih => exact printed_append.mpr ⟨printed_escapeText c, ih⟩
  | case3 _ _ _ rest _ mark _ ih =>
    have markPrinted : Printed mark := by
      simp only [mark]
      split
      · exact printed_cons.mpr ⟨by decide, printed_nil⟩
      · exact printed_nil
    exact printed_append.mpr ⟨printed_append.mpr ⟨printed_newLine _, markPrinted⟩, ih⟩
  | case4 _ _ _ rest _ _ ih => exact printed_cons.mpr ⟨by decide, ih⟩
  | case5 _ _ _ c rest escaped _ ih =>
    have plain : isPlainlyWritten c = true := by
      simp only [isEscaped, Bool.or_eq_true, not_or, Bool.not_eq_true, Bool.not_eq_false']
        at escaped
      exact escaped.1.1.1
    exact printed_cons.mpr ⟨plain, ih⟩

theorem printed_doubleBody (text : List Char) (margin column : Nat) :
    Printed (doubleBody margin column text) := by
  unfold doubleBody
  split
  · intro c member
    obtain ⟨d, -, inside⟩ := List.mem_flatMap.mp member
    exact printed_escapeText d c inside
  · exact printed_doubleLines text margin column true false

def OneLine (text : String) : Prop :=
  ∀ c ∈ text.toList, isLineEnd c = false

/-- What is known of `c :: rest` where it is written without quotes. -/
structure Plain (c : Char) (rest : List Char) : Prop where
  visible : Visible (c :: rest)
  notSpace : isSpace c = false
  noFirst : hasFirstIndicator (c :: rest) = false
  noInner : hasInnerIndicator true (c :: rest) = false
  last : (c :: rest).getLast? ≠ some ' '

theorem Plain.lines {c : Char} {rest : List Char} (fits : Plain c rest) (margin column : Nat) :
    plainLines margin column false (c :: rest) =
      c :: plainLines margin (column + 1) false rest := by
  have notBlank : c ≠ ' ' := by
    rintro rfl
    exact absurd fits.notSpace (by decide)
  rw [plainLines, if_neg notBlank]

/-- The styles of a text without line ends. -/
inductive Styled (text : String) : Style → Prop
  | plain {c : Char} {rest : List Char} (isText : kindOf text = .text)
      (shape : text.toList = c :: rest) (fits : Plain c rest) : Styled text .plain
  | singleQuoted (visible : Visible text.toList) : Styled text .singleQuoted
  | doubleQuoted : Styled text .doubleQuoted

theorem Plain.of_fitsPlain {c : Char} {rest : List Char} (fits : fitsPlain (c :: rest) = true) :
    Plain c rest := by
  simp only [fitsPlain, fitsSingleQuotes, Bool.and_eq_true, Bool.not_eq_true', List.all_eq_true,
    List.any_eq_false, Bool.not_eq_true] at fits
  obtain ⟨⟨⟨⟨⟨⟨⟨written, -⟩, -⟩, oneLine⟩, first⟩, last⟩, noFirst⟩, noInner⟩ := fits
  have visible : Visible (c :: rest) := fun d member => ⟨written d member, oneLine d member⟩
  have notBlank : c ≠ ' ' := by
    rintro rfl
    exact absurd first (by simp [beginsWithSpace])
  refine ⟨visible, isSpace_of_visible visible notBlank, noFirst, noInner, ?_⟩
  intro contrary
  rw [beginsWithSpace, List.head?_reverse, contrary] at last
  exact absurd last (by decide)

theorem styled {text : String} (oneLine : OneLine text) : Styled text (style text) := by
  have noBreak : text.toList.contains '\n' = false := by
    rw [← Bool.not_eq_true, List.contains_iff_mem]
    intro member
    exact absurd (oneLine _ member) (by decide)
  unfold style
  simp only [noBreak, Bool.false_eq_true, ↓reduceIte]
  split
  · exact .doubleQuoted
  · next reads =>
    split
    · next fits =>
      have isText : kindOf text = .text := by
        simp only [Bool.or_eq_true, not_or, Bool.not_eq_true', Bool.not_eq_false] at reads
        simpa [readsAsText] using reads.1
      cases shape : text.toList with
      | nil =>
        obtain rfl : text = "" := String.toList_eq_nil_iff.mp shape
        exact absurd isText (by decide)
      | cons c rest =>
        rw [shape] at fits
        exact .plain isText shape (.of_fitsPlain fits)
    · split
      · next fits =>
        simp only [fitsSingleQuotes, Bool.and_eq_true, List.all_eq_true] at fits
        exact .singleQuoted fun c member => ⟨fits.1.1 c member, oneLine c member⟩
      · exact .doubleQuoted

theorem printed_write {text : String} (oneLine : OneLine text) (margin column : Nat) :
    Printed (write margin column text) := by
  have lineEnd : isPlainlyWritten '\n' = true := by decide
  have quote : isPlainlyWritten '\'' = true := by decide
  have doubleQuote : isPlainlyWritten '"' = true := by decide
  have styled := styled oneLine
  unfold write
  generalize style text = style at styled
  cases styled with
  | plain _ shape fits =>
    have lines := printed_plainLines fits.visible.printed margin column false
    simp only [shape, printed_append, printed_cons, printed_nil, lines, lineEnd, and_self]
  | singleQuoted visible =>
    have lines := printed_singleLines visible.printed margin (column + 1) true false false
    simp only [printed_append, printed_cons, printed_nil, lines, lineEnd, quote, and_self]
  | doubleQuoted =>
    have lines := printed_doubleBody text.toList margin (column + 1)
    simp only [printed_append, printed_cons, printed_nil, lines, lineEnd, doubleQuote, and_self]

/-- A written scalar begins like a token. -/
theorem write_next {text : String} (oneLine : OneLine text) (margin column place : Nat)
    (rest : List Char) : NextLine (write margin column text ++ rest) place := by
  have styled := styled oneLine
  unfold write
  generalize style text = style at styled
  cases styled with
  | @plain c others _ shape fits =>
    have noComment : c ≠ '#' := by
      rintro rfl
      exact absurd fits.noFirst (by simp [hasFirstIndicator])
    simp only [shape, fits.lines]
    exact .token fits.notSpace noComment
  | singleQuoted => exact .token rfl (by decide)
  | doubleQuoted => exact .token rfl (by decide)

end Written

section Kinds

theorem nullWords_eq : nullWords = ["", "~", "null", "Null", "NULL"] := by
  have capitals : "null".map Char.toUpper = "NULL" := by
    rw [← String.toList_inj, String.toList_map]
    decide
  have capital : "null".capitalize = "Null" := by decide
  rw [nullWords, cases, capitals, capital]

theorem numberKind?_ne_null (text : List Char) : numberKind? text ≠ some .null := by
  fun_cases numberKind? text <;> simp

/-- Only the words for nothing stand for nothing. -/
theorem kindOf_ne_null {text : String} (other : text ∉ ["", "~", "null", "Null", "NULL"]) :
    kindOf text ≠ .null := by
  have noNull : nullWords.contains text = false := by
    rw [← Bool.not_eq_true, List.contains_iff_mem, nullWords_eq]
    exact other
  have number := numberKind?_ne_null text.toList
  unfold kindOf
  rw [noNull]
  simp only [Bool.false_eq_true, ↓reduceIte]
  split
  · simp
  · split
    · simp
    · split
      · simp
      · cases kind : numberKind? text.toList with
        | none => simp
        | some k =>
          rw [kind] at number
          simpa using number

end Kinds

end Scalar

end DeltaLang.Yaml
