import DeltaLang.Token

/-!
Reading a source text as a sequence of items: tokens, and maximal runs of characters that begin
no token. Blanks and line ends separate items and belong to none.
-/

namespace DeltaLang.Lexer

def isBlank (b : UInt8) : Bool :=
  b == 0x20 || b == 0x0D

def isNewline (b : UInt8) : Bool :=
  b == 0x0A

def isDigit (b : UInt8) : Bool :=
  0x30 ≤ b && b ≤ 0x39

def isWord (b : UInt8) : Bool :=
  b == 0x5F || isDigit b || (0x61 ≤ b && b ≤ 0x7A) || (0x41 ≤ b && b ≤ 0x5A)

/-- What stands at the front of a text, with the number of bytes it takes. -/
inductive Shape where
  | blank
  | newline
  | token (kind : Token.Kind) (size : Nat)
  | invalid (size : Nat)
  deriving DecidableEq, Repr

/-- The longest symbol that a text begins with. -/
def symbolAt? (text : List UInt8) : Option Symbol :=
  Symbol.all.find? fun s => (Utf8.encode s.spelling).isPrefixOf text

/-- Whether a text begins with a keyword and does not go on as a longer word. -/
def beginsWith (k : Keyword) (text : List UInt8) : Bool :=
  (Utf8.encode k.spelling).isPrefixOf text &&
    !((text.drop (Utf8.encode k.spelling).length).head?.any isWord)

def keywordAt? (text : List UInt8) : Option Keyword :=
  Keyword.all.find? fun k => beginsWith k text

/-- What stands at the front of the text `first :: rest`. -/
def shape (first : UInt8) (rest : List UInt8) : Shape :=
  if isBlank first then .blank
  else if isNewline first then .newline
  else if isDigit first then
    .token (.literal .number) ((first :: rest).takeWhile isDigit).length
  else
    match symbolAt? (first :: rest) with
    | some s => .token (.symbol s) (Utf8.encode s.spelling).length
    | none =>
      match keywordAt? (first :: rest) with
      | some k => .token (.keyword k) (Utf8.encode k.spelling).length
      | none =>
        if isWord first then
          .token .identifier ((first :: rest).takeWhile isWord).length
        else .invalid (Utf8.front first rest).2

/-- A place in a text and what follows it. A cursor is a value: reading from one leaves every other
where it was. -/
structure Cursor where
  rest : List UInt8
  index : Nat
  line : Nat
  column : Nat
  deriving DecidableEq, Repr

namespace Cursor

def ofSource (source : List UInt8) : Cursor :=
  ⟨source, 0, 0, 0⟩

def position (c : Cursor) : Position :=
  ⟨c.line, c.column⟩

/-- Moves over `size` bytes of one line, which hold `columns` characters. -/
def advance (c : Cursor) (size columns : Nat) : Cursor :=
  ⟨c.rest.drop size, c.index + size, c.line, c.column + columns⟩

/-- Moves over a line end. -/
def nextLine (c : Cursor) : Cursor :=
  ⟨c.rest.drop 1, c.index + 1, c.line + 1, 0⟩

end Cursor

/-- Moves over blanks and line ends. -/
def skipBlanks (rest : List UInt8) (index line column : Nat) : Cursor :=
  match rest with
  | [] => ⟨[], index, line, column⟩
  | first :: rest =>
    if isBlank first then skipBlanks rest (index + 1) line (column + 1)
    else if isNewline first then skipBlanks rest (index + 1) (line + 1) 0
    else ⟨first :: rest, index, line, column⟩

/-- The size in bytes and in characters of the run of invalid characters at the front of a text. -/
def invalidRun (text : List UInt8) : Nat × Nat :=
  match text with
  | [] => (0, 0)
  | first :: rest =>
    match shape first rest with
    | .invalid size =>
      let (bytes, characters) := invalidRun (rest.drop (size - 1))
      (size + bytes, characters + 1)
    | _ => (0, 0)
termination_by text.length
decreasing_by simp only [List.length_drop, List.length_cons]; omega

/-- A token, or a maximal run of invalid characters. -/
inductive Item where
  | token (token : Token)
  | invalid (place : Section)
  deriving DecidableEq, Repr

/-- The item at a cursor that stands on no blank, and the cursor after it. -/
def itemAt (c : Cursor) : Option (Item × Cursor) :=
  match c.rest with
  | [] => none
  | first :: rest =>
    match shape first rest with
    | .token kind size =>
      some (.token ⟨kind, ⟨c.index, c.index + size⟩, c.position⟩, c.advance size size)
    | .invalid _ =>
      let (bytes, characters) := invalidRun (first :: rest)
      some (.invalid
        ⟨⟨c.index, c.index + bytes⟩, ⟨c.line, c.line⟩, ⟨c.column, c.column + characters⟩⟩,
        c.advance bytes characters)
    | .blank | .newline => none

/-- The next item of a text and the cursor after it, none at the end of the text. -/
def next (c : Cursor) : Option (Item × Cursor) :=
  itemAt (skipBlanks c.rest c.index c.line c.column)

theorem symbol_spelling_pos : ∀ s ∈ Symbol.all, 0 < (Utf8.encode s.spelling).length := by
  decide

theorem keyword_spelling_pos : ∀ k ∈ Keyword.all, 0 < (Utf8.encode k.spelling).length := by
  decide

theorem shape_token_pos {first : UInt8} {rest : List UInt8} {kind : Token.Kind} {size : Nat}
    (shaped : shape first rest = .token kind size) : 0 < size := by
  unfold shape at shaped
  split at shaped
  · cases shaped
  split at shaped
  · cases shaped
  split at shaped
  · next digit =>
    injection shaped with _ same
    simp [← same, digit]
  split at shaped
  · next s found =>
    injection shaped with _ same
    rw [← same]
    exact symbol_spelling_pos s (List.mem_of_find?_eq_some found)
  split at shaped
  · next k found =>
    injection shaped with _ same
    rw [← same]
    exact keyword_spelling_pos k (List.mem_of_find?_eq_some found)
  split at shaped
  · next word =>
    injection shaped with _ same
    simp [← same, word]
  · cases shaped

theorem shape_invalid_pos {first : UInt8} {rest : List UInt8} {size : Nat}
    (shaped : shape first rest = .invalid size) : 0 < size := by
  unfold shape at shaped
  repeat' split at shaped
  all_goals first
    | (injection shaped with same; rw [← same]; exact Utf8.front_size_pos first rest)
    | cases shaped

theorem invalidRun_pos {first : UInt8} {rest : List UInt8} {size : Nat}
    (shaped : shape first rest = .invalid size) : 0 < (invalidRun (first :: rest)).1 := by
  rw [invalidRun, shaped]
  exact Nat.add_pos_left (shape_invalid_pos shaped) _

theorem skipBlanks_length_le (rest : List UInt8) (index line column : Nat) :
    (skipBlanks rest index line column).rest.length ≤ rest.length := by
  fun_induction skipBlanks rest index line column with
  | case1 => simp
  | case2 => simp_all; omega
  | case3 => simp_all; omega
  | case4 => simp

theorem itemAt_length_lt {c after : Cursor} {item : Item} (read : itemAt c = some (item, after)) :
    after.rest.length < c.rest.length := by
  unfold itemAt at read
  split at read
  · cases read
  next first rest front =>
  rw [front]
  split at read
  · next kind size shaped =>
    have positive := shape_token_pos shaped
    obtain ⟨rfl, rfl⟩ := by simpa using read
    simp only [Cursor.advance, front, List.length_drop, List.length_cons]
    omega
  · next size shaped =>
    have positive := invalidRun_pos shaped
    obtain ⟨rfl, rfl⟩ := by simpa using read
    simp only [Cursor.advance, front, List.length_drop, List.length_cons]
    omega
  · cases read
  · cases read

theorem next_length_lt {c after : Cursor} {item : Item} (read : next c = some (item, after)) :
    after.rest.length < c.rest.length :=
  Nat.lt_of_lt_of_le (itemAt_length_lt read) (skipBlanks_length_le _ _ _ _)

/-- Every item from a cursor to the end of its text. -/
def items (c : Cursor) : List Item :=
  match _read : next c with
  | none => []
  | some (item, after) => item :: items after
termination_by c.rest.length
decreasing_by exact next_length_lt _read

def Item.token? : Item → Option Token
  | .token t => some t
  | .invalid _ => none

def Item.invalid? : Item → Option Section
  | .token _ => none
  | .invalid place => some place

/-- The tokens of a source, in order. -/
def tokens (source : List UInt8) : List Token :=
  (items (.ofSource source)).filterMap Item.token?

/-- The runs of invalid characters of a source, in order. -/
def invalids (source : List UInt8) : List Section :=
  (items (.ofSource source)).filterMap Item.invalid?

end DeltaLang.Lexer
