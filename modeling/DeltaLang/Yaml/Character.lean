/-!
Classes of characters in YAML texts, and the one form of line ends that reading works on.
-/

namespace DeltaLang.Yaml

def isBlank (c : Char) : Bool :=
  c = ' ' || c = '\t'

/-- The line ends of a text in its common form. -/
def isBreak (c : Char) : Bool :=
  c = '\n' || c = '\u2028' || c = '\u2029'

def isSpace (c : Char) : Bool :=
  isBlank c || isBreak c

/-- Whether a text ends or goes on with a blank or a line end. -/
def atSpace (text : List Char) : Bool :=
  text.head?.all isSpace

/-- Tells at the front of a text in which order its bytes come. -/
def byteOrderMark : Char :=
  '\ufeff'

/-- Characters that a text may hold at all. -/
def isAllowed (c : Char) : Bool :=
  c = '\t' || c = '\n' || c = '\r' || (' ' ≤ c && c ≤ '~') || c = '\u0085' ||
    ('\u00a0' ≤ c && c ≤ '\ufffd') || '\uffff' < c

/-- Characters that are written as they are. -/
def isPlainlyWritten (c : Char) : Bool :=
  c = '\n' || (' ' ≤ c && c ≤ '~') || ('\u00a0' ≤ c && c ≤ '\ufffd' && c != byteOrderMark)

/-- Characters of anchors and of the names of tags. -/
def isWordChar (c : Char) : Bool :=
  c.isAlphanum || c = '_' || c = '-'

/-- Brings line ends to their common form: a carriage return, with or without a line feed behind
it, and a next line character become a line feed. -/
def normalize : List Char → List Char
  | '\r' :: '\n' :: rest => '\n' :: normalize rest
  | c :: rest => (if c = '\r' || c = '\u0085' then '\n' else c) :: normalize rest
  | [] => []

/-- A place in a text. -/
structure Mark where
  index : Nat
  line : Nat
  column : Nat
  deriving DecidableEq, Repr

namespace Mark

def start : Mark :=
  ⟨0, 0, 0⟩

/-- The place `count` characters further on the line. -/
def advance (m : Mark) (count : Nat) : Mark :=
  ⟨m.index + count, m.line, m.column + count⟩

/-- The place behind a line end. -/
def newline (m : Mark) : Mark :=
  ⟨m.index + 1, m.line + 1, 0⟩

/-- The place behind a character. -/
def after (m : Mark) (c : Char) : Mark :=
  if isBreak c then m.newline else m.advance 1

end Mark

/-- Whether a text begins with a line that separates documents. -/
def atDocumentMark (text : List Char) : Bool :=
  match text with
  | '-' :: '-' :: '-' :: rest => atSpace rest
  | '.' :: '.' :: '.' :: rest => atSpace rest
  | _ => false

end DeltaLang.Yaml
