import DeltaLang.Text.Decimal
import DeltaLang.Text.Hex
import DeltaLang.Yaml.Character

/-!
Reading scalars in their five styles. Each reader begins behind the scalar's first mark, and gives
the text that the scalar stands for with what follows the scalar. Inside plain and quoted scalars a
line end counts as a space, and `n + 1` of them in a row as `n` line ends.
-/

namespace DeltaLang.Yaml

/-- What a scalar stands for, and what follows it. -/
structure Scanned where
  value : List Char
  rest : List Char
  mark : Mark
  /-- The index behind the last character that the reader looked at. -/
  reach : Nat
  /-- Whether the reader went on to a later line behind the scalar. -/
  leftLine : Bool := false
  deriving DecidableEq, Repr

def Scanned.prepend (before : List Char) (s : Scanned) : Scanned :=
  { s with value := before ++ s.value }

/-- At the beginning of each line and word the reader looks at so many characters, because they may
separate documents. -/
def lookahead : Nat :=
  4


/-- The blanks and line ends since the last other character. -/
inductive Gap where
  | none
  | blanks (run : List Char)
  /-- At least one line end. An escaped line end is no `first`. -/
  | lines (first : Option Char) (more : List Char)
  deriving DecidableEq, Repr

namespace Gap

def isLines : Gap → Bool
  | .lines _ _ => true
  | _ => false

/-- One more blank or line end. Blanks count only on the line of the last other character. -/
def add (gap : Gap) (c : Char) : Gap :=
  if isBreak c then
    match gap with
    | .lines first more => .lines first (more ++ [c])
    | _ => .lines (some c) []
  else
    match gap with
    | .none => .blanks [c]
    | .blanks run => .blanks (run ++ [c])
    | .lines first more => .lines first more

/-- What a gap stands for between two characters. -/
def text : Gap → List Char
  | .none => []
  | .blanks run => run
  | .lines (some '\n') [] => [' ']
  | .lines (some '\n') more => more
  | .lines first more => first.toList ++ more

end Gap

/-- Puts what begins at `mark` behind a gap in front. -/
def Scanned.prependAfter (gap : Gap) (mark : Mark) (before : List Char) (s : Scanned) : Scanned :=
  { s with
    value := gap.text ++ before ++ s.value
    reach := if gap = .none then s.reach else max s.reach (mark.index + lookahead) }

namespace Scalar

/-- Characters that end a plain scalar inside brackets. -/
def isFlowMark (c : Char) : Bool :=
  c = ',' || c = '?' || c = '[' || c = ']' || c = '\x7b' || c = '\x7d'

/-- Whether a plain scalar ends before `c`, which is no space and follows `gap`. -/
def endsPlain (inFlow : Bool) (indent column : Nat) (gap : Gap) (c : Char) (rest : List Char) :
    Bool :=
  (gap != .none && ((!inFlow && column < indent) || c = '#')) ||
    (column == 0 && gap != .none && atDocumentMark (c :: rest)) ||
    (c = ':' && atSpace rest) || (inFlow && isFlowMark c)

/-- How many characters the reader of a plain scalar looks at behind its end. -/
def plainReach (inFlow : Bool) (indent column : Nat) (gap : Gap) : Nat :=
  if gap = .none then 2 else if !inFlow && column < indent then 1 else lookahead

/-- Reads a plain scalar whose later lines are indented by `indent` columns at least, from `gap`
on. Fails at a tab in place of that indentation. -/
def plain? (inFlow : Bool) (indent : Nat) (text : List Char) (mark : Mark) (gap : Gap) :
    Option Scanned :=
  match text with
  | [] => some { value := [], rest := [], mark, reach := mark.index + 1, leftLine := gap.isLines }
  | c :: rest =>
    if isSpace c then
      if c = '\t' && gap.isLines && mark.column < indent then none
      else plain? inFlow indent rest (mark.after c) (gap.add c)
    else if endsPlain inFlow indent mark.column gap c rest then
      let reach := mark.index + plainReach inFlow indent mark.column gap
      some { value := [], rest := c :: rest, mark, reach, leftLine := gap.isLines }
    else
      (plain? inFlow indent rest (mark.advance 1) .none).map (·.prependAfter gap mark [c])

/-- How many characters the reader of a quoted scalar looks at from its last quote on. -/
def quoteReach (gap : Gap) : Nat :=
  if gap = .none then 2 else lookahead

/-- Reads a scalar between single quotes, in which a quote is written twice. -/
def singleQuoted? (text : List Char) (mark : Mark) (gap : Gap) : Option Scanned :=
  match text with
  | [] => none
  | c :: rest =>
    if isSpace c then singleQuoted? rest (mark.after c) (gap.add c)
    else if mark.column == 0 && atDocumentMark (c :: rest) then none
    else if c = '\'' then
      match rest with
      | '\'' :: rest =>
        (singleQuoted? rest (mark.advance 2) .none).map (·.prependAfter gap mark [c])
      | rest =>
        let reach := mark.index + quoteReach gap
        some { value := gap.text, rest, mark := mark.advance 1, reach }
    else (singleQuoted? rest (mark.advance 1) .none).map (·.prependAfter gap mark [c])

/-- What the letter behind a backslash calls for. -/
inductive Escape where
  | char (c : Char)
  /-- A code point of so many hexadecimal digits. -/
  | code (digits : Nat)
  deriving DecidableEq, Repr

def escape? (c : Char) : Option Escape :=
  match c with
  | '0' => some (.char '\x00')
  | 'a' => some (.char '\x07')
  | 'b' => some (.char '\x08')
  | 't' => some (.char '\t')
  | '\t' => some (.char '\t')
  | 'n' => some (.char '\n')
  | 'v' => some (.char '\x0b')
  | 'f' => some (.char '\x0c')
  | 'r' => some (.char '\r')
  | 'e' => some (.char '\x1b')
  | ' ' => some (.char ' ')
  | '"' => some (.char '"')
  | '\'' => some (.char '\'')
  | '\\' => some (.char '\\')
  | 'N' => some (.char '\u0085')
  | '_' => some (.char '\u00a0')
  | 'L' => some (.char '\u2028')
  | 'P' => some (.char '\u2029')
  | 'x' => some (.code 2)
  | 'u' => some (.code 4)
  | 'U' => some (.code 8)
  | _ => none

/-- Where a reader stands between double quotes. -/
inductive Quoting where
  | text (gap : Gap)
  /-- Behind a backslash. -/
  | escape
  /-- In a code point that has `left + 1` digits more. -/
  | code (left value : Nat)
  deriving DecidableEq, Repr

/-- A code point that is a character. -/
def character? (value : Nat) : Option Char :=
  if value < 0xD800 ∨ (0xE000 ≤ value ∧ value < 0x110000) then some (Char.ofNat value) else none

/-- Reads a scalar between double quotes, with escapes. -/
def doubleQuoted? (text : List Char) (mark : Mark) (place : Quoting) : Option Scanned :=
  match text with
  | [] => none
  | c :: rest =>
    match place with
    | .text gap =>
      if isSpace c then doubleQuoted? rest (mark.after c) (.text (gap.add c))
      else if mark.column == 0 && atDocumentMark (c :: rest) then none
      else if c = '"' then
        let reach := mark.index + quoteReach gap
        some { value := gap.text, rest, mark := mark.advance 1, reach }
      else if c = '\\' then
        (doubleQuoted? rest (mark.advance 1) .escape).map (·.prependAfter gap mark [])
      else
        (doubleQuoted? rest (mark.advance 1) (.text .none)).map (·.prependAfter gap mark [c])
    | .escape =>
      if isBreak c then doubleQuoted? rest mark.newline (.text (.lines none []))
      else
        match escape? c with
        | some (.char e) =>
          (doubleQuoted? rest (mark.advance 1) (.text .none)).map (·.prepend [e])
        | some (.code digits) => doubleQuoted? rest (mark.advance 1) (.code (digits - 1) 0)
        | none => none
    | .code left value =>
      match Hex.digit? c with
      | none => none
      | some digit =>
        match left with
        | left + 1 => doubleQuoted? rest (mark.advance 1) (.code left (value * 16 + digit))
        | 0 =>
          match character? (value * 16 + digit) with
          | some e => (doubleQuoted? rest (mark.advance 1) (.text .none)).map (·.prepend [e])
          | none => none

/-- What becomes of the line ends behind a block scalar. -/
inductive Chomping where
  | strip
  | clip
  | keep
  deriving DecidableEq, Repr

/-- The indicators of a block scalar: what becomes of its last line ends, and its indentation
where it is given. -/
structure BlockHeader where
  chomping : Chomping
  indent : Option Nat
  deriving DecidableEq, Repr

def chomping? (c : Char) : Option Chomping :=
  if c = '+' then some .keep else if c = '-' then some .strip else none

/-- The indicators, in either order, and how many characters they take. An indentation of zero
is none. -/
def blockHeader? (text : List Char) : Option (BlockHeader × Nat) :=
  let digit? (cs : List Char) : Option Nat :=
    match cs with
    | c :: _ => if Decimal.isDigit c then some (Decimal.value [c]) else none
    | [] => none
  match text.head?.bind chomping? with
  | some chomping =>
    match digit? (text.drop 1) with
    | some 0 => none
    | some n => some (⟨chomping, some n⟩, 2)
    | none => some (⟨chomping, none⟩, 1)
  | none =>
    match digit? text with
    | some 0 => none
    | some n =>
      match (text.drop 1).head?.bind chomping? with
      | some chomping => some (⟨chomping, some n⟩, 2)
      | none => some (⟨.clip, some n⟩, 1)
    | none => some (⟨.clip, none⟩, 0)

/-- The line ends before the next line of a block scalar, and where that line begins. The
indentation is the one that is known, or else that of the deepest line met. -/
structure BlockBreaks where
  indent : Nat
  breaks : List Char
  rest : List Char
  mark : Mark

/-- Moves over indentation and empty lines. `least` is the least indentation, `deepest` that of the
lines so far. Fails at a tab in place of the indentation. -/
def blockBreaks? (indent : Option Nat) (least deepest : Nat) (text : List Char) (mark : Mark) :
    Option BlockBreaks :=
  let deepest' := max deepest mark.column
  match text with
  | [] => some ⟨indent.getD (max deepest' least), [], [], mark⟩
  | c :: rest =>
    let inIndent := indent.all (mark.column < ·)
    if c = ' ' && inIndent then blockBreaks? indent least deepest rest (mark.advance 1)
    else if c = '\t' && inIndent then none
    else if isBreak c then
      (blockBreaks? indent least deepest' rest mark.newline).map fun b =>
        { b with breaks := c :: b.breaks }
    else some ⟨indent.getD (max deepest' least), [], c :: rest, mark⟩

/-- Reads the lines of a block scalar from the text behind its indentation. `ending` is the line
end before, `breaks` the empty lines, and `blank` says whether the line before began with a blank.
`fuel` bounds the number of lines. -/
def blockLines? (literal : Bool) (chomping : Chomping) (indent fuel : Nat) (text : List Char)
    (mark : Mark) (ending breaks : List Char) (blank : Bool) : Option Scanned :=
  match fuel with
  | 0 => none
  | fuel + 1 =>
    match text with
    | c :: rest =>
      if mark.column == indent then
        let line := (c :: rest).takeWhile (!isBreak ·)
        let folds := !literal && !blank && !isBlank c && ending == ['\n']
        let before := if !folds then ending ++ breaks else if breaks.isEmpty then [' '] else breaks
        let mark := mark.advance line.length
        let (ending, behind, mark) :=
          match (c :: rest).dropWhile (!isBreak ·) with
          | b :: behind => ([b], behind, mark.newline)
          | [] => ([], [], mark)
        match blockBreaks? (some indent) 0 0 behind mark with
        | none => none
        | some next =>
          (blockLines? literal chomping indent fuel next.rest next.mark ending next.breaks
            (isBlank c)).map (·.prepend (before ++ line))
      else finish text
    | [] => finish text
where
  /-- What is left of the last line ends. -/
  finish (text : List Char) : Option Scanned :=
    let tail :=
      match chomping with
      | .strip => []
      | .clip => ending
      | .keep => ending ++ breaks
    some { value := tail, rest := text, mark, reach := mark.index + 1, leftLine := true }

/-- Reads a block scalar, whose parent is indented by `outer` columns, from behind its first
character. -/
def block? (literal : Bool) (outer : Option Nat) (text : List Char) (mark : Mark) :
    Option Scanned := do
  let (header, size) ← blockHeader? text
  let blanks := ((text.drop size).takeWhile isBlank).length
  let behind := (text.drop size).dropWhile isBlank
  let comment := if behind.head? == some '#' then behind.takeWhile (!isBreak ·) else []
  let mark := mark.advance (size + blanks + comment.length)
  let (body, mark) ←
    match behind.drop comment.length with
    | [] => some ([], mark)
    | c :: rest => if isBreak c then some (rest, mark.newline) else none
  let indent := header.indent.map (outer.getD 0 + ·)
  let least := outer.elim 1 (· + 1)
  let first ← blockBreaks? indent least 0 body mark
  blockLines? literal header.chomping first.indent (body.length + 1) first.rest first.mark []
    first.breaks false

end Scalar

end DeltaLang.Yaml
