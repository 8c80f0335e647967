import DeltaLang.Text.Decimal
import DeltaLang.Yaml.Input
import DeltaLang.Yaml.Scalar.Reader
import DeltaLang.Yaml.Token

/-!
Reading a text as tokens. A scalar, a bracket or an anchor may turn out to be a key only at the `:`
behind it, so the scanner remembers where the key would begin, and puts the tokens for it there
when it meets the `:`. Such a key lies on one line. A token is known only when no key can begin
there any more.
-/

namespace DeltaLang.Yaml

/-- The beginning of something that may be a key. -/
structure PossibleKey where
  /-- Whether nothing but a key may stand there. -/
  required : Bool
  /-- How many tokens come before it. -/
  tokens : Nat
  mark : Mark
  deriving DecidableEq, Repr

/-- A key is no longer than this. -/
def maxKeySize : Nat :=
  1024

structure Scanner where
  text : List Char
  mark : Mark
  /-- The columns of the open blocks, innermost first. -/
  blocks : List Nat
  /-- The possible key of every open bracket and of the text outside of brackets, innermost
  first. -/
  keys : List (Option PossibleKey)
  keyAllowed : Bool
  tokens : List Token
  /-- How many characters can be looked at, if not all. -/
  limit : Option Nat
  /-- How many characters have been looked at. -/
  reach : Nat
  /-- As long as no more characters than these have been looked at, the first character of a line is
  passed over where a token may begin. A second byte order mark at the front of the text has that
  effect on the first block. -/
  marked : Nat
  deriving Repr

namespace Scanner

def ofInput (input : Input) : Scanner :=
  { text := input.text, mark := .start, blocks := [], keys := [none], keyAllowed := true,
    tokens := [], limit := input.limit?, reach := 1, marked := input.marked }

def inFlow (s : Scanner) : Bool :=
  s.keys.length > 1

def emit (s : Scanner) (t : Token) : Scanner :=
  { s with tokens := s.tokens ++ [t] }

/-- Notes that the characters before an index have been looked at. -/
def look (s : Scanner) (index : Nat) : Scanner :=
  { s with reach := max s.reach index }

/-- Whether all that has been looked at is there. -/
def isWithin (s : Scanner) : Bool :=
  s.limit.all (s.reach ≤ ·)

/-- Moves over `count` characters of the line. -/
def skip (s : Scanner) (count : Nat) : Scanner :=
  { s with text := s.text.drop count, mark := s.mark.advance count }

/-- Whether something that may be a key lies too far behind to be one. -/
def isStale (mark : Mark) (key : PossibleKey) : Bool :=
  key.mark.line < mark.line || key.mark.index + maxKeySize < mark.index

/-- Gives up possible keys that lie too far behind. Fails if one of them had to be a key. -/
def expireKeys? (s : Scanner) : Option Scanner :=
  let stale := s.keys.filterMap (·.filter (isStale s.mark))
  if stale.any (·.required) then none
  else some { s with keys := s.keys.map (·.filter (!isStale s.mark ·)) }

/-- Gives up the innermost possible key. Fails if it had to be a key. -/
def dropKey? (s : Scanner) : Option Scanner :=
  match s.keys with
  | some key :: keys => if key.required then none else some { s with keys := none :: keys }
  | _ => some s

/-- Remembers this place as a possible key. -/
def saveKey? (s : Scanner) : Option Scanner :=
  if s.keyAllowed then do
    let s ← s.dropKey?
    let required := !s.inFlow && s.blocks.head? == some s.mark.column
    some { s with keys := some ⟨required, s.tokens.length, s.mark⟩ :: s.keys.drop 1 }
  else some s

/-- Opens a block at a column that lies right of the open ones. Its token goes before the token
of number `place`. -/
def openBlock (s : Scanner) (column place : Nat) (token : Token) : Scanner :=
  if !s.inFlow && s.blocks.head?.all (· < column) then
    { s with blocks := column :: s.blocks, tokens := s.tokens.insertIdx place token }
  else s

/-- Closes the blocks that `isClosed` by their column. -/
def closeBlocks (s : Scanner) (isClosed : Nat → Bool) : Scanner :=
  if s.inFlow then s
  else
    let closed := s.blocks.takeWhile isClosed
    { s with
      blocks := s.blocks.dropWhile isClosed
      tokens := s.tokens ++ closed.map fun _ => Token.blockEnd }

/-- Moves over blanks, comments and line ends. Behind a line end outside of brackets a key may
begin, and there a tab is no blank. Before the index `marked`, the first character of a line is
passed over. -/
def skipSpace (inFlow : Bool) (marked : Nat) (text : List Char) (mark : Mark)
    (keyAllowed inComment : Bool) : List Char × Mark × Bool :=
  match text with
  | [] => ([], mark, keyAllowed)
  | c :: rest =>
    if mark.column == 0 && mark.index < marked then
      skipSpace inFlow marked rest (mark.advance 1) keyAllowed false
    else if isBreak c then
      skipSpace inFlow marked rest mark.newline (keyAllowed || !inFlow) false
    else if inComment || c = ' ' || c = '#' || (c = '\t' && (inFlow || !keyAllowed)) then
      skipSpace inFlow marked rest (mark.advance 1) keyAllowed (inComment || c = '#')
    else (c :: rest, mark, keyAllowed)

/-- Moves to the next token, and closes what ends before it. -/
def approach? (s : Scanner) : Option Scanner := do
  let marked := if s.reach ≤ s.marked then s.marked else 0
  let (text, mark, keyAllowed) := skipSpace s.inFlow marked s.text s.mark s.keyAllowed false
  let s ← expireKeys? { s with text, mark, keyAllowed }
  some ((s.closeBlocks (mark.column < ·)).look (mark.index + lookahead))

/-- A mark between documents, which closes every block. -/
def documentMark? (s : Scanner) (token : Token) : Option Scanner := do
  let s ← (s.closeBlocks fun _ => true).dropKey?
  some (({ s with keyAllowed := false }.skip 3).emit token)

/-- A number of one digit or two, and what follows it. -/
def versionPart? (text : List Char) : Option (Nat × List Char) :=
  let digits := text.takeWhile Decimal.isDigit
  if digits.isEmpty || 2 < digits.length then none
  else some (Decimal.value digits, text.drop digits.length)

/-- The version that a directive tells. -/
def version? (text : List Char) : Option (Token × List Char) := do
  let (major, rest) ← versionPart? (text.dropWhile isBlank)
  match rest with
  | '.' :: rest =>
    let (minor, rest) ← versionPart? rest
    some (.versionDirective major minor, rest)
  | _ => none

/-- The handle that a directive explains. -/
def tagHandle? (text : List Char) : Option (Token × List Char) := do
  let (handle, rest) ← Tag.handle? (text.dropWhile isBlank)
  let (meaning, behind) ← Tag.suffix? 0 (rest.dropWhile isBlank)
  if (handle == ['!'] || Tag.isHandle handle) && rest.head?.any isBlank && !meaning.isEmpty &&
      atSpace behind then
    some (.tagDirective (String.ofList handle) (String.ofList meaning), behind)
  else none

/-- A line with `%YAML` or `%TAG`. There are no other directives. -/
def directive? (s : Scanner) : Option Scanner := do
  let s ← (s.closeBlocks fun _ => true).dropKey?
  let line := s.text.takeWhile (!isBreak ·)
  let name := (line.drop 1).takeWhile isWordChar
  let behind := line.drop (name.length + 1)
  let (token, rest) ←
    if !atSpace behind then none
    else if name = "YAML".toList then version? behind
    else if name = "TAG".toList then tagHandle? behind
    else none
  if (rest.dropWhile isBlank).head?.all (· = '#') then
    let s := ({ s with keyAllowed := false }.skip line.length).emit token
    match s.text with
    | [] => some s
    | _ :: rest => some { s with text := rest, mark := s.mark.newline }
  else none

def flowStart? (s : Scanner) (token : Token) : Option Scanner := do
  let s ← s.saveKey?
  some (({ s with keys := none :: s.keys, keyAllowed := true }.skip 1).emit token)

def flowEnd? (s : Scanner) (token : Token) : Option Scanner := do
  let s ← s.dropKey?
  let keys := if s.inFlow then s.keys.drop 1 else s.keys
  some (({ s with keys, keyAllowed := false }.skip 1).emit token)

def flowEntry? (s : Scanner) : Option Scanner := do
  let s ← s.dropKey?
  some (({ s with keyAllowed := true }.skip 1).emit .flowEntry)

/-- The `-` of a sequence. -/
def blockEntry? (s : Scanner) : Option Scanner := do
  if !s.inFlow && !s.keyAllowed then none
  let s ← (s.openBlock s.mark.column s.tokens.length .blockSequenceStart).dropKey?
  some (({ s with keyAllowed := true }.skip 1).emit .blockEntry)

/-- The `?` before a key. -/
def explicitKey? (s : Scanner) : Option Scanner := do
  if !s.inFlow && !s.keyAllowed then none
  let s ← (s.openBlock s.mark.column s.tokens.length .blockMappingStart).dropKey?
  some (({ s with keyAllowed := !s.inFlow }.skip 1).emit .key)

/-- The `:` behind a key. -/
def value? (s : Scanner) : Option Scanner :=
  match s.keys with
  | some key :: keys =>
    let s := { s with
      keys := none :: keys
      tokens := s.tokens.insertIdx key.tokens .key
      keyAllowed := false }
    some (((s.openBlock key.mark.column key.tokens .blockMappingStart).skip 1).emit .value)
  | _ =>
    if !s.inFlow && !s.keyAllowed then none
    else
      let s := s.openBlock s.mark.column s.tokens.length .blockMappingStart
      some (({ s with keyAllowed := !s.inFlow }.skip 1).emit .value)

/-- Whether an anchor or an alias may end before `text`. -/
def endsAnchor (text : List Char) : Bool :=
  match text with
  | [] => true
  | c :: _ => isSpace c || "?:,]\x7d%@\x60".toList.contains c

def anchor? (s : Scanner) (token : String → Token) : Option Scanner := do
  let s ← s.saveKey?
  let name := (s.text.drop 1).takeWhile isWordChar
  if name.isEmpty || !endsAnchor (s.text.drop (name.length + 1)) then none
  else
    some (({ s with keyAllowed := false }.skip (name.length + 1)).emit
      (token (String.ofList name)))

def tag? (s : Scanner) : Option Scanner := do
  let s ← s.saveKey?
  let (tag, rest) ← Tag.read? s.text
  if atSpace rest then
    some (({ s with keyAllowed := false }.skip (s.text.length - rest.length)).emit (.tag tag))
  else none

/-- Takes over a scalar that has been read. -/
def accept (s : Scanner) (keyAllowed isPlain : Bool) (r : Scanned) : Scanner :=
  { s with text := r.rest, mark := r.mark, keyAllowed := keyAllowed || r.leftLine }.look r.reach
    |>.emit (.scalar (String.ofList r.value) isPlain)

def blockScalar? (s : Scanner) (literal : Bool) : Option Scanner := do
  let s ← s.dropKey?
  let r ← Scalar.block? literal s.blocks.head? (s.text.drop 1) (s.mark.advance 1)
  some (s.accept true false r)

def singleQuoted? (s : Scanner) : Option Scanner := do
  let s ← s.saveKey?
  let r ← Scalar.singleQuoted? (s.text.drop 1) (s.mark.advance 1) .none
  some ((s.look (s.mark.index + 1 + lookahead)).accept false false r)

def doubleQuoted? (s : Scanner) : Option Scanner := do
  let s ← s.saveKey?
  let r ← Scalar.doubleQuoted? (s.text.drop 1) (s.mark.advance 1) (.text .none)
  some ((s.look (s.mark.index + 1 + lookahead)).accept false false r)

def plain? (s : Scanner) : Option Scanner := do
  let s ← s.saveKey?
  let r ← Scalar.plain? s.inFlow (s.blocks.head?.elim 0 (· + 1)) s.text s.mark .none
  some (s.accept false true r)

/-- Characters that begin no plain scalar, unless what follows them says so. -/
def isIndicator (c : Char) : Bool :=
  "-?:,[]\x7b\x7d#&*!|>'\"%@\x60".toList.contains c

/-- Whether a plain scalar may begin here. -/
def beginsPlain (inFlow : Bool) (c : Char) (rest : List Char) : Bool :=
  !(isSpace c || isIndicator c) || (c = '-' && !rest.head?.any isBlank) ||
    (!inFlow && (c = '?' || c = ':') && !atSpace rest)

/-- Reads the token that begins with `c`. -/
def token? (s : Scanner) (c : Char) (rest : List Char) : Option Scanner :=
  let next := atSpace rest
  if s.mark.column == 0 && c = '%' then s.directive?
  else if s.mark.column == 0 && atDocumentMark (c :: rest) then
    s.documentMark? (if c = '-' then .documentStart else .documentEnd)
  else if c = '[' then s.flowStart? .flowSequenceStart
  else if c = '\x7b' then s.flowStart? .flowMappingStart
  else if c = ']' then s.flowEnd? .flowSequenceEnd
  else if c = '\x7d' then s.flowEnd? .flowMappingEnd
  else if c = ',' then s.flowEntry?
  else if c = '-' && next then s.blockEntry?
  else if c = '?' && (s.inFlow || next) then s.explicitKey?
  else if c = ':' && (s.inFlow || next) then s.value?
  else if c = '*' then s.anchor? .alias
  else if c = '&' then s.anchor? .anchor
  else if c = '!' then s.tag?
  else if c = '|' && !s.inFlow then s.blockScalar? true
  else if c = '>' && !s.inFlow then s.blockScalar? false
  else if c = '\'' then s.singleQuoted?
  else if c = '"' then s.doubleQuoted?
  else if beginsPlain s.inFlow c rest then s.plain?
  else none

/-- Closes everything at the end of the text, which counts as the end of a line. -/
def finish? (s : Scanner) : Option Scanner := do
  let s ← (s.closeBlocks fun _ => true).dropKey?
  let s := if s.mark.column == 0 then s else { s with mark := s.mark.newline }
  some (s.emit .streamEnd)

/-- Reads one token more, or the end of the text. Fails where no token begins, and where it would
have to look at what is not there. -/
def fetch? (s : Scanner) : Option Scanner := do
  let s ← s.approach?
  let s ←
    match s.text with
    | [] => s.finish?
    | c :: rest => (s.token? c rest).map fun s => s.look (s.mark.index + 1)
  if s.isWithin then some s else none

/-- The number of the first token that may turn out to be a key, or else of the next token. -/
def known (s : Scanner) : Nat :=
  s.keys.foldl (fun n key => (key.map (·.tokens)).elim n (min n)) s.tokens.length

/-- The tokens that are known before the first place that makes none. At the end of the text the
last one is `streamEnd`. The tokens before `asked` have been called for. `fuel` bounds the number of
tokens. -/
def run (fuel asked : Nat) (s : Scanner) : List Token :=
  match fuel with
  | 0 => s.tokens.take asked
  | fuel + 1 =>
    match if asked < s.tokens.length then s.expireKeys? else some s with
    | none => s.tokens.take asked
    | some s =>
      if s.tokens.getLast? == some .streamEnd then s.tokens
      else
        match s.fetch? with
        | none => s.tokens.take s.known
        | some next => run fuel s.known next

end Scanner

/-- The tokens of a text, up to the first place that makes none. -/
def Token.scan (input : Input) : List Token :=
  (Scanner.ofInput input).run (input.text.length + 2) 0

end DeltaLang.Yaml
