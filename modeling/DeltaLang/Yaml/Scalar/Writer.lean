import DeltaLang.Text.Hex
import DeltaLang.Yaml.Character
import DeltaLang.Yaml.Scalar.Kind

/-!
Writing texts as scalars. A text is written without quotes where it then reads as itself, between
single quotes where only its indicators stand against that, and between double quotes where it looks
like something else or holds characters without a visible form. A text of several lines is a block.
A line that has become too long goes on behind the next single space on an indented line.
-/

namespace DeltaLang.Yaml.Scalar

/-- Line ends in the texts to write. -/
def isLineEnd (c : Char) : Bool :=
  isBreak c || c = '\r' || c = '\u0085'

/-- Whether two neighbours in a text satisfy `p`. -/
def anyPair (p : Char → Char → Bool) (text : List Char) : Bool :=
  (text.zip (text.drop 1)).any fun (a, b) => p a b

def breakBeforeSpace (text : List Char) : Bool :=
  anyPair (fun a b => isLineEnd a && b = ' ') text

def spaceBeforeBreak (text : List Char) : Bool :=
  anyPair (fun a b => a = ' ' && isLineEnd b) text

def beginsWithSpace (text : List Char) : Bool :=
  text.head?.any fun c => c = ' ' || isLineEnd c

/-- Whether a text ends here or goes on with a blank. -/
def atBlank (text : List Char) : Bool :=
  text.head?.all isBlank

/-- Whether a text holds `: ` or ` #`, or ends in `:`. `afterSpace` says that a space comes
before it. -/
def hasInnerIndicator (afterSpace : Bool) (text : List Char) : Bool :=
  match text with
  | [] => false
  | c :: rest =>
    (c = ':' && atBlank rest) || (c = '#' && afterSpace) ||
      hasInnerIndicator (isBlank c || isLineEnd c || c = '\x00') rest

/-- Whether a text begins like something other than a scalar. -/
def hasFirstIndicator (text : List Char) : Bool :=
  match text with
  | [] => false
  | c :: rest =>
    ['-', '-', '-'].isPrefixOf text || ['.', '.', '.'].isPrefixOf text ||
      "#,[]\x7b\x7d&*!|>'\"%@\x60".toList.contains c || ((c = '?' || c = '-') && atBlank rest)

inductive Style where
  | plain
  | singleQuoted
  | doubleQuoted
  | literal
  deriving DecidableEq, Repr

/-- Whether a text keeps its form between single quotes. -/
def fitsSingleQuotes (text : List Char) : Bool :=
  text.all isPlainlyWritten && !breakBeforeSpace text && !spaceBeforeBreak text

def fitsPlain (text : List Char) : Bool :=
  fitsSingleQuotes text && !text.any isLineEnd && !beginsWithSpace text &&
    !beginsWithSpace text.reverse && !hasFirstIndicator text && !hasInnerIndicator true text

def fitsBlock (text : List Char) : Bool :=
  text.all isPlainlyWritten && !spaceBeforeBreak text && text.getLast? != some ' '

/-- The style that a text is written in. -/
def style (text : String) : Style :=
  let chars := text.toList
  if chars.contains '\n' then if fitsBlock chars then .literal else .doubleQuoted
  else if !readsAsText text || isSexagesimal chars then .doubleQuoted
  else if fitsPlain chars then .plain
  else if fitsSingleQuotes chars then .singleQuoted
  else .doubleQuoted

/-- Lines that reach beyond this column are continued on the next. -/
def lineWidth : Nat :=
  80

/-- A new line, indented by so many columns. -/
def newLine (indent : Nat) : List Char :=
  '\n' :: List.replicate indent ' '

/-- The lines of a plain scalar from `column` on. -/
def plainLines (indent column : Nat) (afterSpace : Bool) (text : List Char) : List Char :=
  match text with
  | [] => []
  | c :: rest =>
    if c = ' ' then
      if !afterSpace && lineWidth < column && rest.head? != some ' ' then
        newLine indent ++ plainLines indent indent true rest
      else ' ' :: plainLines indent (column + 1) true rest
    else c :: plainLines indent (column + 1) false rest

/-- The lines between single quotes from `column` on. Inside of a word `afterSpace` and `afterBreak`
are false, and `isFirst` holds before the first character only. -/
def singleLines (indent column : Nat) (isFirst afterSpace afterBreak : Bool) (text : List Char) :
    List Char :=
  match text with
  | [] => []
  | c :: rest =>
    if c = ' ' then
      if !afterSpace && lineWidth < column && !isFirst && !rest.isEmpty &&
          rest.head? != some ' ' then
        newLine indent ++ singleLines indent indent false true afterBreak rest
      else ' ' :: singleLines indent (column + 1) false true afterBreak rest
    else if isBreak c then c :: singleLines indent 0 false afterSpace true rest
    else
      let margin := if afterBreak then indent - column else 0
      let word := if c = '\'' then ['\'', '\''] else [c]
      List.replicate margin ' ' ++ word ++
        singleLines indent (column + margin + word.length) false false false rest

/-- The letter behind a backslash for characters that have one. -/
def escapeLetter? (c : Char) : Option Char :=
  match c with
  | '\x00' => some '0'
  | '\x07' => some 'a'
  | '\x08' => some 'b'
  | '\t' => some 't'
  | '\n' => some 'n'
  | '\x0b' => some 'v'
  | '\x0c' => some 'f'
  | '\r' => some 'r'
  | '\x1b' => some 'e'
  | '"' => some '"'
  | '\\' => some '\\'
  | '\u0085' => some 'N'
  | '\u00a0' => some '_'
  | '\u2028' => some 'L'
  | '\u2029' => some 'P'
  | _ => none

/-- Whether a character is escaped between double quotes. -/
def isEscaped (c : Char) : Bool :=
  !isPlainlyWritten c || isLineEnd c || c = '"' || c = '\\'

def escapeText (c : Char) : List Char :=
  match escapeLetter? c with
  | some letter => ['\\', letter]
  | none =>
    let digits := Hex.upperDigits c.toNat
    if c.toNat ≤ 0xFF then '\\' :: 'x' :: Hex.pad 2 digits
    else if c.toNat ≤ 0xFFFF then '\\' :: 'u' :: Hex.pad 4 digits
    else '\\' :: 'U' :: Hex.pad 8 digits

/-- The lines between double quotes from `column` on. -/
def doubleLines (indent column : Nat) (isFirst afterSpace : Bool) (text : List Char) : List Char :=
  match text with
  | [] => []
  | c :: rest =>
    if isEscaped c then
      escapeText c ++ doubleLines indent (column + (escapeText c).length) false false rest
    else if c = ' ' then
      if !afterSpace && lineWidth < column && !isFirst && !rest.isEmpty then
        let mark := if rest.head? == some ' ' then ['\\'] else []
        newLine indent ++ mark ++ doubleLines indent (indent + mark.length) false true rest
      else ' ' :: doubleLines indent (column + 1) false true rest
    else c :: doubleLines indent (column + 1) false false rest

/-- What stands between double quotes, from `column` on. Behind a byte order mark at the front of
the text every character is escaped. -/
def doubleBody (indent column : Nat) (text : List Char) : List Char :=
  if text.head? == some byteOrderMark then text.flatMap escapeText
  else doubleLines indent column true false text

/-- The lines of a block. `atStart` says that a line begins. -/
def blockLines (indent : Nat) (atStart : Bool) (text : List Char) : List Char :=
  match text with
  | [] => []
  | c :: rest =>
    if isBreak c then c :: blockLines indent true rest
    else (if atStart then List.replicate indent ' ' else []) ++ c :: blockLines indent false rest

/-- The indicators of a block: its indentation if it begins with a space, `-` if no line end ends
it, and `+` if more than one do. -/
def blockIndicators (text : List Char) : List Char :=
  let chomping :=
    match text.reverse with
    | [] => ['-']
    | [c] => if isBreak c then ['+'] else ['-']
    | c :: d :: _ => if !isBreak c then ['-'] else if isBreak d then ['+'] else []
  (if beginsWithSpace text then ['2'] else []) ++ chomping

/-- A text as a scalar from `column` on, up to the end of its last line. Its later lines are
indented by `indent` columns. -/
def write (indent column : Nat) (text : String) : List Char :=
  let chars := text.toList
  match style text with
  | .plain => plainLines indent column false chars ++ ['\n']
  | .singleQuoted =>
    '\'' :: singleLines indent (column + 1) true false false chars ++ ['\'', '\n']
  | .doubleQuoted => '"' :: doubleBody indent (column + 1) chars ++ ['"', '\n']
  | .literal =>
    let ending := if chars.getLast?.any isBreak then [] else ['\n']
    '|' :: blockIndicators chars ++ '\n' :: blockLines indent true chars ++ ending

end DeltaLang.Yaml.Scalar
