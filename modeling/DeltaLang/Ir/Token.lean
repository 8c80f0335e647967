import DeltaLang.Ir.Keyword
import DeltaLang.Text.Hex
import DeltaLang.Text.Utf8

/-!
The tokens of IR text. Comments run from `;` to the end of the line. A token is as long as possible.
What makes no token is passed over: a word that means nothing, a sigil without a name, a quote that
is not closed, or a single character.
-/

namespace DeltaLang.Ir

/-- A name, or the number of a value without one. -/
inductive Ident where
  | named (name : String)
  | numbered (number : Nat)
  deriving DecidableEq, Repr

inductive Token where
  | globalIdent (ident : Ident)
  | localIdent (ident : Ident)
  | label (ident : Ident)
  | word (text : String)
  | integer
  | count (value : Nat)
  | float
  | string (bytes : List UInt8)
  | punctuation (c : Char)
  | ellipsis
  | comdat
  | attributeGroup
  | metadata
  deriving DecidableEq, Repr

namespace Token

def isSpace (c : Char) : Bool :=
  c = ' ' || c = '\t' || c = '\n' || c = '\r' || c.toNat = 0

def isLineEnd (c : Char) : Bool :=
  c = '\n' || c = '\r'

def isLetter (c : Char) : Bool :=
  ('a' ≤ c && c ≤ 'z') || ('A' ≤ c && c ≤ 'Z')

/-- The characters of names without quotes. -/
def isNameChar (c : Char) : Bool :=
  isLetter c || Decimal.isDigit c || c = '-' || c = '$' || c = '.' || c = '_'

/-- The bytes of a quoted text, where `\HH` stands for one byte. -/
def unescape : List Char → List UInt8
  | '\\' :: a :: b :: rest =>
    match Hex.digit? a, Hex.digit? b with
    | some high, some low => UInt8.ofNat (high * 16 + low) :: unescape rest
    | _, _ => 0x5C :: unescape (a :: b :: rest)
  | c :: rest => UInt8.ofNat c.toNat :: unescape rest
  | [] => []

def nameOf (text : List Char) : Ident :=
  .named (Utf8.toString (unescape text))

/-- The text up to the closing quote, and what follows it. -/
def quoted? (text : List Char) : Option (List Char × List Char) :=
  match text.dropWhile (· ≠ '"') with
  | _ :: rest => some (text.takeWhile (· ≠ '"'), rest)
  | [] => none

/-- A token, or nothing where there is none, and the text behind it. -/
abbrev Step :=
  Option Token × List Char

/-- The identifier behind a sigil. -/
def identifier (token : Ident → Token) (text : List Char) : Step :=
  match text with
  | '"' :: rest =>
    match quoted? rest with
    | some (name, rest) => (some (token (nameOf name)), rest)
    | none => (none, [])
  | c :: rest =>
    if Decimal.isDigit c then
      let (digits, rest) := (c :: rest).span Decimal.isDigit
      (some (token (.numbered (Decimal.value digits))), rest)
    else if isNameChar c then
      let (name, rest) := (c :: rest).span isNameChar
      (some (token (.named (String.ofList name))), rest)
    else (none, c :: rest)
  | [] => (none, [])

/-- A text in quotes, from behind the first quote. Before `:` it is a label. -/
def quotation (text : List Char) : Step :=
  match quoted? text with
  | some (name, ':' :: rest) => (some (.label (nameOf name)), rest)
  | some (content, rest) => (some (.string (unescape content)), rest)
  | none => (none, [])

/-- What follows `!`: a name, a number or nothing. -/
def metadataName (text : List Char) : Step :=
  let isChar (c : Char) : Bool := isNameChar c || c = '\\'
  match text with
  | c :: rest =>
    if Decimal.isDigit c then (some .metadata, rest.dropWhile Decimal.isDigit)
    else if isChar c then (some .metadata, rest.dropWhile isChar)
    else (some (.punctuation '!'), c :: rest)
  | [] => (some (.punctuation '!'), [])

/-- What follows `#`: a number. -/
def attributeName (text : List Char) : Step :=
  if text.head?.any Decimal.isDigit then (some .attributeGroup, text.dropWhile Decimal.isDigit)
  else (none, text)

/-- What follows an exponent at the front of a text, or the text itself if there is none. -/
def dropExponent (text : List Char) : List Char :=
  match text with
  | [] => []
  | mark :: rest =>
    let digits := Decimal.dropSign rest
    if (mark = 'e' || mark = 'E') && digits.head?.any Decimal.isDigit then
      digits.dropWhile Decimal.isDigit
    else text

/-- The size of the decimal fraction at the front of a text, 0 if there is none. -/
def fractionSize (text : List Char) : Nat :=
  let whole := Decimal.dropSign text
  match whole.dropWhile Decimal.isDigit with
  | '.' :: rest =>
    if whole.head?.any Decimal.isDigit then
      text.length - (dropExponent (rest.dropWhile Decimal.isDigit)).length
    else 0
  | _ => 0

def isHex (digits : List Char) : Bool :=
  !digits.isEmpty && digits.all fun c => (Hex.digit? c).isSome

def isInteger (word : List Char) : Bool :=
  match word with
  | '-' :: digits => !digits.isEmpty && digits.all Decimal.isDigit
  | 'u' :: '0' :: 'x' :: digits | 's' :: '0' :: 'x' :: digits => isHex digits
  | _ => false

/-- Whether a word gives the bits of a number with a fraction. -/
def isBits (word : List Char) : Bool :=
  match word with
  | '0' :: 'x' :: kind :: digits =>
    isHex (kind :: digits) || (['K', 'L', 'M', 'H'].contains kind && isHex digits)
  | _ => false

/-- Whether a word names a group of sections. -/
def isComdat (word : List Char) : Bool :=
  match word with
  | '$' :: c :: _ => !Decimal.isDigit c
  | _ => false

/-- The token that a word makes as a whole. -/
def ofWord? (word : List Char) : Option Token :=
  if word.all Decimal.isDigit then some (.count (Decimal.value word))
  else if isInteger word then some .integer
  else if isBits word then some .float
  else if word = ['.', '.', '.'] then some .ellipsis
  else if isComdat word then some .comdat
  else if isKeyword word then some (.word (String.ofList word))
  else none

/-- The longest token at the front of a word, and its size. -/
def longest? (word : List Char) : Option (Token × Nat) :=
  (List.range' 1 word.length).reverse.findSome? fun size =>
    (ofWord? (word.take size)).map fun token => (token, size)

def labelOf (word : List Char) : Token :=
  if word.all Decimal.isDigit then .label (.numbered (Decimal.value word))
  else .label (.named (String.ofList word))

/-- What begins with a character of names: a label, or the longest token that is there. -/
def wordToken (text : List Char) : Step :=
  let (run, rest) := text.span isNameChar
  match run, rest with
  | _, ':' :: rest => (some (labelOf run), rest)
  | ['$'], '"' :: rest =>
    match quoted? rest with
    | some (_, rest) => (some .comdat, rest)
    | none => (none, [])
  | _, _ =>
    match longest? run with
    | some (token, size) =>
      if size < fractionSize text then (some .float, text.drop (fractionSize text))
      else (some token, text.drop size)
    | none => (none, rest)

/-- What begins with `+`. -/
def signed (text : List Char) : Step :=
  match fractionSize text with
  | 0 => (none, (text.drop 1).dropWhile Decimal.isDigit)
  | size => (some .float, text.drop size)

def punctuationMarks : List Char :=
  ['=', ',', '(', ')', '[', ']', '\x7b', '\x7d', '<', '>', '*', '|']

/-- The token at the front of the text `c :: rest`. -/
def next (c : Char) (rest : List Char) : Step :=
  if c = '@' then identifier .globalIdent rest
  else if c = '%' then identifier .localIdent rest
  else if c = '"' then quotation rest
  else if c = '!' then metadataName rest
  else if c = '#' then attributeName rest
  else if c = '+' then signed (c :: rest)
  else if punctuationMarks.contains c then (some (.punctuation c), rest)
  else if isNameChar c then wordToken (c :: rest)
  else (none, rest)

/-- The tokens of a text. `fuel` bounds their number; the length of the text is enough. -/
def scan (fuel : Nat) (text : List Char) : List Token :=
  match fuel with
  | 0 => []
  | fuel + 1 =>
    match text.dropWhile isSpace with
    | [] => []
    | ';' :: rest => scan fuel (rest.dropWhile (!isLineEnd ·))
    | c :: rest =>
      let (token, rest) := next c rest
      token.toList ++ scan fuel rest

/-- The tokens of a text. Each byte counts as the character of its number, since only those of ASCII
matter outside of quotes. -/
def ofBytes (bytes : List UInt8) : List Token :=
  scan (bytes.length + 1) (bytes.map fun b => Char.ofNat b.toNat)

end Token

end DeltaLang.Ir
