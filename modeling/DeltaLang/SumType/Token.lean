import DeltaLang.Text.Letter
import DeltaLang.Text.Unquote

/-!
The tokens of sum type declarations. White space and comments, `//` to the end of the line and
`/* */`, separate tokens. A string token stands for the text between its quotes.
-/

namespace DeltaLang.SumType

inductive TokenKind where
  | identifier
  | string
  | other
  deriving DecidableEq, Repr

structure Token where
  kind : TokenKind
  text : String
  deriving DecidableEq, Repr

namespace Token

def isSpace (c : Char) : Bool :=
  c = ' ' || c = '\t' || c = '\n' || c = '\r'

def isIdentStart (c : Char) : Bool :=
  c = '_' || Letter.isLetter c

def isIdentChar (c : Char) : Bool :=
  isIdentStart c || Letter.isDigit c

/-- What follows a `/* */` comment, from behind its opening. -/
def skipComment? : List Char → Option (List Char)
  | '*' :: '/' :: rest => some rest
  | _ :: rest => skipComment? rest
  | [] => none

/-- A single quoted text is read like a string between double quotes. It counts as a string if it
has more than one character. -/
def character? (text : List Char) : Option (Token × List Char) := do
  let (_, rest) ← Unquote.body? '\'' (text.length + 1) text
  let inner := text.take (text.length - rest.length - 1)
  let (bytes, behind) ← Unquote.body? '"' (inner.length + 2) (inner ++ ['"'])
  if behind.isEmpty then
    let kind := if (Utf8.decode bytes).length > 1 then TokenKind.string else .other
    some (⟨kind, Utf8.toString bytes⟩, rest)
  else none

/-- The token at the front of a text, and what follows it. A number counts as one character, for
no number belongs into a declaration. -/
def next? (text : List Char) : Option (Token × List Char) :=
  match text with
  | '"' :: rest => do
    let (bytes, rest) ← Unquote.body? '"' (rest.length + 1) rest
    some (⟨.string, Utf8.toString bytes⟩, rest)
  | '\x60' :: rest => do
    let (chars, rest) ← Unquote.raw? rest
    some (⟨.string, String.ofList chars⟩, rest)
  | '\'' :: rest => character? rest
  | c :: rest =>
    if isIdentStart c then
      some (⟨.identifier, String.ofList ((c :: rest).takeWhile isIdentChar)⟩,
        (c :: rest).dropWhile isIdentChar)
    else some (⟨.other, c.toString⟩, rest)
  | [] => none

/-- The tokens of a text. `fuel` bounds their number; the length of the text is enough. -/
def scan? (fuel : Nat) (text : List Char) : Option (List Token) :=
  match fuel with
  | 0 => none
  | fuel + 1 =>
    match text.dropWhile isSpace with
    | [] => some []
    | '/' :: '/' :: rest => scan? fuel (rest.dropWhile (· ≠ '\n'))
    | '/' :: '*' :: rest => do
      let rest ← skipComment? rest
      scan? fuel rest
    | text => do
      let (token, rest) ← next? text
      let tokens ← scan? fuel rest
      some (token :: tokens)

/-- A byte order mark at the front of a text is ignored. -/
def ofText? (text : List Char) : Option (List Token) :=
  match text with
  | c :: rest => if c.toNat = 0xFEFF then scan? text.length rest else scan? (text.length + 1) text
  | [] => some []

end Token

end DeltaLang.SumType
