import DeltaLang.Source
import DeltaLang.Primitive
import DeltaLang.Text.Utf8

/-!
Tokens. A token does not hold its text: its span points into the source.
-/

namespace DeltaLang

/-- The symbols of the language. `other` holds a code that names no symbol. -/
inductive Symbol where
  | arrow
  | addAssign
  | assign
  | add
  | greater
  | openParen
  | closeParen
  | openBrace
  | closeBrace
  | semicolon
  | other (code : Int)
  deriving DecidableEq, Repr

namespace Symbol

/-- Every symbol of the language. A symbol that begins with another comes before it, so the first
one that matches is the longest. -/
def all : List Symbol :=
  [.arrow, .addAssign, .assign, .add, .greater, .openParen, .closeParen, .openBrace, .closeBrace,
    .semicolon]

def code : Symbol → Int
  | .arrow => 0
  | .addAssign => 1
  | .assign => 2
  | .add => 3
  | .greater => 4
  | .openParen => 5
  | .closeParen => 6
  | .openBrace => 7
  | .closeBrace => 8
  | .semicolon => 9
  | .other code => code

def ofCode (c : Int) : Symbol :=
  (all.find? fun s => s.code = c).getD (.other c)

def spelling : Symbol → String
  | .arrow => "->"
  | .addAssign => "+="
  | .assign => "="
  | .add => "+"
  | .greater => ">"
  | .openParen => "("
  | .closeParen => ")"
  | .openBrace => "\x7b"
  | .closeBrace => "\x7d"
  | .semicolon => ";"
  | .other code => "SymbolKind(" ++ toString code ++ ")"

end Symbol

/-- The keywords of the language. `other` holds a code that names no keyword. -/
inductive Keyword where
  | function
  | declare
  | condition
  | result
  | other (code : Int)
  deriving DecidableEq, Repr

namespace Keyword

def all : List Keyword :=
  [.function, .declare, .condition, .result]

def code : Keyword → Int
  | .function => 0
  | .declare => 1
  | .condition => 2
  | .result => 3
  | .other code => code

def ofCode (c : Int) : Keyword :=
  (all.find? fun k => k.code = c).getD (.other c)

def spelling : Keyword → String
  | .function => "fn"
  | .declare => "let"
  | .condition => "if"
  | .result => "return"
  | .other code => "KeywordKind(" ++ toString code ++ ")"

end Keyword

namespace Token

/-- What a token is. `other` holds a code that names no kind of token. -/
inductive Kind where
  | literal (type : Primitive)
  | symbol (symbol : Symbol)
  | keyword (keyword : Keyword)
  | identifier
  | other (code : Int)
  deriving DecidableEq, Repr

namespace Kind

/-- The name of the kind of a token, empty for a code that names none. -/
def name : Kind → String
  | .literal _ => "LITERAL"
  | .symbol _ => "SYMBOL"
  | .keyword _ => "KEYWORD"
  | .identifier => "IDENTIFIER"
  | .other _ => ""

end Kind

end Token

structure Token where
  kind : Token.Kind
  span : Span
  location : Position
  deriving DecidableEq, Repr

namespace Token

/-- The bytes that a span points at, none if it does not lie within the source. -/
def bytes (t : Token) (source : List UInt8) : List UInt8 :=
  if 0 ≤ t.span.start ∧ t.span.start ≤ t.span.stop ∧ t.span.stop ≤ source.length then
    (source.drop t.span.start.toNat).take t.span.length.toNat
  else []

def text (t : Token) (source : List UInt8) : String :=
  Utf8.toString (t.bytes source)

/-- Names a token the way diagnostics show it. -/
def describe (t : Token) (source : List UInt8) : String :=
  match t.kind with
  | .symbol s => "symbol '" ++ s.spelling ++ "'"
  | .keyword k => "keyword '" ++ k.spelling ++ "'"
  | .literal type => type.name ++ " literal '" ++ t.text source ++ "'"
  | .identifier | .other _ => "identifier '" ++ t.text source ++ "'"

end Token

end DeltaLang
