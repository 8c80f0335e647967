import DeltaLang.SumType.Token

/-!
Declarations of types: a plain type is another name for a type expression, and a sum type has
variants.

    file        := declaration*
    declaration := `type` identifier `=` (kind | variant+) `;`
    variant     := `|` identifier `of` kind
    kind        := identifier | string

The words and signs of the grammar match any token with that text.
-/

namespace DeltaLang.SumType

/-- A variant, with the type of the values it holds. -/
structure Variant where
  name : String
  kind : String
  deriving DecidableEq, Repr

inductive Definition where
  | plain (kind : String)
  | sum (variants : List Variant)
  deriving DecidableEq, Repr

structure Declaration where
  name : String
  definition : Definition
  deriving DecidableEq, Repr

namespace Declaration

/-- What follows a word or sign. -/
def sign? (text : String) : List Token → Option (List Token)
  | t :: rest => if t.text = text then some rest else none
  | [] => none

def identifier? : List Token → Option (String × List Token)
  | t :: rest => if t.kind = .identifier then some (t.text, rest) else none
  | [] => none

def kind? : List Token → Option (String × List Token)
  | t :: rest => if t.kind = .identifier ∨ t.kind = .string then some (t.text, rest) else none
  | [] => none

/-- A variant takes four tokens. -/
def variant? (tokens : List Token) : Option (Variant × List Token) := do
  let rest ← sign? "|" tokens
  let (name, rest) ← identifier? rest
  let rest ← sign? "of" rest
  let (kind, rest) ← kind? rest
  some (⟨name, kind⟩, rest)

/-- The variants at the front of a token list, as many as there are. -/
def variants (fuel : Nat) (tokens : List Token) : List Variant × List Token :=
  match fuel with
  | 0 => ([], tokens)
  | fuel + 1 =>
    match variant? tokens with
    | none => ([], tokens)
    | some (first, rest) =>
      let (others, rest) := variants fuel rest
      (first :: others, rest)

def definition? (tokens : List Token) : Option (Definition × List Token) :=
  match kind? tokens with
  | some (kind, rest) => some (.plain kind, rest)
  | none =>
    match variants tokens.length tokens with
    | ([], _) => none
    | (found, rest) => some (.sum found, rest)

def declaration? (tokens : List Token) : Option (Declaration × List Token) := do
  let rest ← sign? "type" tokens
  let (name, rest) ← identifier? rest
  let rest ← sign? "=" rest
  let (definition, rest) ← definition? rest
  let rest ← sign? ";" rest
  some (⟨name, definition⟩, rest)

/-- The declarations of a token list, which has to hold nothing else. -/
def declarations? (fuel : Nat) (tokens : List Token) : Option (List Declaration) :=
  match fuel with
  | 0 => none
  | fuel + 1 =>
    match tokens with
    | [] => some []
    | tokens => do
      let (first, rest) ← declaration? tokens
      let others ← declarations? fuel rest
      some (first :: others)

/-- The declarations of a file. -/
def parse? (text : List Char) : Option (List Declaration) := do
  let tokens ← Token.ofText? text
  declarations? (tokens.length + 1) tokens

end Declaration

end DeltaLang.SumType
