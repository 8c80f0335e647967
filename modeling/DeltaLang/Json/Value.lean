import DeltaLang.Text.Decimal
import DeltaLang.Text.Hex
import DeltaLang.Text.Utf8

/-!
JSON values and how they are read. Fields keep their order, and a name may occur again. An escape
that is half of a surrogate pair reads as the replacement character.
-/

namespace DeltaLang.Json

inductive Value where
  | null
  | bool (value : Bool)
  | number (text : String)
  | string (text : String)
  | array (items : List Value)
  | object (fields : List (String × Value))
  deriving Inhabited, Repr

def isSpace (c : Char) : Bool :=
  c = ' ' || c = '\t' || c = '\n' || c = '\r'

def skipSpace (text : List Char) : List Char :=
  text.dropWhile isSpace

/-- The number that four hexadecimal digits stand for. -/
def unit? (a b c d : Char) : Option Nat := do
  let a ← Hex.digit? a
  let b ← Hex.digit? b
  let c ← Hex.digit? c
  let d ← Hex.digit? d
  some (((a * 16 + b) * 16 + c) * 16 + d)

/-- The character that a letter after a backslash stands for. -/
def escaped? (c : Char) : Option Char :=
  if c = '"' ∨ c = '\\' ∨ c = '/' then some c
  else if c = 'b' then some (Char.ofNat 0x08)
  else if c = 'f' then some (Char.ofNat 0x0C)
  else if c = 'n' then some '\n'
  else if c = 'r' then some '\r'
  else if c = 't' then some '\t'
  else none

def isHigh (unit : Nat) : Bool :=
  0xD800 ≤ unit && unit < 0xDC00

def isLow (unit : Nat) : Bool :=
  0xDC00 ≤ unit && unit < 0xE000

/-- A code unit that stands alone as a character. -/
def unitChar (unit : Nat) : Char :=
  if isHigh unit || isLow unit then Utf8.replacement else Char.ofNat unit

/-- A surrogate pair as a character. -/
def pairChar (high low : Nat) : Char :=
  Char.ofNat (0x10000 + (high - 0xD800) * 0x400 + (low - 0xDC00))

/-- The characters of a string from behind its opening quote, and what follows its closing one. -/
def string? : List Char → Option (List Char × List Char)
  | [] => none
  | '"' :: rest => some ([], rest)
  | '\\' :: 'u' :: a :: b :: c :: d :: rest => do
    let unit ← unit? a b c d
    match rest with
    | '\\' :: 'u' :: e :: f :: g :: h :: behind =>
      let second ← unit? e f g h
      if isHigh unit && isLow second then
        let (text, rest) ← string? behind
        some (pairChar unit second :: text, rest)
      else
        let (text, rest) ← string? ('\\' :: 'u' :: e :: f :: g :: h :: behind)
        some (unitChar unit :: text, rest)
    | rest =>
      let (text, rest) ← string? rest
      some (unitChar unit :: text, rest)
  | '\\' :: c :: rest => do
    let c ← escaped? c
    let (text, rest) ← string? rest
    some (c :: text, rest)
  | c :: rest =>
    if c.toNat < 0x20 ∨ c = '\\' then none
    else do
      let (text, rest) ← string? rest
      some (c :: text, rest)

/-- One digit or more. -/
def digits? (text : List Char) : Option (List Char × List Char) :=
  let digits := text.takeWhile Decimal.isDigit
  if digits.isEmpty then none else some (digits, text.dropWhile Decimal.isDigit)

/-- Digits without a superfluous zero in front. -/
def integer? (text : List Char) : Option (List Char × List Char) :=
  match text with
  | '0' :: rest => some (['0'], rest)
  | text => digits? text

def fraction? (text : List Char) : Option (List Char × List Char) :=
  match text with
  | '.' :: rest => do
    let (digits, rest) ← digits? rest
    some ('.' :: digits, rest)
  | text => some ([], text)

def exponent? (text : List Char) : Option (List Char × List Char) :=
  match text with
  | e :: rest =>
    if e = 'e' ∨ e = 'E' then do
      let (sign, rest) :=
        match rest with
        | '+' :: rest => (['+'], rest)
        | '-' :: rest => (['-'], rest)
        | rest => ([], rest)
      let (digits, rest) ← digits? rest
      some (e :: sign ++ digits, rest)
    else some ([], text)
  | [] => some ([], [])

def number? (text : List Char) : Option (List Char × List Char) := do
  let (sign, text) :=
    match text with
    | '-' :: rest => (['-'], rest)
    | text => ([], text)
  let (integer, text) ← integer? text
  let (fraction, text) ← fraction? text
  let (exponent, text) ← exponent? text
  some (sign ++ integer ++ fraction ++ exponent, text)

/-- What follows the given word. -/
def word? : List Char → List Char → Option (List Char)
  | [], text => some text
  | c :: word, d :: text => if c = d then word? word text else none
  | _ :: _, [] => none

mutual

/-- The value at the front of a text, and what follows it. `fuel` bounds the number of nested and
successive values; the length of the text is enough. -/
def value? (fuel : Nat) (text : List Char) : Option (Value × List Char) :=
  match fuel with
  | 0 => none
  | fuel + 1 =>
    match skipSpace text with
    | [] => none
    | '"' :: rest => do
      let (text, rest) ← string? rest
      some (.string (String.ofList text), rest)
    | '\x7b' :: rest =>
      match skipSpace rest with
      | '\x7d' :: rest => some (.object [], rest)
      | rest => do
        let (fields, rest) ← fields? fuel rest
        some (.object fields, rest)
    | '[' :: rest =>
      match skipSpace rest with
      | ']' :: rest => some (.array [], rest)
      | rest => do
        let (items, rest) ← items? fuel rest
        some (.array items, rest)
    | 'n' :: rest => do some (.null, ← word? ['u', 'l', 'l'] rest)
    | 't' :: rest => do some (.bool true, ← word? ['r', 'u', 'e'] rest)
    | 'f' :: rest => do some (.bool false, ← word? ['a', 'l', 's', 'e'] rest)
    | text => do
      let (digits, rest) ← number? text
      some (.number (String.ofList digits), rest)

/-- The fields of an object from the first one on, and what follows the closing brace. -/
def fields? (fuel : Nat) (text : List Char) : Option (List (String × Value) × List Char) :=
  match fuel with
  | 0 => none
  | fuel + 1 =>
    match skipSpace text with
    | '"' :: rest => do
      let (name, rest) ← string? rest
      match skipSpace rest with
      | ':' :: rest =>
        let (value, rest) ← value? fuel rest
        match skipSpace rest with
        | '\x7d' :: rest => some ([(String.ofList name, value)], rest)
        | ',' :: rest =>
          let (fields, rest) ← fields? fuel rest
          some ((String.ofList name, value) :: fields, rest)
        | _ => none
      | _ => none
    | _ => none

/-- The items of an array from the first one on, and what follows the closing bracket. -/
def items? (fuel : Nat) (text : List Char) : Option (List Value × List Char) :=
  match fuel with
  | 0 => none
  | fuel + 1 => do
    let (item, rest) ← value? fuel text
    match skipSpace rest with
    | ']' :: rest => some ([item], rest)
    | ',' :: rest =>
      let (items, rest) ← items? fuel rest
      some (item :: items, rest)
    | _ => none

end

/-- The value that a whole text stands for. -/
def parse? (text : List Char) : Option Value := do
  let (value, rest) ← value? (text.length + 1) text
  if (skipSpace rest).isEmpty then some value else none

end DeltaLang.Json
