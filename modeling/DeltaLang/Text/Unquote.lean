import DeltaLang.Text.Hex
import DeltaLang.Text.Utf8

/-!
What a quoted text stands for.
-/

namespace DeltaLang.Unquote

/-- A number of `count` digits of a base, and what follows it. -/
def digits? (base : Nat) : Nat → Nat → List Char → Option (Nat × List Char)
  | 0, value, rest => some (value, rest)
  | count + 1, value, c :: rest => do
    let digit ← Hex.digit? c
    if digit < base then digits? base count (value * base + digit) rest else none
  | _ + 1, _, [] => none

/-- A code point, which is no surrogate. -/
def codePoint? (value : Nat) : Option (List UInt8) :=
  if value < 0xD800 ∨ (0xE000 ≤ value ∧ value < 0x110000) then
    some (String.utf8EncodeChar (Char.ofNat value))
  else none

/-- The bytes of an escape from behind its backslash, and what follows it. -/
def escape? (quote : Char) (text : List Char) : Option (List UInt8 × List Char) :=
  match text with
  | [] => none
  | c :: rest =>
    if c = 'a' then some ([0x07], rest)
    else if c = 'b' then some ([0x08], rest)
    else if c = 'f' then some ([0x0C], rest)
    else if c = 'n' then some ([0x0A], rest)
    else if c = 'r' then some ([0x0D], rest)
    else if c = 't' then some ([0x09], rest)
    else if c = 'v' then some ([0x0B], rest)
    else if c = '\\' then some ([0x5C], rest)
    else if c = quote then some (String.utf8EncodeChar c, rest)
    else if c = 'x' then do
      let (value, rest) ← digits? 16 2 0 rest
      some ([UInt8.ofNat value], rest)
    else if c = 'u' then do
      let (value, rest) ← digits? 16 4 0 rest
      some (← codePoint? value, rest)
    else if c = 'U' then do
      let (value, rest) ← digits? 16 8 0 rest
      some (← codePoint? value, rest)
    else do
      let (value, rest) ← digits? 8 3 0 (c :: rest)
      if value < 0x100 then some ([UInt8.ofNat value], rest) else none

/-- The bytes up to the closing quote, and what follows it. `fuel` bounds the number of characters
in between. -/
def body? (quote : Char) (fuel : Nat) (text : List Char) : Option (List UInt8 × List Char) :=
  match fuel with
  | 0 => none
  | fuel + 1 =>
    match text with
    | [] => none
    | c :: rest =>
      if c = quote then some ([], rest)
      else if c = '\n' then none
      else if c = '\\' then do
        let (first, rest) ← escape? quote rest
        let (others, rest) ← body? quote fuel rest
        some (first ++ others, rest)
      else do
        let (others, rest) ← body? quote fuel rest
        some (String.utf8EncodeChar c ++ others, rest)

/-- The text of a raw string up to the closing backquote, and what follows it. -/
def raw? (text : List Char) : Option (List Char × List Char) :=
  match text.dropWhile (· ≠ '\x60') with
  | _ :: rest => some (text.takeWhile (· ≠ '\x60'), rest)
  | [] => none

/-- What a text that is quoted as a whole stands for. Single quotes hold one character. -/
def unquote? (text : String) : Option String :=
  match text.toList with
  | '"' :: rest => do
    let (bytes, rest) ← body? '"' (rest.length + 1) rest
    if rest.isEmpty then some (Utf8.toString bytes) else none
  | '\'' :: rest => do
    let (bytes, rest) ← body? '\'' (rest.length + 1) rest
    if rest.isEmpty && (Utf8.decode bytes).length == 1 then some (Utf8.toString bytes) else none
  | '\x60' :: rest => do
    let (chars, rest) ← raw? rest
    if rest.isEmpty then some (String.ofList (chars.filter (· ≠ '\r'))) else none
  | _ => none

end DeltaLang.Unquote
