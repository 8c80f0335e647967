import DeltaLang.Text.Hex
import DeltaLang.Yaml.Character

/-!
Tags as they are written, and the names that they stand for.
-/

namespace DeltaLang.Yaml

/-- A suffix, and the handle before it, which stands for the beginning of the name. A name that is
written out has no handle. -/
structure Tag where
  handle : String
  suffix : String
  deriving DecidableEq, Repr

namespace Tag

/-- Characters of suffixes. -/
def isSuffixChar (c : Char) : Bool :=
  isWordChar c || ";/?:@&=+$,.!~*'()[]".toList.contains c

/-- How many octets follow an octet that begins a character. -/
def trailing? (octet : Nat) : Option Nat :=
  if octet < 0x80 then some 0
  else if octet < 0xC0 then none
  else if octet < 0xE0 then some 1
  else if octet < 0xF0 then some 2
  else if octet < 0xF8 then some 3
  else none

/-- Reads a suffix, in which `%` and two digits stand for an octet. `missing` octets have to follow
before anything else. -/
def suffix? (missing : Nat) (text : List Char) : Option (List Char × List Char) :=
  match text with
  | '%' :: a :: b :: rest => do
    let high ← Hex.digit? a
    let low ← Hex.digit? b
    let octet := high * 16 + low
    let missing ←
      match missing with
      | 0 => trailing? octet
      | n + 1 => if octet / 64 = 2 then some n else none
    let (suffix, rest) ← suffix? missing rest
    some (Char.ofNat octet :: suffix, rest)
  | text =>
    match missing, text with
    | _ + 1, _ => none
    | 0, [] => some ([], [])
    | 0, c :: rest =>
      if c = '%' then none
      else if isSuffixChar c then do
        let (suffix, rest) ← suffix? 0 rest
        some (c :: suffix, rest)
      else some ([], c :: rest)

/-- Reads `!`, with a word behind it and one more `!` behind the word if they are there. -/
def handle? (text : List Char) : Option (List Char × List Char) :=
  match text with
  | '!' :: rest =>
    let word := rest.takeWhile isWordChar
    match rest.drop word.length with
    | '!' :: rest => some ('!' :: word ++ ['!'], rest)
    | rest => some ('!' :: word, rest)
  | _ => none

/-- Whether what has been read as a handle is one. -/
def isHandle (text : List Char) : Bool :=
  1 < text.length && text.getLast? == some '!'

/-- Reads a tag. -/
def read? (text : List Char) : Option (Tag × List Char) :=
  match text with
  | '!' :: '<' :: rest => do
    let (name, rest) ← suffix? 0 rest
    match rest with
    | '>' :: rest => if name.isEmpty then none else some (⟨"", String.ofList name⟩, rest)
    | _ => none
  | _ => do
    let (handle, rest) ← handle? text
    let (suffix, rest) ← suffix? 0 rest
    if isHandle handle then
      if suffix.isEmpty then none
      else some (⟨String.ofList handle, String.ofList suffix⟩, rest)
    else
      match handle.drop 1 ++ suffix with
      | [] => some (⟨"", "!"⟩, rest)
      | name => some (⟨"!", String.ofList name⟩, rest)

/-- What the names of the common tags begin with. -/
def common : String :=
  "tag:yaml.org,2002:"

/-- The handles that need no directive. -/
def commonHandles : List (String × String) :=
  [("!", "!"), ("!!", common)]

/-- The name that a tag stands for. The first of several meanings of a handle counts. -/
def name? (handles : List (String × String)) (tag : Tag) : Option String :=
  if tag.handle.isEmpty then some tag.suffix
  else (handles.lookup tag.handle).map (· ++ tag.suffix)

end Tag

end DeltaLang.Yaml
