import DeltaLang.Text.Utf8
import DeltaLang.Yaml.Character

/-!
The characters of a YAML text. Bytes are read in blocks, and a block is looked at only when its
characters are called for. So bytes that are no text do no harm behind the blocks that are needed.
-/

namespace DeltaLang.Yaml

inductive Encoding where
  | utf8
  | utf16 (bigEndian : Bool)
  deriving DecidableEq, Repr

namespace Encoding

/-- The encoding that a byte order mark tells, and the size of the mark. -/
def ofMark (bytes : List UInt8) : Encoding × Nat :=
  match bytes with
  | 0xFF :: 0xFE :: _ => (.utf16 false, 2)
  | 0xFE :: 0xFF :: _ => (.utf16 true, 2)
  | 0xEF :: 0xBB :: 0xBF :: _ => (.utf8, 3)
  | _ => (.utf8, 0)

/-- The size of a sequence of UTF-8 by its leading byte, 1 for a byte that leads none. -/
def utf8Size (lead : UInt8) : Nat :=
  if lead < 0xC0 then 1 else if lead < 0xE0 then 2 else if lead < 0xF0 then 3
  else if lead < 0xF8 then 4 else 1

/-- The size of the sequence at the front of `lead :: rest`, and its character if it is well
formed. -/
def utf8Front (lead : UInt8) (rest : List UInt8) : Nat × Option Char :=
  let size := utf8Size lead
  let (c, used) := Utf8.front lead rest
  let isLone := size == 1 && 0x80 ≤ lead
  (size, if used == size && !isLone then some c else none)

/-- A unit of UTF-16. -/
def unit (bigEndian : Bool) (a b : UInt8) : Nat :=
  if bigEndian then a.toNat * 256 + b.toNat else b.toNat * 256 + a.toNat

/-- The size of the sequence at the front of `lead :: rest`, and its character if it is well formed:
one unit, or a high surrogate with a low one. -/
def utf16Front (bigEndian : Bool) (lead : UInt8) (rest : List UInt8) : Nat × Option Char :=
  match rest with
  | [] => (2, none)
  | b :: rest =>
    let first := unit bigEndian lead b
    if first < 0xD800 || 0xE000 ≤ first then (2, some (Char.ofNat first))
    else if 0xDC00 ≤ first then (2, none)
    else
      match rest with
      | c :: d :: _ =>
        let second := unit bigEndian c d
        if 0xDC00 ≤ second && second < 0xE000 then
          (4, some (Char.ofNat (0x10000 + (first - 0xD800) * 0x400 + (second - 0xDC00))))
        else (4, none)
      | _ => (4, none)

def front (encoding : Encoding) (lead : UInt8) (rest : List UInt8) : Nat × Option Char :=
  match encoding with
  | .utf8 => utf8Front lead rest
  | .utf16 bigEndian => utf16Front bigEndian lead rest

end Encoding

/-- How many bytes are read at once. -/
def blockSize : Nat :=
  512

/-- The characters of a text as far as it can be read. -/
structure Input where
  /-- The characters of each block. -/
  blocks : List (List Char)
  /-- Whether no bytes are left, which would be no text. -/
  isWhole : Bool
  deriving DecidableEq, Repr

namespace Input

/-- Reads bytes as characters. `room` is what is left of the block that holds `block` so far, and
`blocks` are the blocks before it. A character that does not fit goes to the next block. A block
that holds no text is lost as a whole. -/
def read (encoding : Encoding) (room : Nat) (blocks : List (List Char)) (block : List Char)
    (bytes : List UInt8) : Input :=
  match bytes with
  | [] => ⟨blocks ++ [block], true⟩
  | lead :: rest =>
    let (size, char) := encoding.front lead rest
    match char.filter isAllowed with
    | some c =>
      if size ≤ room then
        read encoding (room - size) blocks (block ++ [c]) (rest.drop (size - 1))
      else read encoding (blockSize - size) (blocks ++ [block]) [c] (rest.drop (size - 1))
    | none =>
      if size ≤ room && size ≤ rest.length + 1 then ⟨blocks, false⟩ else ⟨blocks ++ [block], false⟩
termination_by bytes.length
decreasing_by all_goals simp only [List.length_drop, List.length_cons]; omega

/-- Reads a text with its byte order mark, if it has one. -/
def ofBytes (bytes : List UInt8) : Input :=
  let (encoding, size) := Encoding.ofMark bytes
  read encoding (blockSize - size) [] [] (bytes.drop size)

/-- The characters with line ends in their common form. -/
def text (input : Input) : List Char :=
  normalize input.blocks.flatten

/-- How many characters can be read, if there is no more to read than that. -/
def limit? (input : Input) : Option Nat :=
  if input.isWhole then none else some input.text.length

/-- The size of the first block, if it begins with a second byte order mark. -/
def marked (input : Input) : Nat :=
  match input.blocks.head? with
  | some (c :: rest) => if c = byteOrderMark then (normalize (c :: rest)).length else 0
  | _ => 0

end Input

end DeltaLang.Yaml
