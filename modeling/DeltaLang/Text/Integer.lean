import DeltaLang.Text.Hex

/-!
Whole numbers of 64 bits as they are written with an optional sign and an optional base: `0x` and
hexadecimal digits, `0b` and binary, `0o` or `0` and octal. An underscore may stand between digits
and behind the letter of a base.
-/

namespace DeltaLang.Integer

inductive Fault where
  | malformed
  | outOfRange
  deriving DecidableEq, Repr

/-- The base of a number without sign, and how many characters before its digits tell it. -/
def baseOf (text : List Char) : Nat × Nat :=
  match text with
  | '0' :: letter :: _ :: _ =>
    if letter = 'b' || letter = 'B' then (2, 2)
    else if letter = 'o' || letter = 'O' then (8, 2)
    else if letter = 'x' || letter = 'X' then (16, 2)
    else (8, 1)
  | '0' :: _ => (8, 1)
  | _ => (10, 0)

/-- The value of digits of a base that follow digits of the value `value`. -/
def digits (base : Nat) (text : List Char) (value : Nat) : Except Fault Nat :=
  match text with
  | [] => .ok value
  | c :: rest =>
    if c = '_' then digits base rest value
    else
      match (Hex.digit? c).filter (· < base) with
      | none => .error .malformed
      | some digit =>
        if value * base + digit < 0x10000000000000000 then digits base rest (value * base + digit)
        else .error .outOfRange

/-- Whether each underscore stands behind a digit or the letter of a base, and before a digit. -/
def separates (afterDigit : Bool) (text : List Char) : Bool :=
  match text with
  | [] => true
  | '_' :: '_' :: _ => false
  | ['_'] => false
  | '_' :: rest => afterDigit && separates false rest
  | _ :: rest => separates true rest

/-- A number without sign. -/
def unsigned (text : List Char) : Except Fault Nat :=
  if text.isEmpty then .error .malformed
  else do
    let (base, size) := baseOf text
    let value ← digits base (text.drop size) 0
    if separates (size != 0) (text.drop size) then .ok value else .error .malformed

/-- The value of digits of a base, of which there is at least one. -/
def ofDigits (base : Nat) (text : List Char) : Except Fault Nat :=
  if text.isEmpty then .error .malformed else digits base text 0

/-- A number with or without sign, where `magnitude` reads what follows the sign. -/
def withSign (magnitude : List Char → Except Fault Nat) (text : List Char) : Except Fault Int :=
  match text with
  | '-' :: rest => do
    let value ← magnitude rest
    if value ≤ 0x8000000000000000 then .ok (-(value : Int)) else .error .outOfRange
  | '+' :: rest => positive rest
  | rest => positive rest
where
  positive (text : List Char) : Except Fault Int := do
    let value ← magnitude text
    if value < 0x8000000000000000 then .ok (value : Int) else .error .outOfRange

/-- A number with or without sign. -/
def signed (text : List Char) : Except Fault Int :=
  withSign unsigned text

end DeltaLang.Integer
