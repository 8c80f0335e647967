import DeltaLang.Text.Decimal
import DeltaLang.Text.Integer

/-!
What a scalar without quotes stands for. Words for nothing and for truth values, numbers and points
in time are no texts, so a text that looks like one of them is written with quotes.
-/

namespace DeltaLang.Yaml.Scalar

/-- A word in lower case, with a capital first letter, and in capitals. -/
def cases (word : String) : List String :=
  [word, word.capitalize, word.map Char.toUpper]

def nullWords : List String :=
  "" :: "~" :: cases "null"

def truthWords : List String :=
  ["y", "Y", "n", "N"] ++ (["yes", "true", "on", "no", "false", "off"].map cases).flatten

def numberWords : List String :=
  [".nan", ".NaN", ".NAN"] ++
    (["", "+", "-"].map fun sign => [".inf", ".Inf", ".INF"].map (sign ++ ·)).flatten

/-- A run of digits, and what follows it. -/
def spanDigits (text : List Char) : List Char × List Char :=
  text.span Decimal.isDigit

/-- The least value that has no double next to it but infinity. -/
def floatLimit : Nat :=
  Nat.pow 2 1024 - Nat.pow 2 970

/-- Whether `mantissa * 10 ^ (exponent - scale)` rounds to a finite double. -/
def isFinite (mantissa scale exponent : Nat) (negative : Bool) : Bool :=
  let exponent := min exponent 10000
  if negative then mantissa < floatLimit * Nat.pow 10 (scale + exponent)
  else mantissa * Nat.pow 10 exponent < floatLimit * Nat.pow 10 scale

/-- Whether a text is a decimal fraction, with an exponent or without, that is a finite double. -/
def isFraction (text : List Char) : Bool :=
  let (whole, rest) := spanDigits (Decimal.dropSign text)
  let (part, rest) :=
    match rest with
    | '.' :: rest => spanDigits rest
    | rest => ([], rest)
  if whole.isEmpty && part.isEmpty then false
  else
    let mantissa := Decimal.value (whole ++ part)
    match rest with
    | [] => isFinite mantissa part.length 0 false
    | mark :: power =>
      let digits := Decimal.dropSign power
      (mark = 'e' || mark = 'E') && !digits.isEmpty && digits.all Decimal.isDigit &&
        isFinite mantissa part.length (Decimal.value digits) (power.head? == some '-')

/-- Whether each underscore stands between two digits. `afterDigit` says that a digit comes before
the text. -/
def separatesDigits (afterDigit : Bool) (text : List Char) : Bool :=
  match text with
  | [] => true
  | c :: rest =>
    (c != '_' || (afterDigit && rest.head?.any Decimal.isDigit)) &&
      separatesDigits (Decimal.isDigit c) rest

/-- Whether a text is a binary number with a sign behind its base. -/
def isSignedBinary (text : List Char) : Bool :=
  match text with
  | '0' :: 'b' :: rest => (Integer.withSign (Integer.ofDigits 2) rest).isOk
  | _ => false

/-- What a scalar without quotes and without tag stands for. -/
inductive Kind where
  | null
  | truth
  /-- A whole number, and whether it is one of 64 bits with a sign. -/
  | integer (isSigned : Bool)
  | fraction
  | time
  | text
  deriving DecidableEq, Repr

/-- What kind of number a text is. Underscores may stand anywhere behind the first character, but
in a text that begins with its point only between digits. -/
def numberKind? (text : List Char) : Option Kind :=
  let bare := text.filter (· ≠ '_')
  match text with
  | [] => none
  | '.' :: _ => if separatesDigits false text && isFraction bare then some .fraction else none
  | c :: _ =>
    if !(c = '+' || c = '-' || Decimal.isDigit c) then none
    else if (Integer.signed bare).isOk || isSignedBinary bare then some (.integer true)
    else if (Integer.unsigned bare).isOk then some (.integer false)
    else if isFraction bare then some .fraction
    else none

/-- A number of one digit or two, and what follows it. -/
def short? (text : List Char) : Option (Nat × List Char) :=
  match spanDigits (text.take 2) with
  | ([], _) => none
  | (digits, _) => some (Decimal.value digits, text.drop digits.length)

def daysIn (year month : Nat) : Nat :=
  if month = 2 then if year % 4 = 0 && (year % 100 != 0 || year % 400 = 0) then 29 else 28
  else if month = 4 || month = 6 || month = 9 || month = 11 then 30
  else 31

/-- A day of the calendar, and what follows it. -/
def date? (text : List Char) : Option (List Char) := do
  let (year, rest) := spanDigits text
  if year.length != 4 then none
  match rest with
  | '-' :: rest =>
    let (month, rest) ← short? rest
    match rest with
    | '-' :: rest =>
      let (day, rest) ← short? rest
      let isDay := 1 ≤ day && day ≤ daysIn (Decimal.value year) month
      if 1 ≤ month && month ≤ 12 && isDay then some rest else none
    | _ => none
  | _ => none

/-- A time of the day, to any fraction of a second, and what follows it. -/
def clock? (text : List Char) : Option (List Char) := do
  let (hour, rest) ← short? text
  match rest with
  | ':' :: rest =>
    let (minute, rest) ← short? rest
    match rest with
    | ':' :: rest =>
      let (second, rest) ← short? rest
      if hour < 24 && minute < 60 && second < 60 then
        match rest with
        | [] => some []
        | mark :: part =>
          let hasFraction := (mark = '.' || mark = ',') && !(spanDigits part).1.isEmpty
          some (if hasFraction then (spanDigits part).2 else rest)
      else none
    | _ => none
  | _ => none

/-- Whether a text is the distance of a time zone. -/
def isZone (text : List Char) : Bool :=
  match text with
  | ['Z'] => true
  | [sign, a, b, ':', c, d] =>
    (sign = '+' || sign = '-') && [a, b, c, d].all Decimal.isDigit && Decimal.value [a, b] ≤ 24 &&
      Decimal.value [c, d] ≤ 60
  | _ => false

/-- Whether a text is a day, or a point in time. -/
def isTime (text : List Char) : Bool :=
  match date? text with
  | none => false
  | some [] => true
  | some (mark :: rest) =>
    if mark = 'T' || mark = 't' then (clock? rest).any isZone
    else mark = ' ' && clock? (rest.dropWhile (· = ' ')) == some []

/-- What a scalar without quotes and without tag stands for. -/
def kindOf (text : String) : Kind :=
  if nullWords.contains text then .null
  else if truthWords.contains text then .truth
  else if numberWords.contains text then .fraction
  else if isTime text.toList then .time
  else (numberKind? text.toList).getD .text

/-- Whether a scalar without quotes is a text. -/
def readsAsText (text : String) : Bool :=
  kindOf text = .text

/-- Whether a text looks like a number of base 60, which some readers know. -/
def isSexagesimal (text : List Char) : Bool :=
  let (main, fraction) := (Decimal.dropSign text).span (· ≠ '.')
  let isLoose (c : Char) : Bool := Decimal.isDigit c || c = '_'
  let isPart (group : List Char) : Bool :=
    match group with
    | [d] => Decimal.isDigit d
    | [a, b] => Decimal.isDigit a && a ≤ '5' && Decimal.isDigit b
    | _ => false
  match main.splitOn ':' with
  | (d :: digits) :: group :: groups =>
    Decimal.isDigit d && digits.all isLoose && (group :: groups).all isPart &&
      (fraction.drop 1).all isLoose
  | _ => false

end DeltaLang.Yaml.Scalar
