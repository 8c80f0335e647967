import DeltaLang.Literal
import Mathlib.Data.Nat.Digits.Defs
import Mathlib.Tactic.Ring

namespace DeltaLang.Literal

def digitValue (c : Char) : Nat :=
  c.toNat - '0'.toNat

/-- A text of decimal digits, and the number that they make by their places. -/
structure Numeral (text : String) (n : Nat) : Prop where
  filled : text ≠ ""
  digits : ∀ c ∈ text.toList, '0' ≤ c ∧ c ≤ '9'
  value : Nat.ofDigits 10 (text.toList.reverse.map digitValue) = n

/-- The number that a text of digits stands for, whatever its size. -/
def numeral? (text : String) : Option Nat :=
  if text ≠ "" ∧ text.toList.all fun c => '0' ≤ c && c ≤ '9' then
    some (Nat.ofDigits 10 (text.toList.reverse.map digitValue))
  else none

theorem numeral?_eq_some_iff {text : String} {n : Nat} :
    numeral? text = some n ↔ Numeral text n := by
  simp only [numeral?, List.all_eq_true, Bool.and_eq_true, decide_eq_true_eq]
  constructor
  · intro read
    split at read
    · next proper => exact ⟨proper.1, proper.2, Option.some.inj read⟩
    · cases read
  · intro numeral
    rw [if_pos ⟨numeral.filled, numeral.digits⟩, numeral.value]

/-- The number that digits go on to from `value`, whatever its size. -/
def goOn (value : Nat) (digits : List Char) : Nat :=
  digits.foldl (fun value c => value * 10 + (c.toNat - '0'.toNat)) value

theorem le_goOn (value : Nat) (digits : List Char) : value ≤ goOn value digits := by
  induction digits generalizing value with
  | nil => exact Nat.le_refl value
  | cons c rest ih =>
    have later := ih (value * 10 + (c.toNat - '0'.toNat))
    have step : goOn value (c :: rest) = goOn (value * 10 + (c.toNat - '0'.toNat)) rest := rfl
    omega

/-- Reading stops at the first value that is too large. No text is lost by that, for a value never
gets smaller again. -/
theorem digits?_eq_some_iff {value n : Nat} {digits : List Char} (small : value < 2 ^ 32) :
    digits? value digits = some n ↔
      (∀ c ∈ digits, Decimal.isDigit c = true) ∧ goOn value digits = n ∧ n < 2 ^ 32 := by
  induction digits generalizing value with
  | nil =>
    simp only [digits?, goOn, List.foldl_nil, Option.some.injEq]
    constructor
    · rintro rfl
      exact ⟨by simp, rfl, small⟩
    · intro read
      exact read.2.1
  | cons c rest ih =>
    have step : goOn value (c :: rest) = goOn (value * 10 + (c.toNat - '0'.toNat)) rest := rfl
    rw [step, List.forall_mem_cons]
    simp only [digits?]
    by_cases digit : Decimal.isDigit c = true
    · by_cases fits : value * 10 + (c.toNat - '0'.toNat) < 0x100000000
      · simp only [digit, fits, decide_true, Bool.and_self, ↓reduceIte, true_and]
        exact ih fits
      · simp only [digit, fits, decide_false, Bool.and_false, Bool.false_eq_true, ↓reduceIte,
          reduceCtorEq, true_and, false_iff]
        -- the value that was too large here is at most the value of the whole text
        rintro ⟨-, rfl, bounded⟩
        have grown := le_goOn (value * 10 + (c.toNat - '0'.toNat)) rest
        omega
    · simp [digit]

theorem number?_eq_some_iff {text : String} {n : Nat} :
    number? text = some n ↔ text ≠ "" ∧ (∀ c ∈ text.toList, Decimal.isDigit c = true) ∧
      Decimal.value text.toList = n ∧ n < 2 ^ 32 := by
  unfold number?
  by_cases empty : text = ""
  · simp [empty]
  · have filled : text.isEmpty = false := by simpa using empty
    rw [filled, if_neg Bool.false_ne_true, digits?_eq_some_iff (by decide)]
    exact ⟨fun read => ⟨empty, read⟩, fun read => read.2⟩

/-- Reading from the left moves what has been read by one place for each digit. -/
theorem goOn_eq_ofDigits (value : Nat) (digits : List Char) :
    goOn value digits =
      value * 10 ^ digits.length + Nat.ofDigits 10 (digits.reverse.map digitValue) := by
  induction digits generalizing value with
  | nil => simp [goOn]
  | cons c rest ih =>
    have step : goOn value (c :: rest) = goOn (value * 10 + digitValue c) rest := rfl
    rw [step, ih, List.reverse_cons, List.map_append, Nat.ofDigits_append, List.length_map,
      List.length_reverse, List.map_singleton, Nat.ofDigits_singleton, List.length_cons]
    ring

theorem value_eq_ofDigits (digits : List Char) :
    Decimal.value digits = Nat.ofDigits 10 (digits.reverse.map digitValue) := by
  have whole := goOn_eq_ofDigits 0 digits
  rwa [Nat.zero_mul, Nat.zero_add] at whole

theorem isDigit_iff {c : Char} : Decimal.isDigit c = true ↔ '0' ≤ c ∧ c ≤ '9' := by
  simp [Decimal.isDigit]

theorem number?_eq_some_iff_numeral {text : String} {n : Nat} :
    number? text = some n ↔ Numeral text n ∧ n < 2 ^ 32 := by
  rw [number?_eq_some_iff, value_eq_ofDigits]
  simp only [isDigit_iff]
  constructor
  · rintro ⟨filled, digits, value, small⟩
    exact ⟨⟨filled, digits, value⟩, small⟩
  · rintro ⟨⟨filled, digits, value⟩, small⟩
    exact ⟨filled, digits, value, small⟩

/-- The digits of a number are a numeral for it. -/
theorem numeral?_toDigits (n : Nat) :
    numeral? (String.ofList (Nat.toDigits 10 n)) = some n := by
  have fold : Decimal.value (Nat.toDigits 10 n) = Nat.ofDigitChars 10 (Nat.toDigits 10 n) 0 := by
    simp only [Decimal.value, Nat.ofDigitChars, Nat.mul_comm]
  rw [numeral?_eq_some_iff]
  refine ⟨?_, ?_, ?_⟩
  · intro empty
    exact Nat.toDigits_ne_nil (String.ofList_eq_empty_iff.mp empty)
  · intro c member
    rw [String.toList_ofList] at member
    have digit : Decimal.isDigit c = true :=
      Nat.isDigit_of_mem_toDigits (by decide) (by decide) member
    exact isDigit_iff.mp digit
  · rw [String.toList_ofList, ← value_eq_ofDigits, fold]
    exact Nat.ofDigitChars_toDigits (by decide) (by decide)

end DeltaLang.Literal
