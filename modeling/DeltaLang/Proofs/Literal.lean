import DeltaLang.Assembly.Lowering
import DeltaLang.Ir.Lowering
import DeltaLang.Proofs.Acceptance

namespace DeltaLang.Literal

/-- A text that is valid for a literal of a type. Only numbers and truth values have literals. -/
def Valid (text : String) : Primitive → Prop
  | .number => text ≠ "" ∧ (∀ c ∈ text.toList, Decimal.isDigit c = true) ∧
      Decimal.value text.toList < 2 ^ 32
  | .boolean => text ∈
      ["1", "t", "T", "TRUE", "true", "True", "0", "f", "F", "FALSE", "false", "False"]
  | .void => False
  | .other _ => False

/-- A literal has a value exactly if its text is valid for its type. -/
theorem constant_ok_iff {text : String} {type : Primitive} :
    (∃ value, constant text type = .ok value) ↔ Valid text type := by
  simp only [constant_eq_ok]
  cases type with
  | number =>
    simp only [constant?, Option.map_eq_some_iff, number?_eq_some_iff, Valid]
    constructor
    · rintro ⟨_, n, ⟨filled, digits, rfl, small⟩, -⟩
      exact ⟨filled, digits, small⟩
    · rintro ⟨filled, digits, small⟩
      exact ⟨_, _, ⟨filled, digits, rfl, small⟩, rfl⟩
  | boolean =>
    have spellings : Valid text .boolean ↔ text ∈ truths ∨ text ∈ falsehoods :=
      List.mem_append (s := truths) (t := falsehoods)
    simp only [spellings, constant?, boolean?]
    by_cases truth : text ∈ truths
    · simp [truth]
    · by_cases falsehood : text ∈ falsehoods <;> simp [truth, falsehood]
  | void => simp [constant?, Valid]
  | other code => simp [constant?, Valid]

theorem Valid.width {text : String} {type : Primitive} (valid : Valid text type) :
    ∃ width, type.width? = some width := by
  cases type with
  | number => exact ⟨4, rfl⟩
  | boolean => exact ⟨1, rfl⟩
  | void => exact valid.elim
  | other code => exact valid.elim

/-- The answer to a number literal, which is a number or a fault. -/
def readNumber (text : String) : Except Error Nat :=
  match number? text with
  | some n => .ok n
  | none => .error (.invalidLiteral text .number)

theorem readNumber_eq_ok {text : String} {n : Nat} :
    readNumber text = .ok n ↔ Numeral text n ∧ n < 2 ^ 32 := by
  rw [← number?_eq_some_iff_numeral]
  unfold readNumber
  split <;> simp_all

theorem readNumber_eq_error {text : String} {fault : Error}
    (refused : readNumber text = .error fault) : fault = .invalidLiteral text .number := by
  unfold readNumber at refused
  split at refused
  · cases refused
  · cases refused
    rfl

theorem constant_number (text : String) :
    constant text .number = (readNumber text).map .number := by
  unfold constant constant? readNumber
  cases number? text <;> rfl

/-- A number literal has an answer: the value of a numeral below 2 ^ 32, of any length, and for
every other text the fault that the literal is invalid. Wherever a number may stand, both back ends
give this answer, in IR as a constant of 32 bits. -/
theorem number_literals_exact (text : String) :
    ∃ answer : Except Error Nat,
      (∀ n, answer = .ok n ↔ Numeral text n ∧ n < 2 ^ 32) ∧
      (∀ fault, answer = .error fault → fault = .invalidLiteral text .number) ∧
      constant text .number = answer.map .number ∧
      (∀ bound comparison, Assembly.operand bound (.lit text .number) comparison =
        answer.map fun n => .immediate n) ∧
      (∀ bound (target : Slot), target.type = .number →
        Assembly.store bound (.lit text .number) target =
          answer.map fun n => [.mov .long (.immediate n) (.frame target.offset)]) ∧
      (∀ state comparison, Ir.operand state (.lit text .number) comparison =
        answer.map fun n => (.constant (.number n), state)) ∧
      (∀ state (target : Ir.Cell), target.kind = .number →
        Ir.store state (.lit text .number) target =
          answer.map fun n => state.emit (.store (.constant (.number n)) target)) ∧
      ∀ n, (Ir.Value.constant (.number n)).type = .i32 := by
  refine ⟨readNumber text, fun n => readNumber_eq_ok, fun fault => readNumber_eq_error,
    constant_number text, ?_, ?_, ?_, ?_, fun n => rfl⟩
  · intro bound comparison
    simp only [Assembly.operand, constant_number]
    cases readNumber text <;> rfl
  · intro bound target number
    have long : Assembly.moveWidth target = .long := by
      simp [Assembly.moveWidth, Slot.width, number, Primitive.width?]
    simp only [Assembly.store, number, constant_number, long]
    cases readNumber text <;> rfl
  · intro state comparison
    simp only [Ir.operand, constant_number]
    cases readNumber text <;> rfl
  · intro state target number
    simp only [Ir.store, number, constant_number]
    cases readNumber text <;> rfl

end DeltaLang.Literal
