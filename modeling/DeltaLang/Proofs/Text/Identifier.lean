import DeltaLang.Proofs.Acceptance
import DeltaLang.Proofs.Numeral
import DeltaLang.Proofs.Text.Utf8
import Mathlib.Data.List.Basic

namespace DeltaLang

theorem letter_not_digit {c : Char} (letter : (c.isAlpha || c = '_') = true) :
    c.isDigit = false := by
  rw [← Bool.not_eq_true]
  intro digit
  simp only [Utf8.isAlpha_iff, Char.isDigit, Bool.or_eq_true,
    Bool.and_eq_true, decide_eq_true_eq, UInt32.le_iff_toNat_le, ge_iff_le, Char.ext_iff,
    ← UInt32.toNat_inj] at letter digit
  grind

section Identifiers

variable {name : String} (proper : isIdentifier name = true)
include proper

theorem isIdentifier_chars : ∀ c ∈ name.toList, (c.isAlphanum || c = '_') = true := by
  unfold isIdentifier at proper
  split at proper
  · cases proper
  · rename_i first rest shape
    rw [Bool.and_eq_true, List.all_eq_true] at proper
    rw [shape, List.forall_mem_cons]
    refine ⟨?_, proper.2⟩
    rcases Bool.or_eq_true_iff.mp proper.1 with letter | underscore
    · have alphanumeric : first.isAlphanum = (first.isAlpha || first.isDigit) := rfl
      rw [alphanumeric, letter]
      rfl
    · rw [underscore, Bool.or_true]

theorem isIdentifier_absent {c : Char} (strange : (c.isAlphanum || c = '_') = false) :
    c ∉ name.toList := by
  intro member
  rw [isIdentifier_chars proper c member] at strange
  cases strange

theorem isIdentifier_dotless : '.' ∉ name.toList :=
  isIdentifier_absent proper rfl

theorem isIdentifier_head (rest : List Char) : name.toList ≠ '.' :: rest := by
  intro shape
  apply isIdentifier_dotless proper
  rw [shape]
  exact List.mem_cons_self

/-- An identifier is not a number. -/
theorem isIdentifier_not_digits : name.toList.all Char.isDigit = false := by
  unfold isIdentifier at proper
  split at proper
  · cases proper
  · rename_i first rest shape
    rw [Bool.and_eq_true] at proper
    rw [shape, List.all_cons, letter_not_digit proper.1, Bool.false_and]

end Identifiers

theorem isDigit_of_toDigits {n : Nat} {c : Char} (member : c ∈ Nat.toDigits 10 n) :
    c.isDigit = true :=
  Nat.isDigit_of_mem_toDigits (by decide) (by decide) member

section Affixes

variable {front back text : List Char}

theorem dropPrefix?_append (front back : List Char) :
    (front ++ back).dropPrefix? front = some back :=
  List.dropPrefix?_append_of_beq back (beq_self_eq_true front)

theorem dropSuffix?_append (front back : List Char) :
    (front ++ back).dropSuffix? back = some front :=
  List.dropSuffix?_eq_some_iff.mpr ⟨back, rfl, beq_self_eq_true back⟩

theorem dropPrefix?_eq_none (apart : ∀ back, text ≠ front ++ back) :
    text.dropPrefix? front = none := by
  rw [Option.eq_none_iff_forall_ne_some]
  intro back found
  obtain ⟨other, shape, same⟩ := List.dropPrefix?_eq_some_iff.mp found
  rw [eq_of_beq same] at shape
  exact apart back shape

theorem dropSuffix?_eq_none (apart : ∀ front, text ≠ front ++ back) :
    text.dropSuffix? back = none := by
  rw [Option.eq_none_iff_forall_ne_some]
  intro front found
  obtain ⟨other, shape, same⟩ := List.dropSuffix?_eq_some_iff.mp found
  rw [eq_of_beq same] at shape
  exact apart front shape

end Affixes

/-- The number at the end of a text, and what stands in front of it. -/
def numbered? (text : List Char) : Option (List Char × Nat) := do
  let reversed := text.reverse
  let index ← Literal.numeral? (String.ofList (reversed.takeWhile Char.isDigit).reverse)
  some ((reversed.dropWhile Char.isDigit).reverse, index)

/-- The number at the end of a text is read back if no digit stands in front of it. -/
theorem numbered?_append (front : List Char) {c : Char} (letter : c.isDigit = false)
    (index : Nat) :
    numbered? (front ++ c :: Nat.toDigits 10 index) = some (front ++ [c], index) := by
  have digits : ∀ x ∈ (Nat.toDigits 10 index).reverse, x.isDigit = true := by
    intro x member
    exact isDigit_of_toDigits (List.mem_reverse.mp member)
  have stops : ¬c.isDigit = true := by rw [letter]; exact Bool.false_ne_true
  have turned : (front ++ c :: Nat.toDigits 10 index).reverse =
      (Nat.toDigits 10 index).reverse ++ c :: front.reverse := by simp
  simp only [numbered?, turned, List.takeWhile_append_of_pos digits,
    List.dropWhile_append_of_pos digits, List.takeWhile_cons_of_neg stops,
    List.dropWhile_cons_of_neg stops, List.append_nil, List.reverse_reverse,
    Literal.numeral?_toDigits, List.reverse_cons, Option.bind_eq_bind, Option.bind_some]

theorem numbered_inj {front other : List Char} {c d : Char} {i j : Nat} (first : c.isDigit = false)
    (second : d.isDigit = false)
    (same : front ++ c :: Nat.toDigits 10 i = other ++ d :: Nat.toDigits 10 j) :
    front = other ∧ c = d ∧ i = j := by
  have read := numbered?_append front first i
  rw [same, numbered?_append other second j, Option.some.injEq, Prod.mk.injEq] at read
  obtain ⟨fronts, characters⟩ := List.append_inj' read.1 rfl
  exact ⟨fronts.symm, (List.cons.inj characters).1.symm, read.2.symm⟩

end DeltaLang
