import DeltaLang.Text.Hex
import Mathlib.Data.Nat.Digits.Defs

namespace DeltaLang.Hex

theorem digit?_digitChar : ∀ d < 16, digit? (Nat.digitChar d) = some d := by
  decide

theorem digit?_toUpper : ∀ d < 16, digit? (Nat.digitChar d).toUpper = some d := by
  decide

/-- The last digit of a padded number is the remainder, and the digits of the quotient are before
it. -/
theorem pad_lowerDigits (width n : Nat) :
    pad (width + 2) (lowerDigits n) =
      pad (width + 1) (lowerDigits (n / 16)) ++ [Nat.digitChar (n % 16)] := by
  by_cases small : n < 16
  · have quotient : n / 16 = 0 := by omega
    have remainder : n % 16 = n := by omega
    rw [lowerDigits, lowerDigits, Nat.toDigits_of_lt_base small, quotient, remainder,
      Nat.toDigits_zero]
    simp [pad, List.replicate_succ']
  · have digits : lowerDigits n = lowerDigits (n / 16) ++ [Nat.digitChar (n % 16)] :=
      Nat.toDigits_of_base_le (by decide) (by omega)
    rw [digits]
    simp only [pad, List.length_append, List.length_singleton, List.append_assoc]
    rw [show width + 2 - ((lowerDigits (n / 16)).length + 1) =
      width + 1 - (lowerDigits (n / 16)).length by omega]

theorem lower_four {n : Nat} (small : n < 0x10000) :
    (lower 4 n).toList = [Nat.digitChar (n / 16 / 16 / 16), Nat.digitChar (n / 16 / 16 % 16),
      Nat.digitChar (n / 16 % 16), Nat.digitChar (n % 16)] := by
  have first : lowerDigits (n / 16 / 16 / 16) = [Nat.digitChar (n / 16 / 16 / 16)] :=
    Nat.toDigits_of_lt_base (by omega)
  rw [lower, String.toList_ofList, pad_lowerDigits, pad_lowerDigits, pad_lowerDigits, first]
  rfl

/-- The digits at the `width` last places of a number, the last one last. -/
def places : Nat → Nat → List Nat
  | 0, _ => []
  | width + 1, n => places width (n / 16) ++ [n % 16]

theorem length_places (width n : Nat) : (places width n).length = width := by
  induction width generalizing n with
  | zero => rfl
  | succ width ih => rw [places, List.length_append, ih, List.length_singleton]

theorem places_lt (width n : Nat) : ∀ d ∈ places width n, d < 16 := by
  induction width generalizing n with
  | zero => simp [places]
  | succ width ih =>
    intro d member
    rcases List.mem_append.mp member with inside | last
    · exact ih _ d inside
    · rw [List.mem_singleton.mp last]
      exact Nat.mod_lt n (by decide)

theorem foldl_places {width n : Nat} (small : n < 16 ^ width) :
    (places width n).foldl (fun value d => value * 16 + d) 0 = n := by
  induction width generalizing n with
  | zero =>
    have zero : n = 0 := by simpa using small
    exact zero.symm
  | succ width ih =>
    have quotient : n / 16 < 16 ^ width := by
      rw [Nat.pow_succ] at small
      exact Nat.div_lt_of_lt_mul (by omega)
    rw [places, List.foldl_append, ih quotient]
    simp only [List.foldl_cons, List.foldl_nil]
    omega

theorem pad_lowerDigits_eq_places {width n : Nat} (small : n < 16 ^ (width + 1)) :
    pad (width + 1) (lowerDigits n) = (places (width + 1) n).map Nat.digitChar := by
  induction width generalizing n with
  | zero =>
    have digit : n < 16 := by simpa using small
    rw [lowerDigits, Nat.toDigits_of_lt_base digit, places, Nat.mod_eq_of_lt digit]
    rfl
  | succ width ih =>
    have quotient : n / 16 < 16 ^ (width + 1) := by
      rw [Nat.pow_succ] at small
      exact Nat.div_lt_of_lt_mul (by omega)
    have split : places (width + 2) n = places (width + 1) (n / 16) ++ [n % 16] := rfl
    rw [pad_lowerDigits, ih quotient, split, List.map_append, List.map_singleton]

theorem pad_upperDigits {width n : Nat} (small : n < 16 ^ (width + 1)) :
    pad (width + 1) (upperDigits n) =
      (places (width + 1) n).map fun d => (Nat.digitChar d).toUpper := by
  have zero : '0' = Char.toUpper '0' := by decide
  have upper : pad (width + 1) (upperDigits n) =
      (pad (width + 1) (lowerDigits n)).map Char.toUpper := by
    simp only [pad, upperDigits, lowerDigits, List.length_map, List.map_append, List.map_replicate]
    rw [← zero]
  rw [upper, pad_lowerDigits_eq_places small, List.map_map]
  rfl

end DeltaLang.Hex
