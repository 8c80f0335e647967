import DeltaLang.Proofs.Text.Characters
import DeltaLang.Proofs.Token.Items

namespace DeltaLang.Lexer

theorem settled_ascii {text : List UInt8} (settled : Settled text) :
    ∀ b ∈ text.head?, b.toNat < 128 := by
  intro b first
  by_contra high
  obtain ⟨rest, rfl⟩ := List.head?_eq_some_iff.mp first
  exact settled b rest rfl (invalid_of_high (by omega) rest)

theorem invalidRun_characters (text : List UInt8) :
    (Utf8.decode text).length =
      (invalidRun text).2 + (Utf8.decode (text.drop (invalidRun text).1)).length := by
  fun_induction invalidRun text with
  | case1 => simp
  | case2 first rest size shaped bytes characters found ih =>
    have positive := shape_invalid_pos shaped
    have size_eq := (invalid_of_shape shaped).2
    have behind : (first :: rest).drop (size + bytes) = (rest.drop (size - 1)).drop bytes := by
      rw [List.drop_drop, show size + bytes = size - 1 + bytes + 1 by omega, List.drop_succ_cons]
    simp only [found] at ih
    rw [Utf8.decode, List.length_cons, ← size_eq, ih, behind]
    omega
  | case3 first rest refused => simp

/-- The characters of a run are those that the decoder finds in it. -/
theorem invalidRun_count {run rest : List UInt8} (invalid : Lexeme none run rest)
    (settled : Settled rest) :
    (invalidRun (run ++ rest)).2 = (Utf8.decode run).length := by
  have bytes := invalidRun_append invalid settled
  have counted := invalidRun_characters (run ++ rest)
  have split := Utf8.decode_append (.inr (settled_ascii settled) : Utf8.Apart run rest)
  rw [bytes, List.drop_left, split, List.length_append] at counted
  omega

/-- Reading gets from a cursor to the end of its text, and gives some items on the way. -/
inductive Scans : Cursor → List Item → Cursor → Prop
  | done {c : Cursor} (front : c.rest = []) : Scans c [] c
  | separator {c last : Cursor} {b : UInt8} {rest : List UInt8} {all : List Item}
      (front : c.rest = b :: rest) (separates : Separates b) (others : Scans (c.skip b) all last) :
      Scans c all last
  | token {c last : Cursor} {kind : Token.Kind} {text rest : List UInt8} {all : List Item}
      (front : c.rest = text ++ rest) (lexeme : Lexeme (some kind) text rest)
      (others : Scans (c.advance text.length text.length) all last) :
      Scans c (.token ⟨kind, ⟨c.index, c.index + text.length⟩, c.position⟩ :: all) last
  | invalid {c last : Cursor} {run rest : List UInt8} {all : List Item} {characters : Nat}
      (front : c.rest = run ++ rest) (filled : run ≠ []) (invalid : Lexeme none run rest)
      (settled : Settled rest) (counted : characters = (Utf8.decode run).length)
      (others : Scans (c.advance run.length characters) all last) :
      Scans c (.invalid ⟨⟨c.index, c.index + run.length⟩, ⟨c.line, c.line⟩,
        ⟨c.column, c.column + characters⟩⟩ :: all) last

/-- The lexer reads every text to its end. -/
theorem scans_items (c : Cursor) : ∃ last, Scans c (items c) last := by
  induction left : c.rest.length using Nat.strongRecOn generalizing c with
  | ind left ih =>
    obtain front | ⟨b, rest, front, separates⟩ | ⟨kind, word, rest, front, lexeme⟩ |
      ⟨run, rest, front, filled, invalid, settled⟩ := front_cases c.rest
    · rw [items_of_none (next_end front)]
      exact ⟨c, .done front⟩
    · have after := Cursor.skip_rest front
      obtain ⟨last, others⟩ := ih rest.length (by rw [← left, front]; simp) (c.skip b)
        (by rw [after])
      rw [items_separator front separates]
      exact ⟨last, .separator front separates others⟩
    · have positive := List.length_pos_iff.mpr (filled_of_lexeme lexeme)
      have after := Cursor.advance_rest front word.length
      obtain ⟨last, others⟩ := ih rest.length (by rw [← left, front, List.length_append]; omega)
        (c.advance word.length word.length) (by rw [after])
      rw [items_of_some (next_token front lexeme)]
      exact ⟨last, .token front lexeme others⟩
    · have positive := List.length_pos_iff.mpr filled
      have counted := invalidRun_count invalid settled
      have after := Cursor.advance_rest front (invalidRun (run ++ rest)).2
      obtain ⟨last, others⟩ := ih rest.length (by rw [← left, front, List.length_append]; omega)
        (c.advance run.length (invalidRun (run ++ rest)).2) (by rw [after])
      rw [items_of_some (next_invalid front filled invalid settled)]
      exact ⟨last, .invalid front filled invalid settled counted others⟩

/-- What is read on the way is what the lexer gives. -/
theorem items_of_scans {c last : Cursor} {all : List Item} (scans : Scans c all last) :
    items c = all := by
  induction scans with
  | done front => exact items_of_none (next_end front)
  | separator front separates _ ih => rw [items_separator front separates, ih]
  | token front lexeme _ ih => rw [items_of_some (next_token front lexeme), ih]
  | invalid front filled invalid settled counted _ ih =>
    rw [counted, ← invalidRun_count invalid settled] at ih ⊢
    rw [items_of_some (next_invalid front filled invalid settled), ih]

end DeltaLang.Lexer
