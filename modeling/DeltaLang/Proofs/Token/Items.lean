import DeltaLang.Proofs.Token.Shape

namespace DeltaLang.Lexer

def Cursor.skip (c : Cursor) (b : UInt8) : Cursor :=
  if isNewline b then c.nextLine else c.advance 1 1

theorem Cursor.skip_rest {c : Cursor} {b : UInt8} {rest : List UInt8} (front : c.rest = b :: rest) :
    (c.skip b).rest = rest := by
  unfold skip
  split <;> simp [nextLine, advance, front]

theorem Cursor.skip_index (c : Cursor) (b : UInt8) : (c.skip b).index = c.index + 1 := by
  unfold skip
  split <;> rfl

theorem Cursor.advance_rest {c : Cursor} {text rest : List UInt8} (front : c.rest = text ++ rest)
    (columns : Nat) : (c.advance text.length columns).rest = rest := by
  rw [advance, front, List.drop_left]

theorem next_separator {c : Cursor} {b : UInt8} {rest : List UInt8} (front : c.rest = b :: rest)
    (separates : Separates b) : next c = next (c.skip b) := by
  have skipped : skipBlanks (b :: rest) c.index c.line c.column =
      skipBlanks (c.skip b).rest (c.skip b).index (c.skip b).line (c.skip b).column := by
    rw [Cursor.skip_rest front, skipBlanks]
    rcases (blank_iff b).mpr separates with blank | newline
    · have notNewline : isNewline b = false := by
        revert blank
        simp only [isBlank, isNewline, Bool.or_eq_true, beq_iff_eq, beq_eq_false_iff_ne]
        rintro (rfl | rfl) <;> decide
      simp [blank, Cursor.skip, notNewline, Cursor.advance]
    · have notBlank : isBlank b = false := by
        revert newline
        simp only [isBlank, isNewline, Bool.or_eq_false_iff, beq_iff_eq, beq_eq_false_iff_ne]
        rintro rfl
        decide
      simp [newline, notBlank, Cursor.skip, Cursor.nextLine]
  rw [next, next, front, skipped]

/-- A cursor that stands on no separator stays where it is before an item is read. -/
theorem next_eq_itemAt {c : Cursor} {b : UInt8} {rest : List UInt8} (front : c.rest = b :: rest)
    (stays : ¬Separates b) : next c = itemAt c := by
  obtain ⟨notBlank, notNewline⟩ := (not_separates_iff b).mp stays
  have stayed : skipBlanks c.rest c.index c.line c.column = c := by
    cases c
    cases front
    simp [skipBlanks, notBlank, notNewline]
  rw [next, stayed]

theorem next_end {c : Cursor} (front : c.rest = []) : next c = none := by
  rw [next, front]
  rfl

/-- A lexeme is read as a token. -/
theorem next_token {c : Cursor} {kind : Token.Kind} {text rest : List UInt8}
    (front : c.rest = text ++ rest) (lexeme : Lexeme (some kind) text rest) :
    next c = some (.token ⟨kind, ⟨c.index, c.index + text.length⟩, c.position⟩,
      c.advance text.length text.length) := by
  obtain ⟨first, tail, rfl, shaped⟩ := shape_of_lexeme lexeme
  rw [List.cons_append] at front
  have stays : ¬Separates first := by
    intro separates
    have contrary : shape first (tail ++ rest) = .blank ∨ shape first (tail ++ rest) = .newline :=
      separates_iff_shape.mp separates
    simp [shaped] at contrary
  rw [next_eq_itemAt front stays, itemAt, front]
  simp only [shaped]

/-- A run of invalid characters is read as a whole. -/
theorem next_invalid {c : Cursor} {run rest : List UInt8} (front : c.rest = run ++ rest)
    (filled : run ≠ []) (invalid : Lexeme none run rest) (settled : Settled rest) :
    next c = some (.invalid ⟨⟨c.index, c.index + run.length⟩, ⟨c.line, c.line⟩,
        ⟨c.column, c.column + (invalidRun (run ++ rest)).2⟩⟩,
      c.advance run.length (invalidRun (run ++ rest)).2) := by
  obtain ⟨first, tail, rfl⟩ := List.exists_cons_of_ne_nil filled
  have taken := invalidRun_append invalid settled
  obtain ⟨strange, -⟩ := lexeme_invalid_cons.mp invalid
  rw [List.cons_append] at front taken
  rw [next_eq_itemAt front strange.notSeparator, itemAt, front]
  simp only [shape_of_invalid strange, taken, List.cons_append]

theorem items_of_none {c : Cursor} (read : next c = none) : items c = [] := by
  rw [items]
  split
  · rfl
  · next found =>
    rw [read] at found
    cases found

theorem items_of_some {c after : Cursor} {item : Item} (read : next c = some (item, after)) :
    items c = item :: items after := by
  rw [items]
  split
  · next found =>
    rw [read] at found
    cases found
  · next found =>
    rw [read] at found
    cases found
    rfl

theorem items_separator {c : Cursor} {b : UInt8} {rest : List UInt8} (front : c.rest = b :: rest)
    (separates : Separates b) : items c = items (c.skip b) := by
  have same := next_separator front separates
  cases read : next c with
  | none => rw [items_of_none read, items_of_none (same.symm.trans read)]
  | some found => rw [items_of_some read, items_of_some (same.symm.trans read)]

/-- What a text can begin with. -/
theorem front_cases (text : List UInt8) :
    text = [] ∨
    (∃ b rest, text = b :: rest ∧ Separates b) ∨
    (∃ kind word rest, text = word ++ rest ∧ Lexeme (some kind) word rest) ∨
    ∃ run rest, text = run ++ rest ∧ run ≠ [] ∧ Lexeme none run rest ∧ Settled rest := by
  cases text with
  | nil => exact .inl rfl
  | cons first rest =>
    cases shaped : shape first rest with
    | blank => exact .inr (.inl ⟨first, rest, rfl, separates_iff_shape.mpr (.inl shaped)⟩)
    | newline => exact .inr (.inl ⟨first, rest, rfl, separates_iff_shape.mpr (.inr shaped)⟩)
    | token kind size =>
      obtain ⟨word, after, split, -, lexeme⟩ := lexeme_of_shape shaped
      exact .inr (.inr (.inl ⟨kind, word, after, split, lexeme⟩))
    | invalid size =>
      obtain ⟨run, after, split, length, invalid, settled⟩ := invalidRun_spec (first :: rest)
      have positive := invalidRun_pos shaped
      have filled : run ≠ [] := List.ne_nil_of_length_pos (by omega)
      exact .inr (.inr (.inr ⟨run, after, split, filled, invalid, settled⟩))

end DeltaLang.Lexer
