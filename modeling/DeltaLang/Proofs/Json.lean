import DeltaLang.Json.Printer
import DeltaLang.Json.Value
import DeltaLang.Proofs.Text.Hex

namespace DeltaLang

namespace Json

section Strings

theorem unit?_lower {n : Nat} (small : n < 0x10000) :
    unit? (Nat.digitChar (n / 16 / 16 / 16)) (Nat.digitChar (n / 16 / 16 % 16))
      (Nat.digitChar (n / 16 % 16)) (Nat.digitChar (n % 16)) = some n := by
  have value :
      ((n / 16 / 16 / 16 * 16 + n / 16 / 16 % 16) * 16 + n / 16 % 16) * 16 + n % 16 = n := by
    omega
  simp only [unit?, Hex.digit?_digitChar (n / 16 / 16 / 16) (by omega),
    Hex.digit?_digitChar (n / 16 / 16 % 16) (by omega),
    Hex.digit?_digitChar (n / 16 % 16) (by omega), Hex.digit?_digitChar (n % 16) (by omega),
    Option.bind_eq_bind, Option.bind_some, value]

def follow (c : Char) (read : List Char × List Char) : List Char × List Char :=
  (c :: read.1, read.2)

theorem string?_plain {c : Char} (visible : 0x20 ≤ c.toNat) (noQuote : c ≠ '"')
    (noBackslash : c ≠ '\\') (rest : List Char) :
    string? (c :: rest) = (string? rest).map (follow c) := by
  have shown : ¬(c.toNat < 0x20 ∨ c = '\\') := by
    rintro (low | same)
    · omega
    · exact noBackslash same
  rw [string?.eq_def]
  split
  · next shape => cases shape
  · next shape =>
    cases shape
    exact absurd rfl noQuote
  · next shape =>
    cases shape
    exact absurd rfl noBackslash
  · next shape =>
    cases shape
    exact absurd rfl noBackslash
  · next shape =>
    cases shape
    rw [if_neg shown]
    cases string? rest <;> rfl

theorem string?_letter {c letter : Char} (noUnit : letter ≠ 'u')
    (escaped : escaped? letter = some c) (rest : List Char) :
    string? ('\\' :: letter :: rest) = (string? rest).map (follow c) := by
  rw [string?.eq_def]
  split
  · next shape => cases shape
  · next shape => cases shape
  · next shape =>
    cases shape
    exact absurd rfl noUnit
  · next shape =>
    cases shape
    rw [escaped]
    cases string? rest <;> rfl
  · next unescaped shape =>
    cases shape
    exact absurd rfl (unescaped letter rest rfl)

/-- An escape that is no first half of a pair stands for itself, even if another one follows it. -/
theorem string?_unit {a b c d : Char} {unit : Nat} (value : unit? a b c d = some unit)
    (alone : isHigh unit = false) (rest : List Char) :
    string? ('\\' :: 'u' :: a :: b :: c :: d :: rest) =
      (string? rest).map (follow (unitChar unit)) := by
  rw [string?, value]
  simp only [Option.bind_eq_bind, Option.bind_some, alone]
  split
  · next e f g h behind =>
    cases second : unit? e f g h with
    | none =>
      rw [string?, second]
      rfl
    | some low => cases string? ('\\' :: 'u' :: e :: f :: g :: h :: behind) <;> rfl
  · cases string? rest <;> rfl

theorem unitChar_toNat {c : Char} (low : c.toNat < 0xD800) : unitChar c.toNat = c := by
  have alone : (isHigh c.toNat || isLow c.toNat) = false := by
    simp only [isHigh, isLow, Bool.or_eq_false_iff, Bool.and_eq_false_iff, decide_eq_false_iff_not]
    omega
  rw [unitChar, alone]
  exact Char.ofNat_toNat c

theorem string?_lower {c : Char} (low : c.toNat < 0xD800) (rest : List Char) :
    string? (("\\u" ++ Hex.lower 4 c.toNat).toList ++ rest) = (string? rest).map (follow c) := by
  have alone : isHigh c.toNat = false := by
    simp only [isHigh, Bool.and_eq_false_iff, decide_eq_false_iff_not]
    omega
  have digits := Hex.lower_four (n := c.toNat) (by omega)
  rw [String.toList_append, digits]
  have read := string?_unit (unit?_lower (n := c.toNat) (by omega)) alone rest
  rwa [unitChar_toNat low] at read

/-- A character is read back from what it is written as. -/
theorem string?_escape (c : Char) (rest : List Char) :
    string? ((escape c).toList ++ rest) = (string? rest).map (follow c) := by
  have ofCode {n : Nat} (code : c.toNat = n) : c = Char.ofNat n := by
    rw [← code, Char.ofNat_toNat]
  unfold escape
  split
  · next same => exact same ▸ string?_letter (by decide) rfl rest
  split
  · next same => exact same ▸ string?_letter (by decide) rfl rest
  split
  · next same => exact same ▸ string?_letter (by decide) rfl rest
  split
  · next same => exact same ▸ string?_letter (by decide) rfl rest
  split
  · next same => exact same ▸ string?_letter (by decide) rfl rest
  split
  · next code => exact ofCode code ▸ string?_letter (by decide) rfl rest
  split
  · next code => exact ofCode code ▸ string?_letter (by decide) rfl rest
  split
  · next special =>
    have low : c.toNat < 0xD800 := by
      simp only [Bool.or_eq_true, decide_eq_true_eq] at special
      rcases special with ((((low | rfl) | rfl) | rfl) | code) | code
      · omega
      · decide
      · decide
      · decide
      · omega
      · omega
    exact string?_lower low rest
  · next noQuote noBackslash _ _ _ _ _ plain =>
    have visible : 0x20 ≤ c.toNat := by
      by_contra low
      apply plain
      simp only [Bool.or_eq_true, decide_eq_true_eq]
      omega
    rw [String.toList_singleton]
    exact string?_plain visible noQuote noBackslash rest

theorem string?_quoted (text rest : List Char) :
    string? (text.flatMap (fun c => (escape c).toList) ++ '"' :: rest) = some (text, rest) := by
  induction text with
  | nil => rw [List.flatMap_nil, List.nil_append, string?]
  | cons c text ih =>
    rw [List.flatMap_cons, List.append_assoc, string?_escape, ih]
    rfl

end Strings

section Values

/-- A text is read as a value, whatever follows it. -/
def Denotes (text : List Char) (value : Value) : Prop :=
  ∀ (fuel : Nat) (rest : List Char), text.length < fuel →
    value? fuel (text ++ rest) = some (value, rest)

theorem toList_quote (text : String) :
    (quote text).toList = '"' :: (text.toList.flatMap (fun c => (escape c).toList) ++ ['"']) := by
  simp [quote, List.flatMap_map]

theorem string?_quote (text : String) (rest : List Char) :
    ∃ inside, (quote text).toList ++ rest = '"' :: inside ∧
      string? inside = some (text.toList, rest) := by
  refine ⟨text.toList.flatMap (fun c => (escape c).toList) ++ '"' :: rest, ?_, ?_⟩
  · rw [toList_quote]
    simp
  · exact string?_quoted text.toList rest

theorem denotes_quote (text : String) : Denotes (quote text).toList (.string text) := by
  intro fuel rest enough
  cases fuel with
  | zero => omega
  | succ fuel =>
    obtain ⟨inside, shape, read⟩ := string?_quote text rest
    rw [shape, value?, show skipSpace ('"' :: inside) = '"' :: inside from rfl]
    simp only [read, Option.bind_eq_bind, Option.bind_some, String.ofList_toList]

/-- A field of an object: its name, what is written for its value, and the value. -/
structure Field where
  name : String
  text : String
  value : Value

def Field.toList (f : Field) : List Char :=
  (quote f.name).toList ++ ':' :: f.text.toList

section Fields

variable {f : Field} (denotes : Denotes f.text.toList f.value) {fuel : Nat}
  (enough : f.toList.length ≤ fuel) (rest : List Char)

theorem Field.length_text_lt (f : Field) : f.text.toList.length < f.toList.length := by
  rw [toList, List.length_append, List.length_cons]
  omega

theorem Field.string?_name (f : Field) (rest : List Char) :
    ∃ inside, f.toList ++ rest = '"' :: inside ∧
      string? inside = some (f.name.toList, ':' :: (f.text.toList ++ rest)) := by
  rw [toList, List.append_assoc, List.cons_append]
  exact string?_quote f.name (':' :: (f.text.toList ++ rest))

include denotes enough

theorem fields?_last : fields? (fuel + 1) (f.toList ++ '\x7d' :: rest) =
    some ([(f.name, f.value)], rest) := by
  obtain ⟨inside, shape, read⟩ := f.string?_name ('\x7d' :: rest)
  have value := denotes fuel ('\x7d' :: rest) (by have := f.length_text_lt; omega)
  rw [shape]
  simp [fields?, skipSpace, isSpace, read, value]

theorem fields?_more : fields? (fuel + 1) (f.toList ++ ',' :: rest) =
    (fields? fuel rest).map fun read => ((f.name, f.value) :: read.1, read.2) := by
  obtain ⟨inside, shape, read⟩ := f.string?_name (',' :: rest)
  have value := denotes fuel (',' :: rest) (by have := f.length_text_lt; omega)
  rw [shape]
  cases later : fields? fuel rest <;> simp [fields?, skipSpace, isSpace, read, value, later]

end Fields

theorem fields?_read {fields : List Field} (filled : fields ≠ [])
    (denote : ∀ f ∈ fields, Denotes f.text.toList f.value) {fuel : Nat} (rest : List Char)
    (enough : ([','].intercalate (fields.map Field.toList)).length < fuel) :
    fields? fuel ([','].intercalate (fields.map Field.toList) ++ '\x7d' :: rest) =
      some (fields.map fun f => (f.name, f.value), rest) := by
  induction fields generalizing fuel with
  | nil => exact absurd rfl filled
  | cons f others ih =>
    have denotes := denote f List.mem_cons_self
    cases fuel with
    | zero => omega
    | succ fuel =>
      cases others with
      | nil =>
        rw [List.map_singleton, List.intercalate_singleton] at enough ⊢
        rw [fields?_last denotes (by omega)]
        rfl
      | cons g others =>
        rw [List.map_cons, List.map_cons, List.intercalate_cons_cons, ← List.map_cons] at enough ⊢
        simp only [List.length_append, List.length_singleton] at enough
        have later : fields? fuel _ = _ := ih (List.cons_ne_nil g others)
          (fun h member => denote h (List.mem_cons_of_mem f member)) (by omega)
        rw [List.append_assoc, List.append_assoc, List.singleton_append,
          fields?_more denotes (by omega), later]
        rfl

theorem toList_object (fields : List Field) :
    (object (fields.map fun f => (f.name, f.text))).toList =
      '\x7b' :: ([','].intercalate (fields.map Field.toList) ++ ['\x7d']) := by
  have texts : (fields.map fun f => (quote f.name ++ ":" ++ f.text).toList) =
      fields.map Field.toList := by
    simp [Field.toList]
  simp [object, String.toList_intercalate, ← texts, Function.comp_def]

/-- The quote of the first name stands at the front of the fields. -/
theorem fields_quote {fields : List Field} (filled : fields ≠ []) (rest : List Char) :
    ∃ inside, [','].intercalate (fields.map Field.toList) ++ rest = '"' :: inside := by
  obtain ⟨f, others, rfl⟩ := List.exists_cons_of_ne_nil filled
  cases others with
  | nil =>
    obtain ⟨inside, shape, -⟩ := f.string?_name rest
    exact ⟨inside, by simpa using shape⟩
  | cons g others =>
    obtain ⟨inside, shape, -⟩ := f.string?_name
      ([','] ++ [','].intercalate ((g :: others).map Field.toList) ++ rest)
    refine ⟨inside, ?_⟩
    rw [List.map_cons, List.map_cons, List.intercalate_cons_cons, ← shape]
    simp

/-- A quote behind the opening brace begins the first field. -/
theorem value?_object (fuel : Nat) (inside : List Char) :
    value? (fuel + 1) ('\x7b' :: '"' :: inside) =
      (fields? fuel ('"' :: inside)).map fun read => (.object read.1, read.2) := by
  rw [value?]
  change (fields? fuel ('"' :: inside)).bind _ = _
  cases fields? fuel ('"' :: inside) <;> rfl

/-- An object is read as its fields if each of them is read as its value. -/
theorem denotes_object {fields : List Field}
    (denote : ∀ f ∈ fields, Denotes f.text.toList f.value) :
    Denotes (object (fields.map fun f => (f.name, f.text))).toList
      (.object (fields.map fun f => (f.name, f.value))) := by
  intro fuel rest enough
  rw [toList_object] at enough ⊢
  simp only [List.length_cons, List.length_append] at enough
  rw [List.cons_append, List.append_assoc, List.singleton_append]
  cases fuel with
  | zero => omega
  | succ fuel =>
    by_cases filled : fields = []
    · subst filled
      rw [value?]
      rfl
    · have read : fields? fuel _ = _ := fields?_read filled denote rest (by omega)
      obtain ⟨inside, shape⟩ := fields_quote filled ('\x7d' :: rest)
      rw [shape] at read ⊢
      rw [value?_object, read, Option.map_some]

theorem parse?_of_denotes {text : List Char} {value : Value} (denotes : Denotes text value) :
    parse? text = some value := by
  have read := denotes (text.length + 1) [] (Nat.lt_succ_self _)
  rw [List.append_nil] at read
  rw [parse?, read]
  rfl

end Values

end Json

end DeltaLang
