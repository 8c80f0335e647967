import DeltaLang.Proofs.Text.Hex
import DeltaLang.Proofs.Text.Utf8
import DeltaLang.Text.Quoted
import DeltaLang.Text.Unquote

namespace DeltaLang.Unquote

theorem digits?_map {digits : List Nat} (small : ∀ d ∈ digits, d < 16) (value : Nat)
    (rest : List Char) :
    digits? 16 digits.length value (digits.map Nat.digitChar ++ rest) =
      some (digits.foldl (fun value d => value * 16 + d) value, rest) := by
  induction digits generalizing value with
  | nil => rfl
  | cons d others ih =>
    have below := small d List.mem_cons_self
    have later := ih (fun e member => small e (List.mem_cons_of_mem _ member)) (value * 16 + d)
    rw [List.length_cons, List.map_cons, List.cons_append, digits?, Hex.digit?_digitChar d below,
      Option.bind_eq_bind, Option.bind_some, if_pos below]
    exact later

theorem digits?_lower {width n : Nat} (small : n < 16 ^ (width + 1)) (rest : List Char) :
    digits? 16 (width + 1) 0 ((Hex.lower (width + 1) n).toList ++ rest) = some (n, rest) := by
  have read := digits?_map (Hex.places_lt (width + 1) n) 0 rest
  rw [Hex.length_places, Hex.foldl_places small] at read
  rw [Hex.lower, String.toList_ofList, Hex.pad_lowerDigits_eq_places small]
  exact read

theorem codePoint?_toNat (c : Char) : codePoint? c.toNat = some (String.utf8EncodeChar c) := by
  rw [codePoint?, if_pos (Utf8.toNat_range c), Char.ofNat_toNat]

theorem line_not_mem_lower {width n : Nat} (small : n < 16 ^ (width + 1)) :
    '\n' ∉ (Hex.lower (width + 1) n).toList := by
  have digits : ∀ d < 16, Nat.digitChar d ≠ '\n' := by decide
  rw [Hex.lower, String.toList_ofList, Hex.pad_lowerDigits_eq_places small, List.mem_map]
  rintro ⟨d, member, same⟩
  exact digits d (Hex.places_lt _ n d member) same

/-- `text` is an escape of `c` behind the backslash. -/
structure Escapes (c : Char) (text : List Char) : Prop where
  line : '\n' ∉ text
  read : ∀ rest, escape? '"' (text ++ rest) = some (String.utf8EncodeChar c, rest)

theorem escapes_x {c : Char} (small : c.toNat < 0x80) :
    Escapes c ('x' :: (Hex.lower 2 c.toNat).toList) := by
  have narrow : c.toNat < 16 ^ 2 := by omega
  have single : String.utf8EncodeChar c = [UInt8.ofNat c.toNat] := by
    simp only [String.utf8EncodeChar]
    exact if_pos (Nat.le_of_lt_succ small)
  refine ⟨List.not_mem_cons_of_ne_of_not_mem (by decide) (line_not_mem_lower narrow), ?_⟩
  intro rest
  simp [escape?, digits?_lower narrow rest, single]

theorem escapes_u {c : Char} (small : c.toNat < 0x10000) :
    Escapes c ('u' :: (Hex.lower 4 c.toNat).toList) := by
  have narrow : c.toNat < 16 ^ 4 := by omega
  refine ⟨List.not_mem_cons_of_ne_of_not_mem (by decide) (line_not_mem_lower narrow), ?_⟩
  intro rest
  simp [escape?, digits?_lower narrow rest, codePoint?_toNat]

theorem escapes_U (c : Char) : Escapes c ('U' :: (Hex.lower 8 c.toNat).toList) := by
  have range := Utf8.toNat_range c
  have narrow : c.toNat < 16 ^ 8 := by omega
  refine ⟨List.not_mem_cons_of_ne_of_not_mem (by decide) (line_not_mem_lower narrow), ?_⟩
  intro rest
  simp [escape?, digits?_lower narrow rest, codePoint?_toNat]

theorem eq_of_toNat {c d : Char} (same : c.toNat = d.toNat) : c = d := by
  rw [← Char.ofNat_toNat c, same, Char.ofNat_toNat]

/-- A character between quotes stands for itself or is escaped. -/
theorem escape_cases (c : Char) :
    ((Quoted.escape c).toList = [c] ∧ c ≠ '"' ∧ c ≠ '\n' ∧ c ≠ '\\') ∨
      ∃ text, (Quoted.escape c).toList = '\\' :: text ∧ Escapes c text := by
  by_cases quote : c = '"'
  · subst quote
    exact .inr ⟨['"'], rfl, by decide, fun _ => rfl⟩
  by_cases backslash : c = '\\'
  · subst backslash
    exact .inr ⟨['\\'], rfl, by decide, fun _ => rfl⟩
  rw [Quoted.escape, if_neg quote, if_neg backslash]
  by_cases visible : Visible.isVisible c = true
  · rw [if_pos visible]
    refine .inl ⟨String.toList_singleton c, quote, ?_, backslash⟩
    rintro rfl
    exact absurd visible (by decide +kernel)
  rw [if_neg visible]
  right
  by_cases bell : c.toNat = 0x07
  · rw [if_pos bell, show c = '\x07' from eq_of_toNat bell]
    exact ⟨['a'], rfl, by decide, fun _ => rfl⟩
  rw [if_neg bell]
  by_cases back : c.toNat = 0x08
  · rw [if_pos back, show c = '\x08' from eq_of_toNat back]
    exact ⟨['b'], rfl, by decide, fun _ => rfl⟩
  rw [if_neg back]
  by_cases page : c.toNat = 0x0C
  · rw [if_pos page, show c = '\x0c' from eq_of_toNat page]
    exact ⟨['f'], rfl, by decide, fun _ => rfl⟩
  rw [if_neg page]
  by_cases line : c = '\n'
  · rw [if_pos line, line]
    exact ⟨['n'], rfl, by decide, fun _ => rfl⟩
  rw [if_neg line]
  by_cases carriage : c = '\r'
  · rw [if_pos carriage, carriage]
    exact ⟨['r'], rfl, by decide, fun _ => rfl⟩
  rw [if_neg carriage]
  by_cases tab : c = '\t'
  · rw [if_pos tab, tab]
    exact ⟨['t'], rfl, by decide, fun _ => rfl⟩
  rw [if_neg tab]
  by_cases vertical : c.toNat = 0x0B
  · rw [if_pos vertical, show c = '\x0b' from eq_of_toNat vertical]
    exact ⟨['v'], rfl, by decide, fun _ => rfl⟩
  rw [if_neg vertical]
  by_cases ascii : c.toNat < 0x80
  · rw [if_pos ascii, String.toList_append]
    exact ⟨_, rfl, escapes_x ascii⟩
  rw [if_neg ascii]
  by_cases short : c.toNat < 0x10000
  · rw [if_pos short, String.toList_append]
    exact ⟨_, rfl, escapes_u short⟩
  rw [if_neg short, String.toList_append]
  exact ⟨_, rfl, escapes_U c⟩

theorem body?_escape (c : Char) (fuel : Nat) {rest behind : List Char} {bytes : List UInt8}
    (later : body? '"' fuel rest = some (bytes, behind)) :
    body? '"' (fuel + 1) ((Quoted.escape c).toList ++ rest) =
      some (String.utf8EncodeChar c ++ bytes, behind) := by
  rcases escape_cases c with ⟨itself, quote, line, backslash⟩ | ⟨text, shape, escapes⟩
  · rw [itself, List.singleton_append, body?, if_neg quote, if_neg line, if_neg backslash, later]
    rfl
  · rw [shape, List.cons_append, body?, if_neg (by decide), if_neg (by decide), if_pos rfl,
      escapes.read rest]
    simp only [Option.bind_eq_bind, Option.bind_some, later]

/-- Every character takes one step. -/
theorem body?_escaped (text : List Char) {fuel : Nat} (enough : text.length < fuel)
    (rest : List Char) :
    body? '"' fuel (text.flatMap (fun c => (Quoted.escape c).toList) ++ '"' :: rest) =
      some (text.flatMap String.utf8EncodeChar, rest) := by
  induction text generalizing fuel with
  | nil =>
    cases fuel with
    | zero => cases enough
    | succ fuel => rfl
  | cons c text ih =>
    cases fuel with
    | zero => cases enough
    | succ fuel =>
      rw [List.flatMap_cons, List.flatMap_cons, List.append_assoc]
      exact body?_escape c fuel (ih (Nat.lt_of_succ_lt_succ enough))

theorem length_le_escaped (text : List Char) :
    text.length ≤ (text.flatMap fun c => (Quoted.escape c).toList).length := by
  induction text with
  | nil => exact Nat.zero_le _
  | cons c text ih =>
    have filled : 1 ≤ (Quoted.escape c).toList.length := by
      rcases escape_cases c with ⟨itself, -⟩ | ⟨text, shape, -⟩
      · rw [itself, List.length_singleton]
      · rw [shape, List.length_cons]
        omega
    rw [List.flatMap_cons, List.length_append, List.length_cons]
    omega

theorem toList_quote (text : String) : (Quoted.quote text).toList =
    '"' :: (text.toList.flatMap (fun c => (Quoted.escape c).toList) ++ ['"']) := by
  simp [Quoted.quote, String.toList_join, List.flatMap, Function.comp_def]

theorem line_not_mem_quote (text : String) : '\n' ∉ (Quoted.quote text).toList := by
  intro member
  rw [toList_quote, List.mem_cons, List.mem_append, List.mem_flatMap] at member
  rcases member with quote | ⟨c, -, inEscape⟩ | quote
  · exact absurd quote (by decide)
  · rcases escape_cases c with ⟨itself, -, line, -⟩ | ⟨text, shape, escapes⟩
    · rw [itself, List.mem_singleton] at inEscape
      exact line inEscape.symm
    · rw [shape, List.mem_cons] at inEscape
      rcases inEscape with backslash | later
      · exact absurd backslash (by decide)
      · exact escapes.line later
  · exact absurd quote (by decide)

theorem unquote?_quote (text : String) : unquote? (Quoted.quote text) = some text := by
  have bound := length_le_escaped text.toList
  have read (fuel : Nat) (enough : text.toList.length < fuel) := body?_escaped _ enough []
  simp only [unquote?, toList_quote]
  rw [read _ (by rw [List.length_append]; omega)]
  exact congrArg some (Utf8.toString_encode text)

end DeltaLang.Unquote
