import DeltaLang.Proofs.Token.Position

namespace DeltaLang

/-- How far a text is from the beginning of a source: the bytes and the lines before it, and the
column that its first line begins at. -/
structure Displacement where
  bytes : Nat
  lines : Nat
  columns : Nat
  deriving DecidableEq, Repr

/-- The displacement of a text that stands behind another one and a separator. -/
def Displacement.behind (text : List UInt8) (b : UInt8) : Displacement :=
  ⟨text.length + 1, (text ++ [b]).count 0x0A,
    if b = 0x0A then 0 else (Utf8.decode (Lexer.lastLine text)).length + 1⟩

def Span.moved (distance : Nat) (s : Span) : Span :=
  ⟨s.start + distance, s.stop + distance⟩

/-- Only the columns of the first line depend on where the text begins. -/
def Position.moved (d : Displacement) (p : Position) : Position :=
  ⟨p.line + d.lines, if p.line = 0 then p.column + d.columns else p.column⟩

def Section.moved (d : Displacement) (s : Section) : Section :=
  ⟨s.index.moved d.bytes, s.lines.moved d.lines,
    if s.lines.start = 0 then s.columns.moved d.columns else s.columns⟩

def Token.moved (d : Displacement) (t : Token) : Token :=
  ⟨t.kind, t.span.moved d.bytes, t.location.moved d⟩

namespace Lexer

def Item.moved (d : Displacement) : Item → Item
  | .token t => .token (t.moved d)
  | .invalid place => .invalid (place.moved d)

def Cursor.moved (d : Displacement) (c : Cursor) : Cursor :=
  ⟨c.rest, c.index + d.bytes, c.line + d.lines,
    if c.line = 0 then c.column + d.columns else c.column⟩

section Moving

variable (d : Displacement) (c : Cursor)

theorem Cursor.moved_advance (size columns : Nat) :
    (c.moved d).advance size columns = (c.advance size columns).moved d := by
  by_cases first : c.line = 0 <;> simp [advance, moved, first, Nat.add_right_comm]

theorem Cursor.moved_nextLine : (c.moved d).nextLine = c.nextLine.moved d := by
  simp [nextLine, moved, Nat.add_right_comm]

theorem Cursor.moved_skip (b : UInt8) : (c.moved d).skip b = (c.skip b).moved d := by
  unfold skip
  split
  · exact moved_nextLine d c
  · exact moved_advance d c 1 1

theorem span_moved (start size distance : Nat) :
    Span.moved distance ⟨start, start + size⟩ =
      ⟨(start + distance : Nat), (start + distance : Nat) + size⟩ := by
  simp only [Span.moved, Span.mk.injEq]
  omega

theorem Cursor.moved_position : (c.moved d).position = c.position.moved d := by
  by_cases first : c.line = 0 <;> simp [position, moved, Position.moved, first]

theorem moved_token (kind : Token.Kind) (size : Nat) :
    Item.moved d (.token ⟨kind, ⟨c.index, c.index + size⟩, c.position⟩) =
      .token ⟨kind, ⟨(c.moved d).index, (c.moved d).index + size⟩, (c.moved d).position⟩ := by
  rw [Item.moved, Token.moved, span_moved, Cursor.moved_position]
  rfl

theorem moved_run (size characters : Nat) :
    Item.moved d (.invalid ⟨⟨c.index, c.index + size⟩, ⟨c.line, c.line⟩,
        ⟨c.column, c.column + characters⟩⟩) =
      .invalid ⟨⟨(c.moved d).index, (c.moved d).index + size⟩,
        ⟨(c.moved d).line, (c.moved d).line⟩,
        ⟨(c.moved d).column, (c.moved d).column + characters⟩⟩ := by
  have line := span_moved c.line 0 d.lines
  rw [Int.natCast_zero, Int.add_zero, Int.add_zero] at line
  rw [Item.moved, Section.moved, span_moved, span_moved, line]
  by_cases first : c.line = 0 <;> simp [Cursor.moved, first]

theorem Scans.moved {c last : Cursor} {all : List Item} (scans : Scans c all last) :
    Scans (c.moved d) (all.map (Item.moved d)) (last.moved d) := by
  induction scans with
  | done front => exact .done front
  | separator front separates _ ih =>
    rw [← Cursor.moved_skip] at ih
    exact .separator front separates ih
  | token front lexeme _ ih =>
    rw [← Cursor.moved_advance] at ih
    rw [List.map_cons, moved_token]
    exact .token front lexeme ih
  | invalid front filled invalid settled counted _ ih =>
    rw [← Cursor.moved_advance] at ih
    rw [List.map_cons, moved_run]
    exact .invalid front filled invalid settled counted ih

end Moving

section Cutting

variable {b s : UInt8} {text rest back : List UInt8}

/-- What holds no separator ends before the first one. -/
theorem initial_of_separated {word : List UInt8} (separates : Separates s)
    (plain : ∀ b ∈ word, ¬Separates b) : word <+: text ++ s :: back ↔ word <+: text := by
  constructor
  · intro begins
    rcases List.prefix_or_prefix_of_prefix begins (List.prefix_append text (s :: back)) with
      shorter | longer
    · exact shorter
    · obtain ⟨tail, rfl⟩ := longer
      rw [List.prefix_append_right_inj] at begins
      cases tail with
      | nil => simp
      | cons first tail =>
        rw [List.cons_prefix_cons] at begins
        exact absurd separates (plain s (by simp [begins.1]))
  · intro begins
    exact begins.trans (List.prefix_append text (s :: back))

theorem symbol_not_separates : ∀ t ∈ Symbol.all, ∀ b ∈ Utf8.encode t.spelling, ¬Separates b := by
  intro t known b member
  obtain ⟨blank, newline, -⟩ := symbol_spelling_plain t known b member
  exact (not_separates_iff b).mpr ⟨blank, newline⟩

theorem begins_separated {inClass : Char → Bool} (outside : inClass (Char.ofUInt8 s) = false) :
    Begins inClass (rest ++ s :: back) ↔ Begins inClass rest := by
  cases rest with
  | nil => simp [Begins, outside]
  | cons first rest => simp [Begins]

theorem wordChar_separator (separates : Separates s) : wordChar (Char.ofUInt8 s) = false := by
  rw [← isWord_eq, Bool.eq_false_iff]
  intro word
  exact not_separates_of_word word separates

theorem digit_separator (separates : Separates s) : (Char.ofUInt8 s).isDigit = false := by
  rw [Bool.eq_false_iff]
  intro digit
  have word := wordChar_of_digit digit
  rw [wordChar_separator separates] at word
  cases word

theorem invalid_separated (separates : Separates s) :
    Invalid b (rest ++ s :: back) ↔ Invalid b rest := by
  have same (t : Symbol) (known : t ∈ Symbol.all) :
      Utf8.encode t.spelling <+: b :: (rest ++ s :: back) ↔
        Utf8.encode t.spelling <+: b :: rest := by
    rw [← List.cons_append]
    exact initial_of_separated separates (symbol_not_separates t known)
  constructor
  · intro strange
    refine ⟨strange.notSeparator, strange.notWord, ?_⟩
    intro t known
    rw [← same t known]
    exact strange.notSymbol t known
  · intro strange
    refine ⟨strange.notSeparator, strange.notWord, ?_⟩
    intro t known
    rw [same t known]
    exact strange.notSymbol t known

theorem settled_separated (separates : Separates s) (settled : Settled rest) :
    Settled (rest ++ s :: back) := by
  intro b tail front strange
  cases rest with
  | nil =>
    cases front
    exact strange.notSeparator separates
  | cons first rest =>
    cases front
    exact settled b rest rfl ((invalid_separated separates).mp strange)

/-- No lexeme looks behind a separator. -/
theorem lexeme_separated {kind : Option Token.Kind} (separates : Separates s)
    (lexeme : Lexeme kind text rest) : Lexeme kind text (rest ++ s :: back) := by
  have wordEnds (ends : ¬Begins wordChar rest) : ¬Begins wordChar (rest ++ s :: back) := by
    rw [begins_separated (wordChar_separator separates)]
    exact ends
  cases lexeme with
  | number filled digits ends =>
    refine .number filled digits ?_
    rw [begins_separated (digit_separator separates)]
    exact ends
  | keyword known ends => exact .keyword known (wordEnds ends)
  | identifier starts word ends free => exact .identifier starts word (wordEnds ends) free
  | symbol known longest =>
    refine .symbol known ?_
    intro other knownToo
    rw [← List.append_assoc, initial_of_separated separates (symbol_not_separates other knownToo)]
    exact longest other knownToo
  | invalid strange =>
    refine .invalid ?_
    intro front b tail split
    rw [← List.append_assoc, invalid_separated separates]
    exact strange front b tail split

def Cursor.followed (c : Cursor) (back : List UInt8) : Cursor :=
  { c with rest := c.rest ++ back }

theorem Cursor.followed_skip {c : Cursor} (front : c.rest = b :: rest) :
    (c.followed back).skip b = (c.skip b).followed back := by
  unfold skip
  split <;> simp [nextLine, advance, followed, front]

theorem Cursor.followed_advance {c : Cursor} (front : c.rest = text ++ rest) (columns : Nat) :
    (c.followed back).advance text.length columns =
      (c.advance text.length columns).followed back := by
  simp [advance, followed, front]

theorem Scans.followed {c last final : Cursor} {all more : List Item} (separates : Separates s)
    (scans : Scans c all last) (others : Scans ((last.followed (s :: back)).skip s) more final) :
    Scans (c.followed (s :: back)) (all ++ more) final := by
  have longer {c : Cursor} {text rest : List UInt8} (front : c.rest = text ++ rest) :
      (c.followed (s :: back)).rest = text ++ (rest ++ s :: back) := by
    rw [Cursor.followed, front, List.append_assoc]
  induction scans with
  | @done c front =>
    have here : (c.followed (s :: back)).rest = s :: back := by
      rw [Cursor.followed, front, List.nil_append]
    exact .separator here separates others
  | @separator c last b rest all front separates' _ ih =>
    have later := ih others
    rw [← Cursor.followed_skip front] at later
    have here : (c.followed (s :: back)).rest = b :: (rest ++ s :: back) :=
      longer (front.trans List.singleton_append.symm)
    exact .separator here separates' later
  | token front lexeme _ ih =>
    have later := ih others
    rw [← Cursor.followed_advance front] at later
    exact .token (longer front) (lexeme_separated separates lexeme) later
  | invalid front filled invalid settled counted _ ih =>
    have later := ih others
    rw [← Cursor.followed_advance front] at later
    exact .invalid (longer front) filled (lexeme_separated separates invalid)
      (settled_separated separates settled) counted later

end Cutting

section Separation

/-- Behind a text and a separator the lexer stands where the next text begins. -/
theorem Cursor.Behind.skip_followed {last : Cursor} {text : List UInt8} (behind : last.Behind text)
    (ends : last.rest = []) (s : UInt8) (back : List UInt8) :
    (last.followed (s :: back)).skip s = (Cursor.ofSource back).moved (.behind text s) := by
  obtain ⟨rest, index, line, column⟩ := last
  obtain ⟨rfl, rfl, rfl, -⟩ := behind
  subst ends
  by_cases newline : s = 0x0A
  · subst newline
    simp [skip, isNewline, nextLine, followed, moved, ofSource, Displacement.behind]
  · simp [skip, isNewline, newline, Cursor.advance, followed, moved, ofSource, Displacement.behind]

/-- Lexing is compositional across separators: the items of a text with a separator in it are those
of the text before it, and then those of the text behind it at their new places. -/
theorem items_separated (front back : List UInt8) {s : UInt8} (separates : Separates s) :
    items (.ofSource (front ++ s :: back)) =
      items (.ofSource front) ++ (items (.ofSource back)).map (Item.moved (.behind front s)) := by
  obtain ⟨last, scans⟩ := scans_items (.ofSource front)
  obtain ⟨final, others⟩ := scans_items (.ofSource back)
  obtain ⟨behind, ends⟩ : last.Behind front ∧ last.rest = [] := scans.behind (.start front)
  have later := others.moved (.behind front s)
  rw [← behind.skip_followed ends] at later
  exact items_of_scans (scans.followed separates later)

/-- A plus and an equals sign with a space between them are two symbols. -/
theorem items_separated_plus : Separates 0x20 ∧
    items (.ofSource ([0x2B] ++ 0x20 :: [0x3D])) =
      [.token ⟨.symbol .add, ⟨0, 1⟩, ⟨0, 0⟩⟩, .token ⟨.symbol .assign, ⟨2, 3⟩, ⟨0, 2⟩⟩] := by
  have separates : Separates 0x20 := by
    unfold Separates
    decide
  have alone (s : Symbol) (known : s ∈ Symbol.all) :
      items (.ofSource (Utf8.encode s.spelling)) =
        [.token ⟨.symbol s, ⟨0, 0 + (Utf8.encode s.spelling).length⟩, ⟨0, 0⟩⟩] := by
    have lexeme : Lexeme (some (.symbol s)) (Utf8.encode s.spelling) [] := by
      refine .symbol known ?_
      intro other _ begins
      rw [List.append_nil] at begins
      exact begins.length_le
    have front : (Cursor.ofSource (Utf8.encode s.spelling)).rest = Utf8.encode s.spelling ++ [] :=
      (List.append_nil _).symm
    exact items_of_scans (.token front lexeme (.done (Cursor.advance_rest front _)))
  have place : Displacement.behind [0x2B] 0x20 = ⟨2, 0, 2⟩ := by
    have ascii : ∀ b ∈ [(0x2B : UInt8)], b.toNat < 128 := by simp
    rw [Displacement.behind, show lastLine [0x2B] = [0x2B] by decide, Utf8.decode_length ascii]
    rfl
  refine ⟨separates, ?_⟩
  have plus := alone .add (by decide)
  have equals := alone .assign (by decide)
  have separated := items_separated [0x2B] [0x3D] separates
  rw [place] at separated
  rw [separated]
  exact congrArg₂ _ plus (congrArg (List.map _) equals)

end Separation

end Lexer

end DeltaLang
