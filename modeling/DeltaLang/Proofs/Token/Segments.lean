import DeltaLang.Proofs.Token.Scan
import Mathlib.Logic.Function.Iterate

namespace DeltaLang

def Span.cut (s : Span) (source : List UInt8) : List UInt8 :=
  (source.drop s.start.toNat).take s.length.toNat

namespace Lexer

/-- Ranges that lie in a source behind `start`, one behind the other, and leave out nothing but
separators from there on. -/
structure Covers (source : List UInt8) (start : Nat) (spans : List Span) : Prop where
  inside : ∀ s ∈ spans, start ≤ s.start ∧ s.start < s.stop ∧ s.stop ≤ source.length
  ordered : spans.Pairwise fun s t => s.stop ≤ t.start
  between : ∀ (i : Nat) (b : UInt8), start ≤ i → source[i]? = some b →
    (∀ s ∈ spans, ¬(s.start ≤ i ∧ i < s.stop)) → Separates b

/-- A range of a source with the kind of its token, none for invalid characters. -/
structure Piece where
  kind : Option Token.Kind
  span : Span
  deriving DecidableEq, Repr

/-- Pieces that cover a source from `start` on, each of them a lexeme where it stands. Invalid
characters that follow each other are in one piece. -/
structure Segments (source : List UInt8) (start : Nat) (pieces : List Piece) : Prop where
  covers : Covers source start (pieces.map Piece.span)
  apart : ∀ p ∈ pieces, ∀ q ∈ pieces, p.kind = none → q.kind = none → p.span.stop ≠ q.span.start
  lexemes : ∀ p ∈ pieces, Lexeme p.kind (p.span.cut source) (source.drop p.span.stop.toNat)

def Item.piece : Item → Piece
  | .token t => ⟨some t.kind, t.span⟩
  | .invalid place => ⟨none, place.index⟩

/-- The same from left to right: `Lexes index text pieces` splits a text that begins at `index`. -/
inductive Lexes : Nat → List UInt8 → List Piece → Prop
  | done (index : Nat) : Lexes index [] []
  | separator {index : Nat} {b : UInt8} {rest : List UInt8} {pieces : List Piece}
      (separates : Separates b) (others : Lexes (index + 1) rest pieces) :
      Lexes index (b :: rest) pieces
  | piece {index : Nat} {kind : Option Token.Kind} {text rest : List UInt8} {pieces : List Piece}
      (filled : text ≠ []) (lexeme : Lexeme kind text rest)
      (apart : kind = none → ∀ q ∈ pieces, q.kind = none → q.span.start ≠ index + text.length)
      (others : Lexes (index + text.length) rest pieces) :
      Lexes index (text ++ rest) (⟨kind, ⟨index, index + text.length⟩⟩ :: pieces)

section Splitting

variable {source text rest : List UInt8} {start : Nat}

theorem drop_split (split : source.drop start = text ++ rest) :
    source.drop (start + text.length) = rest := by
  rw [← List.drop_drop, split, List.drop_left]

theorem drop_succ_split {b : UInt8} (split : source.drop start = b :: rest) :
    source.drop (start + 1) = rest := by
  rw [← List.drop_drop, split, List.drop_one, List.tail_cons]

theorem length_split (split : source.drop start = text ++ rest) (filled : text ≠ []) :
    start + text.length + rest.length = source.length := by
  have length := congrArg List.length split
  have positive := List.length_pos_iff.mpr filled
  simp only [List.length_drop, List.length_append] at length
  omega

theorem cut_split (split : source.drop start = text ++ rest) :
    Span.cut ⟨start, start + text.length⟩ source = text := by
  have length : ((start : Int) + text.length - start).toNat = text.length := by omega
  simp only [Span.cut, Span.length, Int.toNat_natCast, length, split, List.take_left]

end Splitting

section Lexes

variable {source : List UInt8} {start : Nat} {pieces : List Piece}

theorem Segments.separator {b : UInt8} (here : source[start]? = some b) (separates : Separates b)
    (others : Segments source (start + 1) pieces) : Segments source start pieces where
  covers := by
    refine ⟨?_, others.covers.ordered, ?_⟩
    · intro s member
      have bounds := others.covers.inside s member
      omega
    · intro i c behind found uncovered
      rcases Nat.eq_or_lt_of_le behind with rfl | after
      · rw [here] at found
        cases found
        exact separates
      · exact others.covers.between i c after found uncovered
  apart := others.apart
  lexemes := others.lexemes

theorem Segments.piece {kind : Option Token.Kind} {text rest : List UInt8}
    (split : source.drop start = text ++ rest) (filled : text ≠ []) (lexeme : Lexeme kind text rest)
    (apart : kind = none → ∀ q ∈ pieces, q.kind = none → q.span.start ≠ start + text.length)
    (others : Segments source (start + text.length) pieces) :
    Segments source start (⟨kind, ⟨start, start + text.length⟩⟩ :: pieces) := by
  have positive := List.length_pos_iff.mpr filled
  have length := length_split split filled
  have behind : ∀ p ∈ pieces, (start + text.length : Int) ≤ p.span.start ∧
      p.span.start < p.span.stop := by
    intro p member
    have bounds := others.covers.inside p.span (List.mem_map_of_mem member)
    omega
  refine ⟨⟨?_, ?_, ?_⟩, ?_, ?_⟩
  · intro s member
    rcases List.mem_cons.mp member with rfl | member
    · simp only
      omega
    · have bounds := others.covers.inside s member
      omega
  · refine List.Pairwise.cons ?_ others.covers.ordered
    intro s member
    have bounds := others.covers.inside s member
    simp only
    omega
  · intro i b behind found uncovered
    by_cases inside : i < start + text.length
    · exact absurd ⟨by simp only; omega, by simp only; omega⟩ (uncovered _ List.mem_cons_self)
    · exact others.covers.between i b (by omega) found
        fun s member => uncovered s (List.mem_cons_of_mem _ member)
  · intro p first q second invalid invalid'
    rcases List.mem_cons.mp first with rfl | first
    · rcases List.mem_cons.mp second with rfl | second
      · simp only
        omega
      · exact (apart invalid q second invalid').symm
    · rcases List.mem_cons.mp second with rfl | second
      · have bounds := behind p first
        simp only
        omega
      · exact others.apart p first q second invalid invalid'
  · intro p member
    rcases List.mem_cons.mp member with rfl | member
    · have stop : ((start : Int) + text.length).toNat = start + text.length := by omega
      rw [cut_split split]
      simp only [stop, drop_split split]
      exact lexeme
    · exact others.lexemes p member

theorem segments_of_lexes {text : List UInt8} (lexes : Lexes start text pieces)
    (front : source.drop start = text) : Segments source start pieces := by
  induction lexes with
  | done index =>
    have short : source.length ≤ index := by simpa using front
    refine ⟨⟨by simp, by simp, ?_⟩, by simp, by simp⟩
    intro i b behind found
    rw [List.getElem?_eq_none (by omega)] at found
    cases found
  | @separator index b rest pieces separates _ ih =>
    have here : source[index]? = some b := by
      rw [← List.head?_drop, front, List.head?_cons]
    exact .separator here separates (ih (drop_succ_split front))
  | piece filled lexeme apart _ ih => exact .piece front filled lexeme apart (ih (drop_split front))

theorem Segments.skip {b : UInt8} (segments : Segments source start pieces)
    (here : source[start]? = some b) (later : ∀ p ∈ pieces, p.span.start ≠ start) :
    Separates b ∧ Segments source (start + 1) pieces := by
  have behind : ∀ s ∈ pieces.map Piece.span, (start : Int) < s.start := by
    intro s member
    obtain ⟨p, inPieces, rfl⟩ := List.mem_map.mp member
    have bounds := segments.covers.inside p.span member
    have other := later p inPieces
    omega
  constructor
  · apply segments.covers.between start b (Nat.le_refl _) here
    intro s member
    have after := behind s member
    omega
  · refine ⟨⟨?_, segments.covers.ordered, ?_⟩, segments.apart, segments.lexemes⟩
    · intro s member
      have bounds := segments.covers.inside s member
      have after := behind s member
      omega
    · intro i c after
      exact segments.covers.between i c (by omega)

theorem Segments.tail {p : Piece} (segments : Segments source start (p :: pieces)) :
    Segments source p.span.stop.toNat pieces := by
  have first := segments.covers.inside p.span List.mem_cons_self
  have after := (List.pairwise_cons.mp segments.covers.ordered).1
  refine ⟨⟨?_, segments.covers.ordered.of_cons, ?_⟩, ?_, ?_⟩
  · intro s member
    have bounds := segments.covers.inside s (List.mem_cons_of_mem _ member)
    have behind := after s member
    omega
  · intro i b behind found uncovered
    apply segments.covers.between i b (by omega) found
    intro s member
    rcases List.mem_cons.mp member with rfl | member
    · omega
    · exact uncovered s member
  · intro p first q second
    exact segments.apart p (List.mem_cons_of_mem _ first) q (List.mem_cons_of_mem _ second)
  · intro p member
    exact segments.lexemes p (List.mem_cons_of_mem _ member)

/-- The first piece, where it begins at the front of what is left of the source. -/
theorem Segments.split {p : Piece} (segments : Segments source start (p :: pieces))
    (here : p.span.start = start) :
    ∃ text rest, source.drop start = text ++ rest ∧ text ≠ [] ∧
      p.span = ⟨start, start + text.length⟩ ∧ Lexeme p.kind text rest := by
  have bounds := segments.covers.inside p.span List.mem_cons_self
  have lexeme := segments.lexemes p List.mem_cons_self
  have length : (p.span.cut source).length = p.span.length.toNat := by
    simp only [Span.cut, Span.length, List.length_take, List.length_drop]
    omega
  have size : p.span.length = p.span.stop - start := by rw [Span.length, here]
  refine ⟨_, _, ?_, ?_, ?_, lexeme⟩
  · have whole := List.take_append_drop p.span.length.toNat (source.drop start)
    have stop : start + p.span.length.toNat = p.span.stop.toNat := by omega
    rw [List.drop_drop, stop] at whole
    rw [← whole, Span.cut, here]
    rfl
  · intro empty
    rw [empty, List.length_nil] at length
    omega
  · have stop : p.span.stop = start + (p.span.cut source).length := by omega
    rw [← stop, ← here]

theorem lexes_of_segments (segments : Segments source start pieces) :
    Lexes start (source.drop start) pieces := by
  -- Each step leaves less of the source: a separator, or the piece that begins here.
  induction left : source.length - start using Nat.strongRecOn generalizing start pieces with
  | ind left ih =>
    cases front : source.drop start with
    | nil =>
      have short : source.length ≤ start := by simpa using front
      cases pieces with
      | nil => exact .done start
      | cons p pieces =>
        have bounds := segments.covers.inside p.span List.mem_cons_self
        omega
    | cons b rest =>
      have here : source[start]? = some b := by
        rw [← List.head?_drop, front, List.head?_cons]
      obtain ⟨inside, -⟩ := List.getElem?_eq_some_iff.mp here
      by_cases later : ∀ p ∈ pieces, p.span.start ≠ start
      · obtain ⟨separates, others⟩ := segments.skip here later
        have lexes := ih (source.length - (start + 1)) (by omega) others rfl
        rw [drop_succ_split front] at lexes
        exact .separator separates lexes
      · cases pieces with
        | nil => simp at later
        | cons p pieces =>
          have bounds := segments.covers.inside p.span List.mem_cons_self
          have begins : p.span.start = start := by
            by_contra away
            apply later
            intro q member
            rcases List.mem_cons.mp member with rfl | member
            · exact away
            · have after := (List.pairwise_cons.mp segments.covers.ordered).1 q.span
                (List.mem_map_of_mem member)
              omega
          obtain ⟨text, after, split, filled, shape, lexeme⟩ := segments.split begins
          obtain ⟨kind, span⟩ := p
          subst shape
          have stop : ((start : Int) + text.length).toNat = start + text.length := by omega
          have others := segments.tail
          simp only [stop] at others
          have lexes := ih (source.length - (start + text.length)) (by simp only at bounds; omega)
            others rfl
          rw [drop_split split] at lexes
          rw [← front, split]
          refine .piece filled lexeme ?_ lexes
          intro invalid q member invalid'
          exact (segments.apart _ List.mem_cons_self q (List.mem_cons_of_mem _ member) invalid
            invalid').symm

end Lexes

section Items

theorem Lexes.behind {index : Nat} {text : List UInt8} {pieces : List Piece}
    (lexes : Lexes index text pieces) : ∀ q ∈ pieces, (index : Int) ≤ q.span.start := by
  induction lexes with
  | done => simp
  | separator _ _ ih =>
    intro q member
    have after := ih q member
    omega
  | piece _ _ _ _ ih =>
    intro q member
    rcases List.mem_cons.mp member with rfl | member
    · exact Int.le_refl _
    · have after := ih q member
      omega

/-- Invalid characters at the front of a text begin a piece. -/
theorem Lexes.settled_iff {index : Nat} {text : List UInt8} {pieces : List Piece}
    (lexes : Lexes index text pieces) :
    Settled text ↔ ∀ q ∈ pieces, q.kind = none → q.span.start ≠ index := by
  cases lexes with
  | done => simp [Settled]
  | separator separates others =>
    constructor
    · intro _ q member _
      have after := others.behind q member
      omega
    · intro _ b rest front strange
      cases front
      exact strange.notSeparator separates
  | @piece _ kind text rest pieces filled lexeme apart others =>
    have positive := List.length_pos_iff.mpr filled
    cases kind with
    | none =>
      obtain ⟨first, tail, rfl⟩ := List.exists_cons_of_ne_nil filled
      have strange := (lexeme_invalid_cons.mp lexeme).1
      constructor
      · intro settled
        exact absurd strange (settled first _ rfl)
      · intro away
        exact absurd rfl (away _ List.mem_cons_self rfl)
    | some kind =>
      obtain ⟨first, tail, rfl, shaped⟩ := shape_of_lexeme lexeme
      constructor
      · intro _ q member invalid
        rcases List.mem_cons.mp member with rfl | member
        · cases invalid
        · have after := others.behind q member
          omega
      · intro _ b rest front strange
        cases front
        have contrary := (shape_of_invalid strange).symm.trans shaped
        cases contrary

theorem Scans.lexes {c last : Cursor} {all : List Item} (scans : Scans c all last) :
    Lexes c.index c.rest (all.map Item.piece) := by
  induction scans with
  | @done c front =>
    rw [front]
    exact .done c.index
  | separator front separates _ ih =>
    rw [Cursor.skip_rest front, Cursor.skip_index] at ih
    rw [front]
    exact .separator separates ih
  | token front lexeme _ ih =>
    rw [Cursor.advance_rest front] at ih
    rw [front]
    exact .piece (filled_of_lexeme lexeme) lexeme (by simp) ih
  | invalid front filled invalid settled _ _ ih =>
    rw [Cursor.advance_rest front] at ih
    rw [front]
    refine .piece filled invalid ?_ ih
    intro _ q member invalid'
    exact ih.settled_iff.mp settled q member invalid'

theorem items_lexes (c : Cursor) : Lexes c.index c.rest ((items c).map Item.piece) := by
  obtain ⟨last, scans⟩ := scans_items c
  exact scans.lexes

theorem items_of_lexes {index : Nat} {text : List UInt8} {pieces : List Piece}
    (lexes : Lexes index text pieces) (c : Cursor) (here : c.index = index)
    (front : c.rest = text) :
    (items c).map Item.piece = pieces := by
  induction lexes generalizing c with
  | done =>
    rw [items_of_none (next_end front)]
    rfl
  | @separator index b rest pieces separates _ ih =>
    rw [items_separator front separates]
    exact ih (c.skip b) (by rw [Cursor.skip_index, here]) (Cursor.skip_rest front)
  | @piece index kind text rest pieces filled lexeme apart others ih =>
    cases kind with
    | some kind =>
      have later := ih (c.advance text.length text.length) (by rw [← here]; rfl)
        (Cursor.advance_rest front _)
      rw [items_of_some (next_token front lexeme), List.map_cons, later, here]
      rfl
    | none =>
      have settled : Settled rest := by
        apply others.settled_iff.mpr
        intro q member invalid
        exact apart rfl q member invalid
      have later := ih (c.advance text.length (invalidRun (text ++ rest)).2) (by rw [← here]; rfl)
        (Cursor.advance_rest front _)
      rw [items_of_some (next_invalid front filled lexeme settled), List.map_cons, later, here]
      rfl

theorem items_segments (source : List UInt8) :
    Segments source 0 ((items (.ofSource source)).map Item.piece) :=
  segments_of_lexes (items_lexes (.ofSource source)) rfl

/-- Lexing is maximal munch: the items of a source are the one sequence of pieces that covers the
source up to separators and in which every piece is a lexeme where it stands. -/
theorem segments_iff_items (source : List UInt8) (pieces : List Piece) :
    Segments source 0 pieces ↔ pieces = (items (.ofSource source)).map Item.piece := by
  constructor
  · intro segments
    have lexes := lexes_of_segments segments
    exact (items_of_lexes lexes (.ofSource source) rfl rfl).symm
  · rintro rfl
    exact items_segments source

end Items

section Reading

/-- The cursor after one call of `next`. It stays at the end of the text. -/
def Cursor.proceed (c : Cursor) : Cursor :=
  ((next c).map Prod.snd).getD c

/-- What `next` answers when it is called again after `n` calls. -/
def answer (source : List UInt8) (n : Nat) : Option Item :=
  (next (Cursor.proceed^[n] (.ofSource source))).map Prod.fst

theorem next_proceed (c : Cursor) (n : Nat) :
    (next (Cursor.proceed^[n] c)).map Prod.fst = (items c)[n]? := by
  induction n generalizing c with
  | zero =>
    cases read : next c with
    | none => simp [items_of_none read, read]
    | some found => simp [items_of_some read, read]
  | succ n ih =>
    rw [Function.iterate_succ_apply, ih]
    cases read : next c with
    | none =>
      have stays : c.proceed = c := by simp [Cursor.proceed, read]
      rw [stays, items_of_none read]
      rfl
    | some found =>
      have moves : c.proceed = found.2 := by simp [Cursor.proceed, read]
      rw [moves, items_of_some read, List.getElem?_cons_succ]

/-- Calling `next` again and again gives finitely many items and then the end for ever. The items
cover the source up to its separators, no two runs of invalid characters touch, and the tokens and
the invalid runs of the source are these items, in their order. -/
theorem reading_covers_source (source : List UInt8) :
    ∃ all : List Item, (∀ n, answer source n = all[n]?) ∧
      Covers source 0 (all.map fun item => item.piece.span) ∧
      (∀ a b, .invalid a ∈ all → .invalid b ∈ all → a.index.stop ≠ b.index.start) ∧
      tokens source = all.filterMap Item.token? ∧
      invalids source = all.filterMap Item.invalid? := by
  have segments := items_segments source
  refine ⟨items (.ofSource source), next_proceed _, ?_, ?_, rfl, rfl⟩
  · have covers := segments.covers
    rw [List.map_map] at covers
    exact covers
  · intro a b first second
    exact segments.apart _ (List.mem_map_of_mem first) _ (List.mem_map_of_mem second) rfl rfl

end Reading

end Lexer

end DeltaLang
