import DeltaLang.Proofs.Yaml.Input
import DeltaLang.Proofs.Yaml.Scalar
import DeltaLang.Yaml.Token.Scanner
import Mathlib.Data.List.TakeWhile

namespace DeltaLang.Yaml.Scanner

/-- Outside of brackets, with nothing that has to be a key. -/
def Idle (keys : List (Option PossibleKey)) : Prop :=
  ∃ key, keys = [key] ∧ ∀ k ∈ key, k.required = false

/-- A scanner of a whole text that stands before `text`. -/
structure Stands (s : Scanner) (text : List Char) (column : Nat) (allowed : Bool)
    (blocks : List Nat) (tokens : List Token) : Prop where
  text : s.text = text
  column : s.mark.column = column
  allowed : s.keyAllowed = allowed
  blocks : s.blocks = blocks
  tokens : s.tokens = tokens
  idle : Idle s.keys
  whole : s.limit = none
  unmarked : s.marked = 0

/-- The scanner behind blanks, comments and line ends. -/
def settled (s : Scanner) : Scanner :=
  let (text, mark, keyAllowed) := skipSpace false 0 s.text s.mark s.keyAllowed false
  { s with text, mark, keyAllowed }

/-- A scanner that comes to stand before `text`. -/
def Before (s : Scanner) (text : List Char) (column : Nat) (allowed : Bool) (blocks : List Nat)
    (tokens : List Token) : Prop :=
  Stands s.settled text column allowed blocks tokens

section Keys

variable {s : Scanner}

theorem Idle.inFlow_eq_false (idle : Idle s.keys) : s.inFlow = false := by
  obtain ⟨key, keys, -⟩ := idle
  simp [inFlow, keys]

theorem Idle.dropKey? (idle : Idle s.keys) : s.dropKey? = some { s with keys := [none] } := by
  obtain ⟨key, keys, free⟩ := idle
  cases key with
  | none =>
    have same : s.dropKey? = some s := by simp only [Scanner.dropKey?, keys]
    rw [same, ← keys]
  | some k => simp [Scanner.dropKey?, keys, free k rfl]

theorem Idle.expireKeys? (idle : Idle s.keys) :
    ∃ keys, s.expireKeys? = some { s with keys } ∧ Idle keys := by
  obtain ⟨key, keys, free⟩ := idle
  refine ⟨s.keys.map (·.filter (!isStale s.mark ·)), ?_, ?_⟩
  · refine if_neg ?_
    cases key with
    | none => simp [keys]
    | some k =>
      have notRequired := free k rfl
      by_cases stale : isStale s.mark k = true <;> simp [keys, Option.filter, stale, notRequired]
  · refine ⟨_, by rw [keys]; rfl, ?_⟩
    intro k member
    exact free k (Option.filter_eq_some_iff.mp member).1

/-- A key that may begin here has to if it stands at the indentation of the block. -/
theorem Idle.saveKey? (idle : Idle s.keys) (allowed : s.keyAllowed = true) :
    s.saveKey? = some { s with
      keys := [some ⟨s.blocks.head? == some s.mark.column, s.tokens.length, s.mark⟩] } := by
  simp [Scanner.saveKey?, allowed, idle.dropKey?, inFlow]

theorem Idle.saveKey?_inside (idle : Idle s.keys) (apart : s.blocks.head? ≠ some s.mark.column) :
    ∃ keys, s.saveKey? = some { s with keys } ∧ Idle keys := by
  by_cases allowed : s.keyAllowed = true
  · refine ⟨_, idle.saveKey? allowed, _, rfl, ?_⟩
    rintro k ⟨⟩
    simpa using apart
  · exact ⟨s.keys, if_neg allowed, idle⟩

end Keys

section Space

theorem skipSpace_space (rest : List Char) (mark : Mark) (allowed : Bool) :
    skipSpace false 0 (' ' :: rest) mark allowed false =
      skipSpace false 0 rest (mark.advance 1) allowed false := by
  rw [skipSpace]
  simp [isBreak]

theorem skipSpace_indentation (count : Nat) (rest : List Char) (mark : Mark) (allowed : Bool) :
    skipSpace false 0 (List.replicate count ' ' ++ rest) mark allowed false =
      skipSpace false 0 rest (mark.advance count) allowed false := by
  induction count generalizing mark with
  | zero => rfl
  | succ count ih =>
    rw [List.replicate_succ, List.cons_append, skipSpace_space, ih, Mark.advance_advance,
      Nat.add_comm]

theorem skipSpace_newLine (count : Nat) (rest : List Char) (mark : Mark) (allowed : Bool) :
    skipSpace false 0 (Scalar.newLine count ++ rest) mark allowed false =
      skipSpace false 0 rest (mark.newline.advance count) true false := by
  rw [Scalar.newLine, List.cons_append, skipSpace]
  simp [isBreak, skipSpace_indentation]

theorem skipSpace_next {next : List Char} {place : Nat} (follows : NextLine next place)
    (mark : Mark) (allowed : Bool) :
    skipSpace false 0 next mark allowed false = (next, mark, allowed) := by
  cases follows with
  | ended => rfl
  | @token c rest _ visible noComment =>
    simp only [isSpace, isBlank, Bool.or_eq_false_iff, decide_eq_false_iff_not] at visible
    obtain ⟨⟨noSpace, noTab⟩, noBreak⟩ := visible
    rw [skipSpace]
    simp [noSpace, noTab, noBreak, noComment]

variable {s : Scanner} {next : List Char} {column place : Nat} {allowed : Bool}
  {blocks : List Nat} {tokens : List Token}

theorem Stands.before (stands : Stands s next column allowed blocks tokens)
    (follows : NextLine next place) : Before s next column allowed blocks tokens := by
  have settles : s.settled = s := by
    simp only [settled, stands.text, skipSpace_next follows]
    rw [← stands.text]
  rw [Before, settles]
  exact stands

theorem Stands.before_space (stands : Stands s (' ' :: next) column allowed blocks tokens)
    (follows : NextLine next place) : Before s next (column + 1) allowed blocks tokens := by
  have settles : s.settled = { s with text := next, mark := s.mark.advance 1 } := by
    simp only [settled, stands.text, skipSpace_space, skipSpace_next follows]
  rw [Before, settles]
  exact { stands with text := rfl, column := congrArg (· + 1) stands.column }

theorem Stands.before_line
    (stands : Stands s (Scalar.newLine place ++ next) column allowed blocks tokens)
    (follows : NextLine next place) : Before s next place true blocks tokens := by
  have settles : s.settled =
      { s with text := next, mark := s.mark.newline.advance place, keyAllowed := true } := by
    simp only [settled, stands.text, skipSpace_newLine, skipSpace_next follows]
  rw [Before, settles]
  exact { stands with text := rfl, column := Nat.zero_add place, allowed := rfl }

theorem Stands.look (stands : Stands s next column allowed blocks tokens) (index : Nat) :
    Stands (s.look index) next column allowed blocks tokens :=
  { stands with }

theorem approach?_eq {e : Scanner} (outside : s.inFlow = false) (unmarked : s.marked = 0)
    (expired : s.settled.expireKeys? = some e) :
    s.approach? = some ((e.closeBlocks (s.settled.mark.column < ·)).look
      (s.settled.mark.index + lookahead)) := by
  have unmarked' : (if s.reach ≤ s.marked then s.marked else 0) = 0 := by rw [unmarked, ite_self]
  simp only [Scanner.approach?, unmarked', outside]
  exact congrArg (· >>= _) expired

/-- Before the next token the blocks that lie right of it are closed. -/
theorem Before.approach? (before : Before s next column allowed blocks tokens) :
    ∃ s', s.approach? = some s' ∧
      Stands s' next column allowed (blocks.dropWhile (column < ·))
        (tokens ++ (blocks.takeWhile (column < ·)).map fun _ => Token.blockEnd) := by
  have outside : s.inFlow = false := before.idle.inFlow_eq_false
  obtain ⟨keys, expired, idle⟩ := before.idle.expireKeys?
  refine ⟨_, approach?_eq outside before.unmarked expired, .look ?_ _⟩
  have inside : { s.settled with keys }.inFlow = false := idle.inFlow_eq_false
  simp only [closeBlocks, inside, Bool.false_eq_true, ↓reduceIte]
  exact
    { before with
      blocks := by rw [before.blocks, before.column]
      tokens := by rw [before.tokens, before.blocks, before.column]
      idle }

theorem takeWhile_outer (inside : blocks.head?.all (· ≤ column) = true) :
    blocks.takeWhile (column < ·) = [] := by
  cases blocks with
  | nil => rfl
  | cons b others => exact List.takeWhile_cons_of_neg (by simpa using inside)

theorem dropWhile_outer (inside : blocks.head?.all (· ≤ column) = true) :
    blocks.dropWhile (column < ·) = blocks := by
  cases blocks with
  | nil => rfl
  | cons b others => exact List.dropWhile_cons_of_neg (by simpa using inside)

end Space

section Runs

/-- With fuel for `steps` steps, the scanner comes to its end with these tokens. -/
def Scans (steps : Nat) (s : Scanner) (tokens : List Token) : Prop :=
  ∀ fuel asked, steps ≤ fuel → s.run fuel asked = tokens

variable {s : Scanner} {next : List Char} {column : Nat} {allowed : Bool} {blocks : List Nat}
  {tokens final : List Token} {steps : Nat}

/-- Before a step keys may expire, so what is known of the scanner has to outlast that. -/
theorem run_succ (holds : Scanner → Prop) (here : holds s)
    (expires : ∃ keys, s.expireKeys? = some { s with keys } ∧ holds { s with keys })
    (fuel asked : Nat) :
    ∃ s', holds s' ∧ s'.tokens = s.tokens ∧
      s.run (fuel + 1) asked =
        if s'.tokens.getLast? == some .streamEnd then s'.tokens
        else s'.fetch?.elim (s'.tokens.take s'.known) (·.run fuel s'.known) := by
  obtain ⟨keys, expired, still⟩ := expires
  by_cases known : asked < s.tokens.length
  · refine ⟨_, still, rfl, ?_⟩
    simp only [run, if_pos known, expired]
    cases Scanner.fetch? _ <;> rfl
  · refine ⟨s, here, rfl, ?_⟩
    simp only [run, if_neg known]
    cases s.fetch? <;> rfl

theorem Scans.step (holds : Scanner → Prop) (here : holds s) (unfinished : .streamEnd ∉ s.tokens)
    (expires : ∃ keys, s.expireKeys? = some { s with keys } ∧ holds { s with keys })
    (fetches : ∀ s, holds s → ∃ s', s.fetch? = some s' ∧ Scans steps s' final) :
    Scans (steps + 1) s final := by
  intro fuel asked enough
  obtain ⟨fuel, rfl⟩ := Nat.exists_eq_add_of_le' (Nat.le_of_add_left_le enough)
  obtain ⟨s', still, same, ran⟩ := run_succ holds here expires fuel asked
  obtain ⟨next, fetched, rest⟩ := fetches s' still
  have last : (s'.tokens.getLast? == some .streamEnd) = false := by
    rw [beq_eq_false_iff_ne, same]
    exact fun contrary => unfinished (List.mem_of_getLast? contrary)
  rw [ran, last, fetched]
  exact rest fuel _ (Nat.le_of_add_le_add_right enough)

theorem fetch?_token {a t : Scanner} {c : Char} {rest : List Char}
    (approached : s.approach? = some a) (text : a.text = c :: rest)
    (token : a.token? c rest = some t) (whole : t.limit = none) :
    s.fetch? = some (t.look (t.mark.index + 1)) := by
  have within : (t.look (t.mark.index + 1)).isWithin = true := by
    simp [isWithin, look, whole]
  simp [fetch?, approached, text, token, within]

theorem Before.expires (before : Before s next column allowed blocks tokens) :
    ∃ keys, s.expireKeys? = some { s with keys } ∧
      Before { s with keys } next column allowed blocks tokens := by
  have idle : Idle s.keys := before.idle
  obtain ⟨keys, expired, still⟩ := idle.expireKeys?
  exact ⟨keys, expired, { before with idle := still }⟩

theorem Before.step (before : Before s next column allowed blocks tokens)
    (unfinished : .streamEnd ∉ tokens)
    (fetches : ∀ s, Before s next column allowed blocks tokens →
      ∃ s', s.fetch? = some s' ∧ Scans steps s' final) : Scans (steps + 1) s final := by
  have tokens' : s.tokens = tokens := before.tokens
  exact Scans.step (Before · next column allowed blocks tokens) before (tokens' ▸ unfinished)
    before.expires fetches

/-- A step from before a token to behind it. -/
theorem Before.scans {c : Char} {rest : List Char} (after : Scanner → Prop)
    (before : Before s (c :: rest) column allowed blocks tokens)
    (unfinished : .streamEnd ∉ tokens) (inside : blocks.head?.all (· ≤ column) = true)
    (token : ∀ s, Stands s (c :: rest) column allowed blocks tokens →
      ∃ s', s.token? c rest = some s' ∧ s'.limit = none ∧ after (s'.look (s'.mark.index + 1)))
    (later : ∀ s, after s → Scans steps s final) : Scans (steps + 1) s final := by
  refine before.step unfinished fun s before => ?_
  obtain ⟨a, approached, stands⟩ := before.approach?
  rw [takeWhile_outer inside, dropWhile_outer inside, List.map_nil, List.append_nil] at stands
  obtain ⟨t, read, whole, behind⟩ := token a stands
  exact ⟨_, fetch?_token approached stands.text read whole, later _ behind⟩

theorem scans_finished (idle : Idle s.keys) (ended : s.tokens = tokens ++ [.streamEnd]) :
    Scans 1 s s.tokens := by
  intro fuel asked enough
  obtain ⟨fuel, rfl⟩ := Nat.exists_eq_add_of_le' enough
  obtain ⟨keys, expired, -⟩ := idle.expireKeys?
  obtain ⟨s', -, same, ran⟩ :=
    run_succ (fun _ => True) trivial ⟨keys, expired, trivial⟩ fuel asked
  rw [ran, same, ended]
  exact if_pos (by simp)

theorem Stands.finish? (stands : Stands s [] column allowed blocks tokens) :
    ∃ s', s.finish? = some s' ∧ s'.limit = none ∧ Idle s'.keys ∧
      s'.tokens = tokens ++ blocks.map (fun _ => Token.blockEnd) ++ [.streamEnd] := by
  have outside : s.inFlow = false := stands.idle.inFlow_eq_false
  have all : blocks.takeWhile (fun _ => true) = blocks :=
    List.takeWhile_eq_self_iff.mpr fun _ _ => rfl
  have closed : s.closeBlocks (fun _ => true) = { s with
      blocks := blocks.dropWhile fun _ => true
      tokens := tokens ++ blocks.map fun _ => Token.blockEnd } := by
    simp only [closeBlocks, outside, Bool.false_eq_true, ↓reduceIte, stands.tokens, stands.blocks,
      all]
  have idle : Idle (s.closeBlocks fun _ => true).keys := by
    rw [closed]
    exact stands.idle
  simp only [Scanner.finish?, idle.dropKey?, Option.bind_eq_bind, Option.bind_some]
  refine ⟨_, rfl, ?_⟩
  rw [closed]
  split <;> exact ⟨stands.whole, ⟨none, rfl, by simp⟩, rfl⟩

/-- At the end of the text all blocks are closed. -/
theorem Before.scans_end (before : Before s [] column allowed blocks tokens)
    (unfinished : .streamEnd ∉ tokens) :
    Scans 2 s (tokens ++ blocks.map (fun _ => Token.blockEnd) ++ [.streamEnd]) := by
  refine before.step unfinished fun s before => ?_
  obtain ⟨a, approached, stands⟩ := before.approach?
  obtain ⟨f, finished, whole, idle, ended⟩ := stands.finish?
  have fetched : s.fetch? = some f := by
    simp [fetch?, approached, stands.text, finished, isWithin, whole]
  rw [List.append_assoc tokens, ← List.map_append, List.takeWhile_append_dropWhile] at ended
  rw [← ended]
  exact ⟨f, fetched, scans_finished idle ended⟩

end Runs

section Scalars

/-- What tells the beginning of a plain scalar from other tokens. -/
structure BeginsPlain (c : Char) (rest : List Char) : Prop where
  notSpace : isSpace c = false
  noIndicator : c ∉ "#,[]\x7b\x7d&*!|>'\"%@\x60".toList
  apart : c = '-' ∨ c = '?' ∨ c = ':' → atSpace rest = false

theorem BeginsPlain.beginsPlain {c : Char} {rest : List Char} (begins : BeginsPlain c rest) :
    beginsPlain false c rest = true := by
  by_cases indicator : isIndicator c = true
  · have among : c = '-' ∨ c = '?' ∨ c = ':' := by
      have others := begins.noIndicator
      simp [isIndicator] at indicator others
      grind
    have apart := begins.apart among
    cases rest with
    | nil => cases apart
    | cons d others =>
      have notBlank := (isSpace_eq_false_iff.mp apart).1
      rcases among with rfl | rfl | rfl
      · simp [Scanner.beginsPlain, notBlank]
      · simp [Scanner.beginsPlain, apart]
      · simp [Scanner.beginsPlain, apart]
  · rw [Bool.not_eq_true] at indicator
    simp [Scanner.beginsPlain, begins.notSpace, indicator]

theorem BeginsPlain.token? {s : Scanner} {c : Char} {rest : List Char}
    (begins : BeginsPlain c rest) (outside : s.inFlow = false)
    (inside : s.mark.column ≠ 0 ∨ atDocumentMark (c :: rest) = false) :
    s.token? c rest = s.plain? := by
  have noIndicator := begins.noIndicator
  have noMark : (s.mark.column == 0 && atDocumentMark (c :: rest)) = false := by
    rcases inside with right | none
    · simp [right]
    · simp [none]
  have never (d : Char) (among : d = '-' ∨ d = '?' ∨ d = ':') :
      (c = d && atSpace rest) = false := by
    by_cases same : c = d
    · rw [begins.apart (same ▸ among), Bool.and_false]
    · simp [same]
  simp only [Scanner.token?, noMark, outside, Bool.false_or, never '-' (.inl rfl),
    never '?' (.inr (.inl rfl)), never ':' (.inr (.inr rfl)), begins.beginsPlain]
  simp at noIndicator
  simp [noIndicator]

variable {s : Scanner} {next : List Char} {b column place : Nat} {allowed : Bool}
  {blocks : List Nat} {tokens final : List Token} {steps : Nat}

theorem Stands.accept {text : List Char} (stands : Stands s text column allowed blocks tokens)
    (keyAllowed isPlain : Bool) (r : Scanned) :
    Stands (s.accept keyAllowed isPlain r) r.rest r.mark.column (keyAllowed || r.leftLine) blocks
      (tokens ++ [.scalar (String.ofList r.value) isPlain]) :=
  { stands with text := rfl, column := rfl, allowed := rfl, tokens := by rw [← stands.tokens]; rfl }

theorem Stands.saveKey? {text : List Char}
    (stands : Stands s text column allowed (b :: blocks) tokens) (inside : b < column) :
    ∃ s', s.saveKey? = some s' ∧ Stands s' text column allowed (b :: blocks) tokens := by
  have apart : s.blocks.head? ≠ some s.mark.column := by
    rw [stands.blocks, stands.column]
    simpa using Nat.ne_of_lt inside
  obtain ⟨keys, saved, idle⟩ := stands.idle.saveKey?_inside apart
  exact ⟨_, saved, { stands with idle }⟩

theorem begins_plainLines {c : Char} {rest : List Char} (fits : Scalar.Plain c rest)
    (margin column : Nat) (tail : List Char) :
    BeginsPlain c (Scalar.plainLines margin column false rest ++ '\n' :: tail) := by
  obtain ⟨visible, notSpace, noFirst, noInner, -⟩ := fits
  simp only [Scalar.hasFirstIndicator, Bool.or_eq_false_iff] at noFirst
  obtain ⟨⟨-, noIndicator⟩, noDash⟩ := noFirst
  refine ⟨notSpace, fun member => ?_, ?_⟩
  · rw [List.contains_iff_mem.mpr member] at noIndicator
    cases noIndicator
  intro among
  rw [Scalar.atSpace_plainLines visible.tail]
  simp only [Scalar.hasInnerIndicator, Bool.or_eq_false_iff] at noInner
  rcases among with rfl | rfl | rfl
  · simpa using noDash
  · simpa using noDash
  · simpa using noInner.1.1

theorem token?_singleQuote (rest : List Char) : s.token? '\'' rest = s.singleQuoted? := by
  simp [token?, atDocumentMark]

theorem token?_doubleQuote (rest : List Char) : s.token? '"' rest = s.doubleQuoted? := by
  simp [token?, atDocumentMark]

theorem Stands.plain {c : Char} {rest : List Char} (fits : Scalar.Plain c rest) {margin : Nat}
    (stands : Stands s (c :: (Scalar.plainLines margin (column + 1) false rest ++
      (Scalar.newLine place ++ next))) column allowed (b :: blocks) tokens)
    (inside : b < column) (deep : b < margin) (follows : NextLine next place)
    (outside : place ≤ b) :
    ∃ s', s.token? c (Scalar.plainLines margin (column + 1) false rest ++
        (Scalar.newLine place ++ next)) = some s' ∧
      Stands s' next place true (b :: blocks)
        (tokens ++ [.scalar (String.ofList (c :: rest)) true]) := by
  have right : s.mark.column ≠ 0 := by
    rw [stands.column]
    exact Nat.ne_zero_of_lt inside
  rw [Scalar.newLine, List.cons_append, (begins_plainLines fits margin (column + 1) _).token?
    stands.idle.inFlow_eq_false (.inl right)]
  rw [← List.cons_append, ← fits.lines] at stands
  obtain ⟨s', saved, stands'⟩ := stands.saveKey? inside
  have notFlow : s'.inFlow = false := stands'.idle.inFlow_eq_false
  obtain ⟨r, read, value, rest', place', leftLine⟩ :=
    Scalar.plain?_plainLines (Nat.succ_pos b) deep follows (Nat.lt_succ_of_le outside) fits.visible
      column (@Scalar.Gapped.none false _) fits.noInner (fun contrary => absurd rfl contrary)
      (fun _ => rfl) fits.last (stands'.column ▸ inside : b + 1 ≤ s'.mark.column)
  refine ⟨s'.accept false true r, ?_, ?_⟩
  · simp [Scanner.plain?, saved, notFlow, stands'.text, stands'.blocks, read]
  · have accepted := stands'.accept false true r
    rw [value, rest', place', leftLine] at accepted
    exact accepted

/-- Readers of quoted scalars differ in what they make of the text between the quotes. -/
theorem Stands.quoted {q : Char} {body value rest : List Char}
    (read : List Char → Mark → Option Scanned)
    (stands : Stands s (q :: body) column allowed (b :: blocks) tokens) (inside : b < column)
    (gives : ∀ mark : Mark, 0 < mark.column → Scalar.Gives (read body mark) value rest) :
    ∃ s' column', (do
        let s ← s.saveKey?
        let r ← read (s.text.drop 1) (s.mark.advance 1)
        some ((s.look (s.mark.index + 1 + lookahead)).accept false false r)) = some s' ∧
      Stands s' rest column' false (b :: blocks)
        (tokens ++ [.scalar (String.ofList value) false]) := by
  obtain ⟨s', saved, stands'⟩ := stands.saveKey? inside
  obtain ⟨r, result, rfl, rfl, sameLine⟩ := gives (s'.mark.advance 1) (Nat.succ_pos _)
  have accepted := (stands'.look (s'.mark.index + 1 + lookahead)).accept false false r
  rw [sameLine] at accepted
  refine ⟨_, r.mark.column, ?_, accepted⟩
  rw [saved, Option.bind_eq_bind, Option.bind_some, stands'.text, List.drop_succ_cons,
    List.drop_zero, result]
  rfl

def scalarToken (value : String) : Token :=
  .scalar value (Scalar.style value = .plain)

@[simp] theorem streamEnd_ne_scalarToken (value : String) : .streamEnd ≠ scalarToken value := by
  simp [scalarToken]

/-- A scalar is read back as it is written, up to the next line. -/
theorem Before.scans_scalar {value : String} (oneLine : Scalar.OneLine value) {margin : Nat}
    (before : Before s (Scalar.write margin column value ++ (List.replicate place ' ' ++ next))
      column allowed (b :: blocks) tokens) (unfinished : .streamEnd ∉ tokens)
    (inside : b < column) (deep : b < margin) (follows : NextLine next place) (outside : place ≤ b)
    (later : ∀ s, Before s next place true (b :: blocks) (tokens ++ [scalarToken value]) →
      Scans steps s final) :
    Scans (steps + 1) s final := by
  have positive : 0 < margin := Nat.zero_lt_of_lt deep
  have within : (b :: blocks).head?.all (· ≤ column) = true := by simpa using Nat.le_of_lt inside
  have apart : (Scalar.newLine place ++ next).head? ≠ some '\'' := by simp [Scalar.newLine]
  have styled := Scalar.styled oneLine
  unfold Scalar.write at before
  unfold scalarToken at later
  generalize Scalar.style value = style at styled before later
  cases styled with
  | @plain c rest isText shape fits =>
    simp only [shape, fits.lines, List.cons_append, List.append_assoc, List.nil_append] at before
    refine before.scans (Before · next place true _ _) unfinished within ?_ later
    intro s stands
    obtain ⟨s', read, behind⟩ := stands.plain fits inside deep follows outside
    rw [← shape, String.ofList_toList] at behind
    exact ⟨s', read, behind.whole, (behind.look _).before follows⟩
  | singleQuoted visible =>
    simp only [List.cons_append, List.append_assoc, List.nil_append] at before
    refine before.scans (Before · next place true _ _) unfinished within ?_ later
    intro s stands
    obtain ⟨s', column', read, behind⟩ := stands.quoted
      (fun text mark => Scalar.singleQuoted? text mark .none) inside fun mark right =>
      Scalar.singleQuoted?_singleLines positive apart visible (column + 1) true
        (@Scalar.Gapped.none false _) right
    rw [token?_singleQuote]
    have value' : Gap.none.text ++ value.toList = value.toList := rfl
    rw [value', String.ofList_toList] at behind
    exact ⟨s', read, behind.whole, (behind.look _).before_line follows⟩
  | doubleQuoted =>
    simp only [List.cons_append, List.append_assoc, List.nil_append] at before
    refine before.scans (Before · next place true _ _) unfinished within ?_ later
    intro s stands
    obtain ⟨s', column', read, behind⟩ := stands.quoted
      (fun text mark => Scalar.doubleQuoted? text mark (.text .none)) inside fun mark right =>
      Scalar.doubleQuoted?_doubleBody positive (column + 1) value.toList _ right
    rw [token?_doubleQuote]
    rw [String.ofList_toList] at behind
    exact ⟨s', read, behind.whole, (behind.look _).before_line follows⟩

end Scalars

section Keys

/-- A name that a key may have: letters only, and not too many of them. -/
structure IsName (name : String) : Prop where
  letters : ∀ c ∈ name.toList, c.isAlpha = true
  filled : name.toList ≠ []
  short : name.length ≤ maxKeySize

section Letters

variable {c : Char}

theorem ne_of_letter {d : Char} (letter : c.isAlpha = true) (other : d.isAlpha = false) :
    c ≠ d := by
  rintro rfl
  rw [letter] at other
  cases other

theorem notSpace_of_letter (letter : c.isAlpha = true) : isSpace c = false := by
  simp [isSpace, isBlank, isBreak, ne_of_letter letter]

theorem begins_of_letter (letter : c.isAlpha = true) (rest : List Char) : BeginsPlain c rest := by
  refine ⟨notSpace_of_letter letter, by simp [ne_of_letter letter], ?_⟩
  rintro (rfl | rfl | rfl) <;> exact absurd letter (by decide)

theorem noMark_of_letter (letter : c.isAlpha = true) (rest : List Char) :
    atDocumentMark (c :: rest) = false := by
  unfold atDocumentMark
  split
  · next shape =>
    cases shape
    exact absurd letter (by decide)
  · next shape =>
    cases shape
    exact absurd letter (by decide)
  · rfl

end Letters

/-- Whether a key at a column opens a block inside of the open ones, and the blocks around its
own. -/
inductive Enters (column : Nat) : List Nat → Bool → List Nat → Prop
  | opens {blocks : List Nat} (deeper : blocks.head?.all (· < column) = true) :
      Enters column blocks true blocks
  | stays {outer : List Nat} : Enters column (column :: outer) false outer

theorem Enters.inside {column : Nat} {blocks outer : List Nat} {opens : Bool}
    (enters : Enters column blocks opens outer) : blocks.head?.all (· ≤ column) = true := by
  cases enters with
  | opens deeper =>
    cases blocks with
    | nil => rfl
    | cons b others =>
      simp only [List.head?_cons, Option.all_some, decide_eq_true_eq] at deeper ⊢
      exact Nat.le_of_lt deeper
  | stays => simp

/-- The tokens of a key, which opens a block where it is the first. -/
def keyTokens (opens : Bool) (name : String) : List Token :=
  (if opens then [.blockMappingStart] else []) ++ [.key, .scalar name true, .value]

@[simp] theorem streamEnd_keyTokens (opens : Bool) (name : String) :
    .streamEnd ∉ keyTokens opens name := by
  cases opens <;> simp [keyTokens]

/-- A scanner between the name of a key and the `:` behind it. -/
structure AtColon (s : Scanner) (name : String) (rest : List Char) (column : Nat)
    (blocks : List Nat) (tokens : List Token) : Prop where
  text : s.text = ':' :: rest
  key : ∃ key, s.keys = [some key] ∧ key.tokens = tokens.length ∧ key.mark.column = column ∧
    isStale s.mark key = false
  column : s.mark.column = column + name.length
  blocks : s.blocks = blocks
  tokens : s.tokens = tokens ++ [.scalar name true]
  whole : s.limit = none
  unmarked : s.marked = 0

variable {s : Scanner} {name : String} {rest : List Char} {column : Nat} {blocks : List Nat}
  {tokens final : List Token} {steps : Nat}

theorem Stands.atColon (isName : IsName name) (ends : atSpace rest = true)
    (stands : Stands s (name.toList ++ ':' :: rest) column true blocks tokens) :
    ∃ s', s.plain? = some s' ∧ AtColon s' name rest column blocks tokens := by
  have solid : ∀ c ∈ name.toList, isSpace c = false ∧ c ≠ ':' := fun c member =>
    ⟨notSpace_of_letter (isName.letters c member), ne_of_letter (isName.letters c member) rfl⟩
  have saved := stands.idle.saveKey? stands.allowed
  obtain ⟨r, read, value, rest', mark, -⟩ :=
    @Scalar.plain?_word (s.blocks.head?.elim 0 (· + 1)) _ _ solid ends s.mark
  rw [← stands.text] at read
  refine ⟨_, by simp only [Scanner.plain?, saved, inFlow, Option.bind_eq_bind, Option.bind_some,
    List.length_singleton, Nat.lt_irrefl, decide_false, gt_iff_lt, read]; rfl, ?_⟩
  have moved : r.mark = s.mark.advance name.length := by rw [mark, String.length_toList]
  have fresh : isStale r.mark
      ⟨s.blocks.head? == some s.mark.column, s.tokens.length, s.mark⟩ = false := by
    have near : ¬ s.mark.index + maxKeySize < s.mark.index + name.length := by
      have short := isName.short
      omega
    rw [moved]
    simp [isStale, Mark.advance, near]
  have place : r.mark.column = column + name.length := by rw [moved, ← stands.column]; rfl
  have behind : s.tokens ++ [.scalar (String.ofList r.value) true] =
      tokens ++ [.scalar name true] := by
    rw [value, String.ofList_toList, stands.tokens]
  exact
    { text := rest'
      key := ⟨_, rfl, congrArg List.length stands.tokens, stands.column, fresh⟩
      column := place
      blocks := stands.blocks
      tokens := behind
      whole := stands.whole
      unmarked := stands.unmarked }

theorem insertIdx_behind (before : List Token) (token : Token) (behind : List Token) :
    (before ++ behind).insertIdx before.length token = before ++ token :: behind := by
  induction before with
  | nil => rfl
  | cons first others ih =>
    rw [List.cons_append, List.length_cons, List.insertIdx_succ_cons, ih, List.cons_append]

theorem AtColon.expireKeys? (atColon : AtColon s name rest column blocks tokens) :
    s.expireKeys? = some s := by
  obtain ⟨key, keys, -, -, fresh⟩ := atColon.key
  have same : s.keys.map (·.filter (!isStale s.mark ·)) = s.keys := by simp [keys, fresh]
  have none : (s.keys.filterMap (·.filter (isStale s.mark))).any (·.required) = false := by
    simp [keys, fresh]
  rw [Scanner.expireKeys?]
  simp only [none, same, Bool.false_eq_true, ↓reduceIte]

theorem AtColon.approach? (atColon : AtColon s name rest column blocks tokens)
    (inside : blocks.head?.all (· ≤ column) = true) :
    ∃ s', s.approach? = some s' ∧ AtColon s' name rest column blocks tokens := by
  obtain ⟨key, keys, -⟩ := atColon.key
  have outside : s.inFlow = false := by simp [inFlow, keys]
  have settles : s.settled = s := by
    have stays := skipSpace_next (@NextLine.token ':' rest 0 rfl (by decide)) s.mark s.keyAllowed
    simp only [settled, atColon.text, stays]
    rw [← atColon.text]
  have deeper : blocks.head?.all (· ≤ s.mark.column) = true := by
    rw [atColon.column]
    cases blocks with
    | nil => rfl
    | cons b others =>
      simp only [List.head?_cons, Option.all_some, decide_eq_true_eq] at inside ⊢
      omega
  have closes : s.closeBlocks (s.mark.column < ·) = s := by
    simp only [closeBlocks, outside, Bool.false_eq_true, ↓reduceIte, atColon.blocks,
      takeWhile_outer deeper, dropWhile_outer deeper, List.map_nil, List.append_nil]
    rw [← atColon.blocks]
  have approached := approach?_eq outside atColon.unmarked
    (show s.settled.expireKeys? = some s by rw [settles, atColon.expireKeys?])
  rw [settles, closes] at approached
  exact ⟨_, approached, { atColon with }⟩

theorem AtColon.value? (atColon : AtColon s name rest column blocks tokens) {opens : Bool}
    {outer : List Nat} (enters : Enters column blocks opens outer) :
    ∃ s', s.value? = some s' ∧
      Stands s' rest (column + name.length + 1) false (column :: outer)
        (tokens ++ keyTokens opens name) := by
  obtain ⟨key, keys, number, place, -⟩ := atColon.key
  have inserted : s.tokens.insertIdx tokens.length .key = tokens ++ [.key, .scalar name true] := by
    rw [atColon.tokens, insertIdx_behind]
  let start : Scanner :=
    { s with keys := [none], tokens := tokens ++ [.key, .scalar name true], keyAllowed := false }
  have entered : start.openBlock column tokens.length .blockMappingStart =
      { start with
        blocks := column :: outer
        tokens := tokens ++ ((if opens then [.blockMappingStart] else []) ++
          [.key, .scalar name true]) } := by
    cases enters with
    | opens deeper => simp [start, openBlock, inFlow, atColon.blocks, deeper, insertIdx_behind]
    | stays => simp [start, openBlock, inFlow, atColon.blocks]
  have read : s.value? = some (((start.openBlock column tokens.length .blockMappingStart).skip
      1).emit .value) := by
    simp only [Scanner.value?, keys, inserted, number, place, start]
  rw [entered] at read
  refine ⟨_, read, ?_⟩
  exact
    { text := by simp [emit, skip, start, atColon.text]
      column := congrArg (· + 1) atColon.column
      allowed := rfl
      blocks := rfl
      tokens := by simp [emit, skip, keyTokens]
      idle := ⟨none, rfl, by simp⟩
      whole := atColon.whole
      unmarked := atColon.unmarked }

/-- A key is read in two steps, its name and its `:`. -/
theorem Before.scans_key (isName : IsName name) {opens : Bool} {outer : List Nat}
    (enters : Enters column blocks opens outer) (ends : atSpace rest = true)
    (before : Before s (name.toList ++ ':' :: rest) column true blocks tokens)
    (unfinished : .streamEnd ∉ tokens)
    (later : ∀ s, Stands s rest (column + name.length + 1) false (column :: outer)
      (tokens ++ keyTokens opens name) → Scans steps s final) :
    Scans (steps + 2) s final := by
  obtain ⟨c, others, shape⟩ := List.exists_cons_of_ne_nil isName.filled
  have letter : c.isAlpha = true := isName.letters c (shape ▸ List.mem_cons_self)
  have unfinished' : .streamEnd ∉ tokens ++ [.scalar name true] := by simpa using unfinished
  rw [shape, List.cons_append] at before
  -- the key may be one that has to follow here, so it must not expire between the two steps
  refine before.scans (AtColon · name rest column blocks tokens) unfinished enters.inside ?_ ?_
  · intro s stands
    have outside : s.inFlow = false := stands.idle.inFlow_eq_false
    rw [(begins_of_letter letter _).token? outside (.inr (noMark_of_letter letter _))]
    rw [← List.cons_append, ← shape] at stands
    obtain ⟨s', read, atColon⟩ := stands.atColon isName ends
    exact ⟨s', read, atColon.whole, { atColon with }⟩
  · intro s atColon
    refine Scans.step (AtColon · name rest column blocks tokens) atColon
      (atColon.tokens ▸ unfinished') ⟨s.keys, atColon.expireKeys?, atColon⟩ ?_
    intro s atColon
    obtain ⟨a, approached, atColon'⟩ := atColon.approach? enters.inside
    obtain ⟨s', read, stands⟩ := atColon'.value? enters
    have token : a.token? ':' rest = some s' := by
      rw [← read]
      simp [token?, atDocumentMark, ends]
    exact ⟨_, fetch?_token approached atColon'.text token stands.whole, later _ (stands.look _)⟩

/-- The `-` of an item at the indentation of the block around. -/
theorem Before.scans_dash
    (before : Before s ('-' :: ' ' :: rest) column true (column :: blocks) tokens)
    (unfinished : .streamEnd ∉ tokens)
    (later : ∀ s, Stands s (' ' :: rest) (column + 1) true (column :: blocks)
      (tokens ++ [.blockEntry]) → Scans steps s final) :
    Scans (steps + 1) s final := by
  refine before.scans (Stands · (' ' :: rest) (column + 1) true (column :: blocks)
    (tokens ++ [.blockEntry])) unfinished (by simp) ?_ later
  intro s stands
  have outside : s.inFlow = false := stands.idle.inFlow_eq_false
  have kept : s.openBlock s.mark.column s.tokens.length .blockSequenceStart = s := by
    -- the block of the mapping is no less deep, so the sequence opens none of its own
    simp [openBlock, stands.blocks, stands.column]
  have token : s.token? '-' (' ' :: rest) = s.blockEntry? := by
    simp [token?, atDocumentMark, atSpace, isSpace, isBlank]
  have read : s.blockEntry? =
      some (({ s with keys := [none], keyAllowed := true }.skip 1).emit .blockEntry) := by
    simp [ blockEntry?, outside, stands.allowed, kept, stands.idle.dropKey?]
  refine ⟨_, token.trans read, stands.whole, .look ?_ _⟩
  exact
    { text := by simp [emit, skip, stands.text]
      column := congrArg (· + 1) stands.column
      allowed := rfl
      blocks := stands.blocks
      tokens := by rw [← stands.tokens]; rfl
      idle := ⟨none, rfl, by simp⟩
      whole := stands.whole
      unmarked := stands.unmarked }

/-- A key with nothing on its line, and `next` at the column `place` of the line behind it. -/
def blockLine (name : String) (place : Nat) (next : List Char) : List Char :=
  name.toList ++ ':' :: (Scalar.newLine place ++ next)

theorem Before.scans_block {next : List Char} {place : Nat} (isName : IsName name) {opens : Bool}
    {outer : List Nat} (enters : Enters column blocks opens outer)
    (before : Before s (blockLine name place next) column true blocks tokens)
    (unfinished : .streamEnd ∉ tokens) (follows : NextLine next place)
    (later : ∀ s, Before s next place true (column :: outer) (tokens ++ keyTokens opens name) →
      Scans steps s final) :
    Scans (steps + 2) s final :=
  before.scans_key isName enters rfl unfinished fun s stands =>
    later s (stands.before_line follows)

/-- A key at a column with a scalar on its line, and `next` at the column `place` of the line behind
it. -/
def entryLine (column : Nat) (name value : String) (place : Nat) (next : List Char) : List Char :=
  name.toList ++ ':' :: ' ' :: (Scalar.write (column + 2) (column + name.length + 2) value ++
    (List.replicate place ' ' ++ next))

def entryTokens (opens : Bool) (name value : String) : List Token :=
  keyTokens opens name ++ [scalarToken value]

@[simp] theorem streamEnd_entryTokens (opens : Bool) (name value : String) :
    .streamEnd ∉ entryTokens opens name value := by
  simp [entryTokens]

theorem Before.scans_entry {value : String} {next : List Char} {place : Nat} (isName : IsName name)
    (oneLine : Scalar.OneLine value) {opens : Bool} {outer : List Nat}
    (enters : Enters column blocks opens outer)
    (before : Before s (entryLine column name value place next) column true blocks tokens)
    (unfinished : .streamEnd ∉ tokens) (follows : NextLine next place) (outside : place ≤ column)
    (later : ∀ s, Before s next place true (column :: outer)
      (tokens ++ entryTokens opens name value) → Scans steps s final) :
    Scans (steps + 3) s final := by
  refine before.scans_key isName enters rfl unfinished ?_
  intro s stands
  have before := stands.before_space (Scalar.write_next oneLine _ _ 0 _)
  have unfinished' : .streamEnd ∉ tokens ++ keyTokens opens name := by simpa using unfinished
  refine before.scans_scalar oneLine unfinished' (by omega) (by omega) follows outside ?_
  rw [List.append_assoc]
  exact later

theorem Before.scans_item {value : String} {next : List Char} {place : Nat}
    (oneLine : Scalar.OneLine value)
    (before : Before s ('-' :: ' ' :: (Scalar.write (column + 2) (column + 2) value ++
      (List.replicate place ' ' ++ next))) column true (column :: blocks) tokens)
    (unfinished : .streamEnd ∉ tokens) (follows : NextLine next place) (outside : place ≤ column)
    (later : ∀ s, Before s next place true (column :: blocks)
      (tokens ++ [.blockEntry, scalarToken value]) → Scans steps s final) :
    Scans (steps + 2) s final := by
  refine before.scans_dash unfinished ?_
  intro s stands
  have before := stands.before_space (Scalar.write_next oneLine _ _ 0 _)
  have unfinished' : .streamEnd ∉ tokens ++ [.blockEntry] := by simpa using unfinished
  refine before.scans_scalar oneLine unfinished' (by omega) (by omega) follows outside ?_
  rw [List.append_assoc]
  exact later

/-- The lines of a sequence of scalars at a column. -/
def itemLines (column : Nat) (values : List String) : List Char :=
  values.flatMap fun value =>
    List.replicate column ' ' ++ '-' :: ' ' :: Scalar.write (column + 2) (column + 2) value

def itemTokens (values : List String) : List Token :=
  values.flatMap fun value => [.blockEntry, scalarToken value]

@[simp] theorem streamEnd_itemTokens (values : List String) : .streamEnd ∉ itemTokens values := by
  simp [itemTokens]

/-- The items of a sequence at the indentation of the mapping around it, each read in two steps. -/
theorem Before.scans_items {value : String} {values : List String} {next : List Char} {place : Nat}
    (oneLine : ∀ v ∈ value :: values, Scalar.OneLine v)
    (before : Before s ('-' :: ' ' :: (Scalar.write (column + 2) (column + 2) value ++
      (itemLines column values ++ (List.replicate place ' ' ++ next)))) column true
      (column :: blocks) tokens)
    (unfinished : .streamEnd ∉ tokens) (follows : NextLine next place) (outside : place ≤ column)
    (later : ∀ s, Before s next place true (column :: blocks)
      (tokens ++ itemTokens (value :: values)) → Scans steps s final) :
    Scans (steps + 2 * (value :: values).length) s final := by
  induction values generalizing s value tokens with
  | nil =>
    exact before.scans_item (oneLine value List.mem_cons_self) unfinished follows outside later
  | cons w others ih =>
    have lines : itemLines column (w :: others) ++ (List.replicate place ' ' ++ next) =
        List.replicate column ' ' ++ '-' :: ' ' :: (Scalar.write (column + 2) (column + 2) w ++
          (itemLines column others ++ (List.replicate place ' ' ++ next))) := by
      simp [itemLines]
    rw [lines] at before
    refine before.scans_item (oneLine value List.mem_cons_self) unfinished
      (.token rfl (by decide)) (Nat.le_refl column) ?_
    intro s before
    have unfinished' : .streamEnd ∉ tokens ++ [.blockEntry, scalarToken value] := by
      simpa using unfinished
    refine ih (fun v member => oneLine v (List.mem_cons_of_mem _ member)) before unfinished' ?_
    rw [List.append_assoc]
    exact later

end Keys

section Start

theorem before_start {input : Input} {text : List Char} (reads : input.Reads text)
    (follows : NextLine text 0) : Before (ofInput input) text 0 true [] [] := by
  have stands : Stands (ofInput input) text 0 true [] [] :=
    { text := reads.text
      column := rfl
      allowed := rfl
      blocks := rfl
      tokens := rfl
      idle := ⟨none, rfl, by simp⟩
      whole := reads.whole
      unmarked := reads.unmarked }
  exact stands.before follows

theorem scan_eq {input : Input} {text : List Char} {steps : Nat} {tokens : List Token}
    (reads : input.Reads text) (scans : Scans steps (ofInput input) tokens)
    (enough : steps ≤ text.length + 2) : Token.scan input = tokens := by
  rw [Token.scan, reads.text]
  exact scans _ _ enough

end Start

end DeltaLang.Yaml.Scanner
