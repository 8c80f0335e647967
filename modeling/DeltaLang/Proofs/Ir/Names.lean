import DeltaLang.Ir.Printer
import DeltaLang.Proofs.Ir.Emission
import DeltaLang.Proofs.Text.Identifier

namespace DeltaLang.Ir

section Cells

/-- The name of a cell, given how often its variable was declared before. -/
def suffixed (name : String) : Nat → String
  | 0 => name
  | count + 1 => name ++ "." ++ toString (count + 1)

theorem WellFormed.cellName_eq {state : State} (wellFormed : WellFormed state) (name : String) :
    state.cellName name = suffixed name (timesDeclared state.cells name) := by
  rw [State.cellName, wellFormed.counted]
  cases timesDeclared state.cells name <;> rfl

theorem suffixed_text (name : String) (count : Nat) :
    (suffixed name (count + 1)).toList = name.toList ++ '.' :: Nat.toDigits 10 (count + 1) := by
  simp [suffixed]

theorem toDigits_dotless (n : Nat) : '.' ∉ Nat.toDigits 10 n := by
  intro dot
  exact absurd (isDigit_of_toDigits dot) (by decide)

/-- Different declarations have cells with different names. -/
theorem suffixed_inj {name other : String} {count number : Nat} (proper : isIdentifier name = true)
    (proper' : isIdentifier other = true) (same : suffixed name count = suffixed other number) :
    name = other ∧ count = number := by
  have texts := congrArg String.toList same
  cases count with
  | zero =>
    cases number with
    | zero => exact ⟨same, rfl⟩
    | succ number =>
      rw [suffixed_text] at texts
      have dotless := isIdentifier_dotless proper
      rw [show name.toList = _ from texts] at dotless
      exact absurd dotless (by simp)
  | succ count =>
    rw [suffixed_text] at texts
    cases number with
    | zero =>
      have dotless := isIdentifier_dotless proper'
      rw [← show _ = other.toList from texts] at dotless
      exact absurd dotless (by simp)
    | succ number =>
      rw [suffixed_text] at texts
      obtain ⟨names, -, numbers⟩ := numbered_inj (by decide) (by decide) texts
      exact ⟨String.toList_inj.mp names, numbers⟩

theorem suffixed_not_digits {name : String} (count : Nat) (proper : isIdentifier name = true) :
    (suffixed name count).toList.all Char.isDigit = false := by
  have letter := isIdentifier_not_digits proper
  cases count with
  | zero => exact letter
  | succ count => rw [suffixed_text, List.all_append, letter, Bool.false_and]

def Suffixed (cells : List Cell) : Prop :=
  ∀ front cell back, cells = front ++ cell :: back →
    cell.name = suffixed cell.variableName (timesDeclared front cell.variableName)

theorem Suffixed.mem {cells : List Cell} {cell : Cell} (named : Suffixed cells)
    (member : cell ∈ cells) : ∃ count, cell.name = suffixed cell.variableName count := by
  obtain ⟨front, back, shape⟩ := List.append_of_mem member
  exact ⟨_, named front cell back shape⟩

theorem split_concat {α : Type} {all front back : List α} {last one : α}
    (split : all ++ [last] = front ++ one :: back) :
    (all = front ∧ last = one ∧ back = []) ∨
      ∃ rest, all = front ++ one :: rest ∧ back = rest ++ [last] := by
  rcases List.eq_nil_or_concat back with rfl | ⟨rest, final, rfl⟩
  · left
    obtain ⟨rfl, same⟩ := List.append_inj' split rfl
    exact ⟨rfl, (List.cons.inj same).1, rfl⟩
  · right
    rw [List.concat_eq_append, ← List.cons_append, ← List.append_assoc] at split
    obtain ⟨rfl, same⟩ := List.append_inj' split rfl
    refine ⟨rest, rfl, ?_⟩
    rw [List.concat_eq_append, (List.cons.inj same).1]

theorem Suffixed.concat {cells : List Cell} {cell : Cell} (named : Suffixed cells)
    (last : cell.name = suffixed cell.variableName (timesDeclared cells cell.variableName)) :
    Suffixed (cells ++ [cell]) := by
  intro front other back split
  obtain ⟨rfl, rfl, -⟩ | ⟨rest, shape, -⟩ := split_concat split
  · exact last
  · exact named front other rest shape

/-- No two cells have the same name: of two that belong to the same variable, the later one was
declared more often before. -/
theorem Suffixed.nodup {cells : List Cell} (named : Suffixed cells)
    (proper : ∀ cell ∈ cells, isIdentifier cell.variableName = true) :
    (cells.map Cell.name).Nodup := by
  -- from the back, since the count in a name is about the cells in front of it
  induction cells using List.reverseRecOn with
  | nil => exact List.nodup_nil
  | append_singleton cells last ih =>
    have before : Suffixed cells := by
      intro front cell back shape
      apply named front cell (back ++ [last])
      rw [shape, List.append_assoc, List.cons_append]
    have own := named cells last [] rfl
    rw [List.map_append, List.nodup_append]
    refine ⟨ih before fun cell member => proper cell (by simp [member]), by simp, ?_⟩
    intro name inFront other isLast same
    obtain ⟨cell, member, rfl⟩ := List.mem_map.mp inFront
    obtain ⟨front, back, rfl⟩ := List.append_of_mem member
    rw [List.map_singleton, List.mem_singleton] at isLast
    rw [isLast, own, before front cell back rfl] at same
    have names := suffixed_inj (proper cell (by simp)) (proper last (by simp)) same
    have more : timesDeclared (front ++ cell :: back) last.variableName =
        timesDeclared front last.variableName + 1 + timesDeclared back last.variableName := by
      simp only [timesDeclared, List.countP_append, List.countP_cons, names.1, decide_true,
        ↓reduceIte]
      omega
    have counts := names.2
    rw [names.1] at counts
    omega

end Cells

section Blocks

namespace BlockName

theorem thenBranch_text (index : Nat) :
    (thenBranch index).text.toList = "bb.then".toList ++ '.' :: Nat.toDigits 10 index := by
  simp [text]

theorem endif_text (index : Nat) :
    (endif index).text.toList = "bb.endif".toList ++ '.' :: Nat.toDigits 10 index := by
  simp [text]

/-- What follows the dot in the name of a block is not a number. -/
theorem text_dotted (name : BlockName) :
    ∃ c rest, name.text.toList = ['b', 'b'] ++ '.' :: c :: rest ∧ c.isDigit = false := by
  cases name with
  | entry => exact ⟨'e', "ntry".toList, by decide, by decide⟩
  | thenBranch index => exact ⟨'t', _, thenBranch_text index, by decide⟩
  | endif index => exact ⟨'e', _, endif_text index, by decide⟩

theorem text_not_digits (name : BlockName) : name.text.toList.all Char.isDigit = false := by
  obtain ⟨c, rest, shape, -⟩ := name.text_dotted
  rw [shape]
  rfl

theorem text_inj {name other : BlockName} (same : name.text = other.text) : name = other := by
  have texts := congrArg String.toList same
  cases name with
  | entry =>
    cases other with
    | entry => rfl
    | thenBranch index =>
      rw [thenBranch_text] at texts
      cases texts
    | endif index =>
      rw [endif_text] at texts
      cases texts
  | thenBranch index =>
    rw [thenBranch_text] at texts
    cases other with
    | entry => cases texts
    | thenBranch other =>
      rw [thenBranch_text] at texts
      rw [(numbered_inj (by decide) (by decide) texts).2.2]
    | endif other =>
      rw [endif_text] at texts
      cases texts
  | endif index =>
    rw [endif_text] at texts
    cases other with
    | entry => cases texts
    | thenBranch other =>
      rw [thenBranch_text] at texts
      cases texts
    | endif other =>
      rw [endif_text] at texts
      rw [(numbered_inj (by decide) (by decide) texts).2.2]

theorem text_ne_suffixed (block : BlockName) {name : String} (count : Nat)
    (proper : isIdentifier name = true) : suffixed name count ≠ block.text := by
  intro same
  have texts := congrArg String.toList same
  obtain ⟨c, rest, shape, letter⟩ := block.text_dotted
  rw [shape] at texts
  cases count with
  | zero =>
    have dotless := isIdentifier_dotless proper
    rw [show name.toList = _ from texts] at dotless
    exact absurd dotless (by simp)
  | succ count =>
    rw [suffixed_text] at texts
    have digits := ((List.append_cons_inj_of_notMem (isIdentifier_dotless proper)
      (toDigits_dotless _)).mp texts).2.2
    have digit : c.isDigit = true := isDigit_of_toDigits (digits ▸ List.mem_cons_self)
    rw [letter] at digit
    cases digit

end BlockName

end Blocks

end DeltaLang.Ir
