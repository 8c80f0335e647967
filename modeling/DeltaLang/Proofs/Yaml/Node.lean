import DeltaLang.Proofs.Yaml.Scanner
import DeltaLang.Yaml.Document

namespace DeltaLang.Yaml.Node

/-- With fuel for `depth` levels, what a goal calls for is read from the front of the tokens. -/
def Reads (depth : Nat) (goal : Goal) (tokens : List Token) (nodes : List Node)
    (rest : List Token) : Prop :=
  ∀ fuel scope, depth ≤ fuel → read? fuel goal tokens scope = some ⟨nodes, rest, scope⟩

section Reads

variable {depth : Nat} {goal : Goal} {tokens rest : List Token} {nodes : List Node}

theorem Reads.mono {more : Nat} (reads : Reads depth goal tokens nodes rest)
    (within : depth ≤ more) : Reads more goal tokens nodes rest :=
  fun fuel scope enough => reads fuel scope (Nat.le_trans within enough)

theorem reads_of_step
    (steps : ∀ fuel scope, depth ≤ fuel →
      Reading.step (read? fuel) goal tokens scope = some ⟨nodes, rest, scope⟩) :
    Reads (depth + 1) goal tokens nodes rest := by
  intro fuel scope enough
  obtain ⟨fuel, rfl⟩ := Nat.exists_eq_add_of_le' (Nat.le_of_add_left_le enough)
  exact steps fuel scope (Nat.le_of_add_le_add_right enough)

theorem reads_scalar (inBlock besideKey isPlain : Bool) (text : String) (rest : List Token) :
    Reads 1 (.node inBlock besideKey) (.scalar text isPlain :: rest) [.scalar text isPlain ""]
      rest := by
  refine reads_of_step fun fuel scope _ => ?_
  rfl

theorem reads_blockEnd (rest : List Token) : Reads 1 .blockEntries (.blockEnd :: rest) [] rest :=
  reads_of_step fun _ _ _ => rfl

/-- A mapping is its entries. -/
theorem reads_mapping {besideKey : Bool} (entries : Reads depth .blockEntries tokens nodes rest) :
    Reads (depth + 1) (.node true besideKey) (.blockMappingStart :: tokens)
      [.mapping (pairs nodes)] rest := by
  refine reads_of_step fun fuel scope enough => ?_
  have inner := entries fuel scope enough
  simp [Reading.step, Reading.node, Reading.content, properties, Scope.declare, inner,
    Reading.mappingOf]

/-- An entry is a name, its value, and then the others. -/
theorem reads_entry {name : String} {value : Node} {behind : List Token}
    (goesOn : endsEntry tokens = false)
    (first : Reads depth (.node true true) tokens [value] behind)
    (others : Reads depth .blockEntries behind nodes rest) (positive : 0 < depth) :
    Reads (depth + 1) .blockEntries (.key :: .scalar name true :: .value :: tokens)
      (.scalar name true "" :: value :: nodes) rest := by
  refine reads_of_step fun fuel scope enough => ?_
  have key := reads_scalar true true true name (.value :: tokens) fuel scope
    (Nat.le_trans positive enough)
  have read := first fuel scope enough
  have later := others fuel scope enough
  have keyGoesOn : endsEntry (.scalar name true :: .value :: tokens) = false := rfl
  simp [Reading.step, Reading.blockEntries, Reading.optional, keyGoesOn, key, Reading.valueOf,
    goesOn, read, later]

def ofText (value : String) : Node :=
  .scalar value (Scalar.style value = .plain) ""

theorem reads_scalarToken (inBlock besideKey : Bool) (value : String) (rest : List Token) :
    Reads 1 (.node inBlock besideKey) (Scanner.scalarToken value :: rest) [.ofText value] rest :=
  reads_scalar inBlock besideKey _ value rest

theorem reads_scalarEntry (name value : String)
    (others : Reads depth .blockEntries tokens nodes rest) (positive : 0 < depth) :
    Reads (depth + 1) .blockEntries (Scanner.entryTokens false name value ++ tokens)
      (.scalar name true "" :: .ofText value :: nodes) rest :=
  reads_entry rfl ((reads_scalarToken true true value tokens).mono positive) others positive

/-- Items at the indentation of a mapping go on to the end of the mapping. -/
theorem reads_items (values : List String) (rest : List Token) :
    Reads (values.length + 1) .besideItems (Scanner.itemTokens values ++ .blockEnd :: rest)
      (values.map ofText) (.blockEnd :: rest) := by
  induction values with
  | nil => exact reads_of_step fun _ _ _ => rfl
  | cons value others ih =>
    refine reads_of_step fun fuel scope enough => ?_
    have first := reads_scalarToken true false value
      (Scanner.itemTokens others ++ .blockEnd :: rest) fuel scope (Nat.le_of_add_left_le enough)
    have later := ih fuel scope enough
    exact congrArg (· >>= _) first |>.trans (congrArg (· >>= _) later)

theorem reads_sequence {values : List String} (filled : values ≠ []) (rest : List Token) :
    Reads (values.length + 2) (.node true true) (Scanner.itemTokens values ++ .blockEnd :: rest)
      [.sequence (values.map ofText)] (.blockEnd :: rest) := by
  obtain ⟨value, others, rfl⟩ := List.exists_cons_of_ne_nil filled
  refine reads_of_step fun fuel scope enough => ?_
  have inner := reads_items (value :: others) rest fuel scope enough
  have shape : Scanner.itemTokens (value :: others) ++ .blockEnd :: rest =
      .blockEntry :: Scanner.scalarToken value ::
        (Scanner.itemTokens others ++ .blockEnd :: rest) := rfl
  rw [shape] at inner ⊢
  simp [Reading.step, Reading.node, Reading.content, properties, Scope.declare, inner,
    Reading.sequenceOf]

end Reads

end DeltaLang.Yaml.Node

namespace DeltaLang.Yaml.Document

theorem ofTokens?_mapping {depth : Nat} {tokens rest : List Token} {root : Node} {last : Token}
    (reads : Node.Reads depth (.node true false) (.blockMappingStart :: tokens) [root]
      (last :: rest))
    (enough : depth ≤ tokens.length) :
    ofTokens? (.blockMappingStart :: tokens) = some (some ⟨root, [], tokens.length + 1⟩) := by
  have read := reads (3 * (tokens.length + 1) + 3) ⟨Tag.commonHandles, [], []⟩ (by omega)
  have plain : header? (.blockMappingStart :: tokens) =
      some (Tag.commonHandles, false, .blockMappingStart :: tokens) := by
    simp [header?, directives?]
  have filled : (Token.blockMappingStart :: tokens == [.streamEnd]) = false := by simp
  simp [ofTokens?, filled, plain, read]

end DeltaLang.Yaml.Document
