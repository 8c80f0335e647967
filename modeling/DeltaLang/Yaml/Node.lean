import DeltaLang.Yaml.Token.Scanner

/-!
The values of a YAML document, and how its tokens make them up.
-/

namespace DeltaLang.Yaml

inductive Node where
  /-- A scalar's text, whether the way it is written leaves open what it stands for, and the name of
  its tag, which is empty where it has none. -/
  | scalar (text : String) (isPlain : Bool) (tag : String)
  | sequence (items : List Node)
  | mapping (entries : List (Node × Node))
  /-- Another place for a node with an anchor, by the number of that node. An alias has a number of
  its own. -/
  | alias (number target : Nat)
  deriving Repr, Inhabited

namespace Node

/-- What stands for a missing node. -/
def empty : Node :=
  .scalar "" true ""

/-- What reading a document calls for: a node, or the rest of a collection. -/
inductive Goal where
  /-- A node. In a block it may begin with indentation, and as the value or key of a block mapping
  it may be a sequence at the indentation of the mapping. -/
  | node (inBlock besideKey : Bool)
  | blockItems
  | besideItems
  | blockEntries
  | flowItems (isFirst : Bool)
  | flowEntries (isFirst : Bool)

/-- What the nodes of a document may refer to. -/
structure Scope where
  /-- The meanings of the handles of tags. -/
  handles : List (String × String)
  /-- The numbers of the nodes that anchors name, the last one first. -/
  anchors : List (String × Nat)
  /-- The nodes with anchors that are complete, by their numbers. -/
  nodes : List (Nat × Node)

namespace Scope

/-- Names the node of a number, which may refer to itself. -/
def declare (scope : Scope) (anchor : Option String) (number : Nat) : Scope :=
  match anchor with
  | some name => { scope with anchors := (name, number) :: scope.anchors }
  | none => scope

end Scope

/-- The nodes read for a goal: one node, the items of a sequence, or keys and values by turns. -/
structure Progress where
  nodes : List Node
  tokens : List Token
  scope : Scope

/-- The tags and anchors before a node, of each kind at most one. -/
def properties (tokens : List Token) : Option String × Option Tag × List Token :=
  match tokens with
  | .anchor name :: .tag tag :: rest => (some name, some tag, rest)
  | .tag tag :: .anchor name :: rest => (some name, some tag, rest)
  | .anchor name :: rest => (some name, none, rest)
  | .tag tag :: rest => (none, some tag, rest)
  | rest => (none, none, rest)

/-- Keys and values by turns, as entries. -/
def pairs : List Node → List (Node × Node)
  | key :: value :: rest => (key, value) :: pairs rest
  | _ => []

/-- Whether an entry of a block mapping ends before its next node. -/
def endsEntry (tokens : List Token) : Bool :=
  match tokens with
  | .key :: _ | .value :: _ | .blockEnd :: _ => true
  | _ => false

/-- Whether an entry between braces ends before its next node. -/
def endsFlowEntry (tokens : List Token) : Bool :=
  match tokens with
  | .flowEntry :: _ | .flowMappingEnd :: _ => true
  | _ => false

/-- Whether an entry between square brackets ends before its next node. -/
def endsFlowItem (tokens : List Token) : Bool :=
  match tokens with
  | .flowEntry :: _ | .flowSequenceEnd :: _ => true
  | _ => false

/-- Reading what a goal calls for from tokens, in a scope. -/
abbrev Reading :=
  Goal → List Token → Scope → Option Progress

namespace Reading

def sequenceOf (p : Progress) : Progress :=
  { p with nodes := [.sequence p.nodes] }

def mappingOf (p : Progress) : Progress :=
  { p with nodes := [.mapping (pairs p.nodes)] }

/-- A node that is left out, and then the rest. -/
def missing (read : Reading) (goal : Goal) (tokens : List Token) (scope : Scope) :
    Option Progress := do
  let others ← read goal tokens scope
  some { others with nodes := .empty :: others.nodes }

/-- A node, and then the rest. -/
def followed (read : Reading) (first goal : Goal) (tokens : List Token) (scope : Scope) :
    Option Progress := do
  let node ← read first tokens scope
  let others ← read goal node.tokens node.scope
  some { others with nodes := node.nodes ++ others.nodes }

/-- A node, unless it is left out. -/
def optional (read : Reading) (isMissing : Bool) (goal : Goal) (tokens : List Token)
    (scope : Scope) : Option Progress :=
  if isMissing then some ⟨[.empty], tokens, scope⟩ else read goal tokens scope

/-- The value behind a key, if there is one. -/
def valueOf (read : Reading) (isMissing : List Token → Bool) (goal : Goal) (key : Progress) :
    Option Progress :=
  match key.tokens with
  | .value :: rest => optional read (isMissing rest) goal rest key.scope
  | rest => some ⟨[.empty], rest, key.scope⟩

/-- What a node is behind its tag and anchor. The tag `!` leaves open what a scalar stands for. -/
def content (read : Reading) (inBlock besideKey : Bool) (tag : String) (hasAnchor : Bool)
    (tokens : List Token) (scope : Scope) : Option Progress :=
  match tokens with
  | .scalar text isPlain :: rest =>
    some ⟨[.scalar text (tag == "!" || (tag.isEmpty && isPlain)) tag], rest, scope⟩
  | .flowSequenceStart :: rest => (read (.flowItems true) rest scope).map sequenceOf
  | .flowMappingStart :: rest => (read (.flowEntries true) rest scope).map mappingOf
  | tokens =>
    match inBlock, besideKey, tokens with
    | true, true, .blockEntry :: _ => (read .besideItems tokens scope).map sequenceOf
    | true, _, .blockSequenceStart :: rest => (read .blockItems rest scope).map sequenceOf
    | true, _, .blockMappingStart :: rest => (read .blockEntries rest scope).map mappingOf
    | _, _, [] => none
    | _, _, _ :: _ =>
      if !tag.isEmpty || hasAnchor then some ⟨[.scalar "" tag.isEmpty tag], tokens, scope⟩
      else none

/-- A node. How many tokens are left numbers it. -/
def node (read : Reading) (inBlock besideKey : Bool) (tokens : List Token) (scope : Scope) :
    Option Progress :=
  let number := tokens.length
  match tokens with
  | .alias name :: rest =>
    (scope.anchors.lookup name).map fun target => ⟨[.alias number target], rest, scope⟩
  | _ => do
    let (anchor, tag, rest) := properties tokens
    let tag ← (tag.map (·.name? scope.handles)).getD (some "")
    let p ← content read inBlock besideKey tag anchor.isSome rest (scope.declare anchor number)
    match anchor, p.nodes with
    | some _, node :: _ =>
      some { p with scope := { p.scope with nodes := (number, node) :: p.scope.nodes } }
    | _, _ => some p

def blockItems (read : Reading) (tokens : List Token) (scope : Scope) :
    Option Progress :=
  match tokens with
  | .blockEnd :: rest => some ⟨[], rest, scope⟩
  | .blockEntry :: .blockEntry :: rest => missing read .blockItems (.blockEntry :: rest) scope
  | .blockEntry :: .blockEnd :: rest => missing read .blockItems (.blockEnd :: rest) scope
  | .blockEntry :: rest => followed read (.node true false) .blockItems rest scope
  | _ => none

/-- The items of a sequence at the indentation of the mapping around it, which has no end of its
own. -/
def besideItems (read : Reading) (tokens : List Token) (scope : Scope) :
    Option Progress :=
  match tokens with
  | [] => none
  | .blockEntry :: .blockEntry :: rest => missing read .besideItems (.blockEntry :: rest) scope
  | .blockEntry :: rest =>
    if endsEntry rest then missing read .besideItems rest scope
    else followed read (.node true false) .besideItems rest scope
  | rest => some ⟨[], rest, scope⟩

def blockEntries (read : Reading) (tokens : List Token) (scope : Scope) :
    Option Progress :=
  match tokens with
  | .blockEnd :: rest => some ⟨[], rest, scope⟩
  | .key :: rest => do
    let key ← optional read (endsEntry rest) (.node true true) rest scope
    let value ← valueOf read endsEntry (.node true true) key
    let others ← read .blockEntries value.tokens value.scope
    some { others with nodes := key.nodes ++ value.nodes ++ others.nodes }
  | _ => none

/-- The next item between square brackets: a node, or a mapping of one entry without braces. -/
def flowItem (read : Reading) (tokens : List Token) (scope : Scope) :
    Option Progress :=
  match tokens with
  | .flowSequenceEnd :: rest => some ⟨[], rest, scope⟩
  | .key :: rest => do
    let isMissing := endsFlowItem rest || rest.head? == some .value
    let key ← optional read isMissing (.node false false) rest scope
    let key := if isMissing then { key with tokens := key.tokens.drop 1 } else key
    let value ← valueOf read endsFlowItem (.node false false) key
    let others ← read (.flowItems false) value.tokens value.scope
    some { others with nodes := .mapping (pairs (key.nodes ++ value.nodes)) :: others.nodes }
  | rest => followed read (.node false false) (.flowItems false) rest scope

/-- The next entry between braces. -/
def flowEntry (read : Reading) (tokens : List Token) (scope : Scope) :
    Option Progress :=
  match tokens with
  | .flowMappingEnd :: rest => some ⟨[], rest, scope⟩
  | .key :: rest => do
    let isMissing := endsFlowEntry rest || rest.head? == some .value
    let key ← optional read isMissing (.node false false) rest scope
    let value ← valueOf read endsFlowEntry (.node false false) key
    let others ← read (.flowEntries false) value.tokens value.scope
    some { others with nodes := key.nodes ++ value.nodes ++ others.nodes }
  | rest => do
    let key ← read (.node false false) rest scope
    let others ← read (.flowEntries false) key.tokens key.scope
    some { others with nodes := key.nodes ++ .empty :: others.nodes }

/-- Reads what a goal calls for, where `read` reads the parts of it. -/
def step (read : Reading) : Reading := fun goal tokens scope =>
  match goal with
  | .node inBlock besideKey => node read inBlock besideKey tokens scope
  | .blockItems => blockItems read tokens scope
  | .besideItems => besideItems read tokens scope
  | .blockEntries => blockEntries read tokens scope
  | .flowItems true => flowItem read tokens scope
  | .flowItems false =>
    match tokens with
    | .flowSequenceEnd :: rest => some ⟨[], rest, scope⟩
    | .flowEntry :: rest => flowItem read rest scope
    | _ => none
  | .flowEntries true => flowEntry read tokens scope
  | .flowEntries false =>
    match tokens with
    | .flowMappingEnd :: rest => some ⟨[], rest, scope⟩
    | .flowEntry :: rest => flowEntry read rest scope
    | _ => none

end Reading

/-- Reads what a goal calls for. `fuel` bounds the depth of the reading. -/
def read? : Nat → Reading
  | 0 => fun _ _ _ => none
  | fuel + 1 => Reading.step (read? fuel)

end Node

end DeltaLang.Yaml
