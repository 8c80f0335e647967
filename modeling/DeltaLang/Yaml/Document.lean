import DeltaLang.Yaml.Node

/-!
The first document of a YAML text. Directives before it tell the version, and what the handles of
tags stand for.
-/

namespace DeltaLang.Yaml

/-- A document: a node, and all nodes of it that have anchors, by their numbers. -/
structure Document where
  root : Node
  nodes : List (Nat × Node)
  /-- How many tokens the text has. -/
  size : Nat
  deriving Repr

namespace Document

/-- The directives before a document. There is at most one version, which is 1.1, and at most one
meaning of a handle. -/
def directives? (hasVersion : Bool) (handles : List (String × String)) (tokens : List Token) :
    Option (List (String × String) × List Token) :=
  match tokens with
  | .versionDirective major minor :: rest =>
    if hasVersion || major != 1 || minor != 1 then none else directives? true handles rest
  | .tagDirective handle meaning :: rest =>
    if (handles.lookup handle).isSome then none
    else directives? hasVersion ((handle, meaning) :: handles) rest
  | rest => some (handles, rest)

/-- The meanings of the handles of tags in a document, whether a mark begins the document, and the
tokens behind the mark. Behind directives there is a mark. -/
def header? (tokens : List Token) : Option (List (String × String) × Bool × List Token) := do
  let (handles, rest) ← directives? false [] tokens
  match rest with
  | .documentStart :: behind => some (handles ++ Tag.commonHandles, true, behind)
  | _ =>
    if rest.length < tokens.length then none else some (handles ++ Tag.commonHandles, false, rest)

/-- Whether a document ends before its content. -/
def endsDocument (tokens : List Token) : Bool :=
  match tokens with
  | .versionDirective _ _ :: _ | .tagDirective _ _ :: _ | .documentStart :: _ | .documentEnd :: _
  | .streamEnd :: _ => true
  | _ => false

/-- The node that stands in the place of an alias. -/
def follow (document : Document) (node : Node) : Node :=
  match node with
  | .alias _ target => (document.nodes.lookup target).getD .empty
  | node => node

/-- The first document of a text that these are the tokens of, if there is a document. What follows
the document does not matter, as long as it begins with a token. -/
def ofTokens? (tokens : List Token) : Option (Option Document) :=
  if tokens == [.streamEnd] then some none
  else do
    let (handles, hasMark, rest) ← header? tokens
    if hasMark && endsDocument rest then some (some ⟨.empty, [], tokens.length⟩)
    else
      let p ← Node.read? (3 * tokens.length + 3) (.node true false) rest ⟨handles, [], []⟩
      if p.tokens.isEmpty then none
      else some (p.nodes.head?.map fun root => ⟨root, p.scope.nodes, tokens.length⟩)

/-- The first document of a text. -/
def ofBytes? (bytes : List UInt8) : Option (Option Document) :=
  ofTokens? (Token.scan (Input.ofBytes bytes))

end Document

end DeltaLang.Yaml
