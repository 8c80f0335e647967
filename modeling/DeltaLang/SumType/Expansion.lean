import DeltaLang.SumType.Declaration

/-!
Sum types as Go declarations: a sum type becomes an interface with a marker method, and every
variant a type that has this method. A variant that holds a sum type becomes a struct around it,
since an interface cannot have methods of its own.
-/

namespace DeltaLang.SumType

/-- A declaration of the generated file. -/
inductive Output where
  | named (name type : String)
  | interface (name marker : String)
  | struct (name embedded : String)
  | method (receiver marker : String)
  deriving DecidableEq, Repr

/-- The type expression that a declaration means. It may be quoted once more. -/
def typeOf (kind : String) : String :=
  (Unquote.unquote? kind).getD kind

def Definition.isSum : Definition → Bool
  | .plain _ => false
  | .sum _ => true

def isSumType (declarations : List Declaration) (name : String) : Bool :=
  declarations.any fun d => d.name == name && d.definition.isSum

def marker (name : String) : String :=
  "is_" ++ name

def expandVariant (declarations : List Declaration) (owner : String) (v : Variant) : List Output :=
  let type := typeOf v.kind
  [if isSumType declarations type then .struct v.name type else .named v.name type,
    .method v.name (marker owner)]

def expandDeclaration (declarations : List Declaration) (d : Declaration) : List Output :=
  match d.definition with
  | .plain kind => [.named d.name (typeOf kind)]
  | .sum variants =>
    .interface d.name (marker d.name) :: variants.flatMap (expandVariant declarations d.name)

def expand (declarations : List Declaration) : List Output :=
  declarations.flatMap (expandDeclaration declarations)

namespace Output

def isMethod : Output → Bool
  | .method _ _ => true
  | _ => false

def text : Output → String
  | .named name type => "type " ++ name ++ " " ++ type ++ "\n"
  | .interface name marker => "type " ++ name ++ " interface \x7b\n\t" ++ marker ++ "()\n\x7d\n"
  | .struct name embedded => "type " ++ name ++ " struct \x7b\n\t" ++ embedded ++ "\n\x7d\n"
  | .method receiver marker => "func (v " ++ receiver ++ ") " ++ marker ++ "() \x7b\x7d\n"

/-- The texts one after the other, with an empty line before and after every method. -/
def texts : List Output → String
  | [] => ""
  | [last] => last.text
  | first :: second :: rest =>
    first.text ++ (if first.isMethod || second.isMethod then "\n" else "") ++ texts (second :: rest)

end Output

/-- The generated file. -/
def file (package source : String) (declarations : List Declaration) : String :=
  let outputs := expand declarations
  "// Code generated by adtgen from " ++ source ++ ". DO NOT EDIT.\n\n" ++
    "package " ++ package ++ "\n" ++ (if outputs.isEmpty then "" else "\n") ++ Output.texts outputs

/-- The file generated for a text, none if the text does not hold declarations only. A text with
malformed or zero bytes is refused, even where these stand in a comment. -/
def generate? (package source : String) (text : List UInt8) : Option String :=
  if Utf8.isWellFormed text && !text.contains 0 then
    (Declaration.parse? (Utf8.decode text)).map (file package source)
  else none

end DeltaLang.SumType
