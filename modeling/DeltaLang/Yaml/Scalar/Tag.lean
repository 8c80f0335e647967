import DeltaLang.Text.Base64
import DeltaLang.Text.Utf8
import DeltaLang.Yaml.Scalar.Kind
import DeltaLang.Yaml.Tag

/-!
What a scalar stands for where a tag says what it has to be.
-/

namespace DeltaLang.Yaml.Scalar

/-- Whether a text of this kind may have a common tag. A small whole number is a fraction, too. -/
def Kind.admits (kind : Kind) (tag : String) : Bool :=
  match kind, tag with
  | .null, "null" | .truth, "bool" | .integer _, "int" | .fraction, "float" => true
  | .integer isSigned, "float" => isSigned
  | .time, "timestamp" => true
  | _, _ => false

/-- The text that a scalar stands for, or nothing where it is a null. The empty tag is none. Fails
where the scalar is not what its tag says. -/
def resolve? (tag text : String) (isPlain : Bool) : Option (Option String) :=
  let kind := kindOf text
  if tag.isEmpty then some (if isPlain && kind = .null then none else some text)
  else if tag = Tag.common ++ "binary" then
    (Base64.decode? text.toList).map fun bytes => some (Utf8.toString bytes)
  else
    match ["null", "bool", "int", "float", "timestamp"].find? (tag = Tag.common ++ ·) with
    | some name =>
      if kind.admits name then some (if kind = .null then none else some text) else none
    | none => some (some text)

end DeltaLang.Yaml.Scalar
