import DeltaLang.Yaml.Tag

/-!
The tokens of a YAML text. Indentation and the keys of mappings appear as tokens of their own, so
that the tokens alone tell the structure.
-/

namespace DeltaLang.Yaml

inductive Token where
  | streamEnd
  | versionDirective (major minor : Nat)
  /-- What a handle of tags stands for. -/
  | tagDirective (handle meaning : String)
  | documentStart
  | documentEnd
  | blockSequenceStart
  | blockMappingStart
  | blockEnd
  | flowSequenceStart
  | flowSequenceEnd
  | flowMappingStart
  | flowMappingEnd
  | blockEntry
  | flowEntry
  | key
  | value
  | alias (name : String)
  | anchor (name : String)
  | tag (tag : Tag)
  /-- A scalar's text, and whether it is written without quotes and indicators. -/
  | scalar (text : String) (isPlain : Bool)
  deriving DecidableEq, Repr

end DeltaLang.Yaml
