import Taxonomy.Yaml.Token.Tag

/-!
# Tokens of a YAML text

Indentation is part of the tokens: where a block starts and where it ends there is a token,
and so there is before each key, whether it is marked or not.
-/

namespace Taxonomy.Yaml

/-- A mark, a name or a scalar. The end of the text has no token. -/
inductive Token
  | directive (directive : Directive)
  | documentStart
  | documentEnd
  | blockSequenceStart
  | blockMappingStart
  | blockEnd
  | flowSequenceStart
  | flowSequenceEnd
  | flowMappingStart
  | flowMappingEnd
  | blockEntry
  | flowEntry
  | key
  | value
  | alias (name : String)
  | anchor (name : String)
  | tag (handle : String) (suffix : List UInt8)
  | scalar (text : String) (plain : Bool)

end Taxonomy.Yaml
