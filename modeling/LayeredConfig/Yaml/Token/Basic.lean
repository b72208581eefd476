/-
This file lists the tokens of YAML.

Indentation is told by tokens too: a block collection has a token where it begins and one where the
indentation falls back.
-/

namespace LayeredConfig.Yaml

inductive Token where
  | version (major minor : Nat)
  | tagShorthand (handle : String) (expansion : List UInt8)
  | documentStart
  | documentEnd
  | blockSequenceStart
  | blockMappingStart
  | blockEnd
  | flowSequenceStart
  | flowSequenceEnd
  | flowMappingStart
  | flowMappingEnd
  | blockEntry
  | flowEntry
  | key
  | value
  | alias (name : String)
  | anchor (name : String)
  | tag (handle : String) (suffix : List UInt8)
  /-- A scalar; only a plain one may be read as something else than a text. -/
  | scalar (text : String) (isPlain : Bool)
  deriving DecidableEq, Repr, Inhabited

end LayeredConfig.Yaml
