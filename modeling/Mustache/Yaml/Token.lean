import Mustache.Yaml.Tag

/-!
# Tokens of YAML

* `Mark`: a token without text of its own. The marks that open and close block collections and
  the one before a key are not written in the document but follow from its layout;
* `Token`.
-/

namespace Mustache.Yaml

/-- A token without text of its own. -/
inductive Mark where
  | documentStart
  | documentEnd
  | blockSequence
  | blockMap
  | blockEnd
  | flowSequence
  | flowSequenceEnd
  | flowMap
  | flowMapEnd
  | item
  | comma
  | key
  | value
  deriving DecidableEq

/-- A piece of a document. -/
inductive Token where
  | mark (m : Mark)
  /-- The version of the format is given. -/
  | version
  /-- A handle of tags, and what it stands for. -/
  | handle (name : String) (start : List UInt8)
  | anchor (name : String)
  | alias (name : String)
  | tag (name : TagName)
  | text (s : String) (isPlain : Bool)
  deriving DecidableEq

end Mustache.Yaml
