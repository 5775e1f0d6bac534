import LoadTest.Yaml.Scalar.Basic

/-!
# LoadTest.Yaml.Token.Basic

The pieces of a YAML text. **Indentation is made brackets:** a block collection has a token at its start
and one at its end, and every key of a mapping is announced, so the nodes can be read off without
looking at columns.
-/

namespace LoadTest.Yaml

/-- A piece of a YAML text. -/
inductive Token where
  /-- The version that the text claims. -/
  | version (major minor : Nat)
  /-- A handle for tags and what it stands for. -/
  | handle (name expansion : String)
  | documentStart
  | documentEnd
  | blockSequence
  | blockMapping
  | blockEnd
  | flowSequence
  | flowSequenceEnd
  | flowMapping
  | flowMappingEnd
  /-- The mark of an item of a block sequence. -/
  | item
  /-- The mark between two parts of a collection in brackets. -/
  | comma
  | key
  | value
  | anchor (name : String)
  /-- A node that was given a name before. -/
  | reference (name : String)
  /-- A tag: the handle it uses, empty for none, and the rest. -/
  | tag (handle ending : String)
  | scalar (style : Style) (text : String)
  deriving DecidableEq

end LoadTest.Yaml
