import Treewalk.Yaml.Cursor

/-!
# YAML tokens

The tokens of a text. Where a block collection begins and ends is told by the indentation of the
text; the tokens say it outright, so that nodes can be read from them without looking at columns.
-/

namespace Treewalk.Yaml

/-- A directive before a document. -/
inductive Directive where
  | version (major minor : Nat)
  /-- A shorthand for the start of tags. -/
  | tag (handle stem : String)
  | other

/-- A token. -/
inductive Token where
  | directive (d : Directive)
  | documentStart
  | documentEnd
  | blockList
  | blockMap
  /-- The end of a block collection. -/
  | blockEnd
  | listOpen
  | listClose
  | mapOpen
  | mapClose
  /-- A comma between the entries of a flow collection. -/
  | comma
  /-- The dash before an item of a block list. -/
  | dash
  /-- A key follows. -/
  | key
  /-- A value follows. -/
  | value
  | alias (name : String)
  | anchor (name : String)
  | tag (handle : Option String) (suffix : String)
  /-- A scalar; `plain` says that it stands without quotes. -/
  | scalar (text : Text) (plain : Bool)
  /-- The end of the text. -/
  | finish
  /-- The text cannot be read on from here. -/
  | fault (f : YamlFault)

end Treewalk.Yaml
