import Treewalk.Text.CharacterClass
import Treewalk.Text.CodePoint

/-!
# Formats

The two text formats of documents, and how the format and the character set of a text are told from
its content type, its file name and its first character.
-/

namespace Treewalk

open Text

/-- A text format. -/
inductive Format where
  | json
  | yaml
  deriving DecidableEq

namespace Format

/-- The name of a format. -/
def name : Format → String
  | json => "json"
  | yaml => "yaml"

/-- Whether a text occurs inside another one. -/
def occursIn (word : Text) : Text → Bool
  | [] => word.isEmpty
  | point :: rest => word.isPrefixOf (point :: rest) || occursIn word rest

/-- A text in small letters. Only ASCII letters are changed: no name of a format holds a letter
whose capital lies outside ASCII. -/
def lowered (t : Text) : Text := t.map (·.mapChar Char.toLower)

/-- The format of a name given outright. -/
def ofName? (name : Text) : Option Format :=
  let word := lowered name
  if word = "json" then some json else if word = "yaml" ∨ word = "yml" then some yaml else none

/-- The format that a content type names. -/
def ofContentType? (contentType : Text) : Option Format :=
  let word := lowered contentType
  if occursIn "json" word then some json
  else if occursIn "yaml" word then some yaml
  else none

/-- The format that a file name ends in. -/
def ofFileName? (fileName : Text) : Option Format :=
  let endsIn (suffix : Text) : Bool := suffix.isSuffixOf (lowered fileName)
  if endsIn ".json" then some json
  else if endsIn ".yaml" || endsIn ".yml" then some yaml
  else none

/-- The format that a text looks like: a bracket or a brace starts JSON. -/
def ofText? (t : Text) : Option Format :=
  match dropBlanks t with
  | [] => none
  | point :: _ => if point = .char '\x7b' ∨ point = .char '[' then some json else some yaml

/-- The format of a text: by content type, else by file name, else by the look of the text. -/
def detect? (contentType fileName text : Option Text) : Option Format :=
  (contentType.bind ofContentType?).or ((fileName.bind ofFileName?).or (text.bind ofText?))

/-! ## The character set of a content type -/

/-- Whether a code point is a given small letter in either case; the long s counts as an s. -/
def isLetter (letter : Char) (point : CodePoint) : Bool :=
  point.isCharWith fun c => c.toLower = letter || (letter = 's' && c = 'ſ')

/-- What follows a word at the start of a text, where letters match in either case. -/
def afterWord? : List Char → Text → Option Text
  | [], t => some t
  | _ :: _, [] => none
  | letter :: word, point :: rest => if isLetter letter point then afterWord? word rest else none

/-- The name after `charset=` at the start of a text, up to a blank or a semicolon. -/
def charsetHere? (t : Text) : Option Text := do
  let rest ← afterWord? ['c', 'h', 'a', 'r', 's', 'e', 't'] t
  match dropBlanks rest with
  | .char '=' :: value =>
    match (dropBlanks value).takeWhile (!·.isCharWith fun c => isBlank c || c = ';') with
    | [] => none
    | name => some name
  | _ => none

/-- The name after the first `charset=` of a text. -/
def findCharset? : Text → Option Text
  | [] => none
  | point :: rest => (charsetHere? (point :: rest)).or (findCharset? rest)

/-- A text without a given character at its ends. -/
def stripChar (c : Char) (t : Text) : Text :=
  ((t.dropWhile (· == .char c)).reverse.dropWhile (· == .char c)).reverse

/-- The name of the character set in a content type, without the quotes around it. -/
def charsetName? (contentType : Text) : Option Text :=
  (findCharset? contentType).map fun name => stripChar '\'' (stripChar '"' name)

end Format

end Treewalk
