import Treewalk.Yaml.Scalar
import Treewalk.Format.Charset

/-!
# The tokens of a YAML text

A text is read from left to right. The state knows how deep flow collections are nested, the column
of the innermost block collection (`indent`, with those around it in `outer`), and where a key may
have started.

Whether a scalar or a collection is a key turns out only at the colon after it. So the place of each
token that may start a key is kept as a candidate, one for each level of flow collections; when the
colon comes, the token `Token.key` is put in front of the candidate, and before that the start of a
block mapping if the candidate stands further to the right than the block around it. A candidate is
given up when its line ends or 1024 characters have passed. A candidate at the column of the block
around it has to become a key, because nothing else may stand there.

A text that cannot be read on ends in a token that holds the fault. Nobody can take a token while it
may still turn out to be a key, so the fault comes before the first candidate that is left
(`TokenState.fail`). Each round of the loop takes at least one character, which is why it ends.
-/

namespace Treewalk.Yaml

/-- A token that may turn out to start a key. -/
structure KeyCandidate where
  /-- The number of tokens before it. -/
  position : Nat
  required : Bool
  index : Nat
  line : Nat
  column : Nat

/-- The state of reading tokens. -/
structure TokenState where
  cursor : Cursor
  /-- The number of flow collections that are open. -/
  flow : Nat
  /-- The column of the innermost block collection, or -1. -/
  indent : Int
  outer : List Int
  /-- Whether a key may start here. -/
  keyAllowed : Bool
  candidates : List (Nat × KeyCandidate)
  /-- The tokens so far, the last one first. -/
  tokens : List Token
  /-- The number of the tokens so far. -/
  count : Nat

namespace TokenState

/-- The state before the first character. -/
def start (cs : List Char) : TokenState := ⟨.start cs, 0, -1, [], true, [], [], 0⟩

/-- Adds a token at the end. -/
def push (s : TokenState) (t : Token) : TokenState :=
  { s with tokens := t :: s.tokens, count := s.count + 1 }

/-- Puts a token in front of the token with the given number. -/
def insert (s : TokenState) (position : Nat) (t : Token) : TokenState :=
  let (after, before) := s.tokens.splitAt (s.count - position)
  { s with tokens := after ++ t :: before, count := s.count + 1 }

/-- The state at another place. -/
def moveTo (s : TokenState) (c : Cursor) : TokenState := { s with cursor := c }

/-- Allows or forbids that a key starts next. -/
def allowKey (s : TokenState) (allowed : Bool) : TokenState := { s with keyAllowed := allowed }

/-! ## Candidates for keys -/

/-- Gives up the candidate of the current level; one that has to become a key is a fault. -/
def dropCandidate (s : TokenState) : Except YamlFault TokenState :=
  match s.candidates.lookup s.flow with
  | none => .ok s
  | some k =>
    if k.required then .error .malformed
    else .ok { s with candidates := s.candidates.filter (·.1 != s.flow) }

/-- Whether a candidate is too far back. -/
def isStale (s : TokenState) (k : KeyCandidate) : Bool :=
  k.line != s.cursor.line || 1024 < s.cursor.index - k.index

/-- Gives up the candidates that are too far back. -/
def dropStale (s : TokenState) : Except YamlFault TokenState :=
  if s.candidates.any fun (_, k) => s.isStale k && k.required then .error .malformed
  else .ok { s with candidates := s.candidates.filter fun (_, k) => !s.isStale k }

/-- Makes the next token a candidate, if a key may start here. -/
def saveCandidate (s : TokenState) : Except YamlFault TokenState :=
  if s.keyAllowed then do
    let required := s.flow = 0 && s.indent == s.cursor.column
    let s ← s.dropCandidate
    let k : KeyCandidate :=
      ⟨s.count, required, s.cursor.index, s.cursor.line, s.cursor.column⟩
    return { s with candidates := (s.flow, k) :: s.candidates }
  else .ok s

/-! ## Block collections -/

/-- Ends the block collections that stand further to the right than a column. -/
def unwind (column : Int) (s : TokenState) : TokenState :=
  if s.flow ≠ 0 then s else go s s.outer
where
  /-- Ends block collections; the second argument is `outer`. -/
  go (s : TokenState) : List Int → TokenState
    | [] => { s with outer := [] }
    | o :: outer =>
      if column < s.indent then go { s.push .blockEnd with indent := o } outer
      else { s with outer := o :: outer }

/-- Begins a block collection at a column, unless one is open there: its first token is put in front
of the token with the given number. -/
def beginBlock (s : TokenState) (column : Nat) (position : Nat) (t : Token) : TokenState :=
  if s.indent < column then
    { s.insert position t with indent := column, outer := s.indent :: s.outer }
  else s

/-! ## The single tokens -/

/-- Ends all block collections, in front of something that stands outside documents. -/
def leaveBlocks (s : TokenState) : Except YamlFault TokenState := do
  let s ← (s.unwind (-1)).dropCandidate
  return s.allowKey false

/-- Reads an indicator of the given length as a token. -/
def readIndicator (s : TokenState) (length : Nat) (t : Token) : TokenState :=
  (s.push t).moveTo (s.cursor.advanceBy length)

/-- Reads the bracket that opens a flow collection. -/
def readOpen (s : TokenState) (t : Token) : Except YamlFault TokenState := do
  let s ← s.saveCandidate
  return { (s.readIndicator 1 t) with flow := s.flow + 1, keyAllowed := true }

/-- Reads the bracket that closes a flow collection. -/
def readClose (s : TokenState) (t : Token) : Except YamlFault TokenState := do
  let s ← s.dropCandidate
  return { (s.readIndicator 1 t) with flow := s.flow - 1, keyAllowed := false }

/-- Reads the comma between the members of a flow collection. -/
def readComma (s : TokenState) : Except YamlFault TokenState := do
  let s ← (s.allowKey true).dropCandidate
  return s.readIndicator 1 .comma

/-- The dash of a block list. -/
def readDash (s : TokenState) : Except YamlFault TokenState := do
  if s.flow = 0 && !s.keyAllowed then throw .malformed
  let s := if s.flow = 0 then s.beginBlock s.cursor.column s.count .blockList else s
  let s ← (s.allowKey true).dropCandidate
  return s.readIndicator 1 .dash

/-- The question mark in front of a key. -/
def readKey (s : TokenState) : Except YamlFault TokenState := do
  if s.flow = 0 && !s.keyAllowed then throw .malformed
  let s := if s.flow = 0 then s.beginBlock s.cursor.column s.count .blockMap else s
  let s ← (s.allowKey (s.flow = 0)).dropCandidate
  return s.readIndicator 1 .key

/-- The colon in front of a value. -/
def readValue (s : TokenState) : Except YamlFault TokenState := do
  match s.candidates.lookup s.flow with
  | some k =>
    let s := { s.insert k.position .key with candidates := s.candidates.filter (·.1 != s.flow) }
    let s := if s.flow = 0 then s.beginBlock k.column k.position .blockMap else s
    return (s.allowKey false).readIndicator 1 .value
  | none =>
    if s.flow = 0 && !s.keyAllowed then throw .malformed
    let s := if s.flow = 0 then s.beginBlock s.cursor.column s.count .blockMap else s
    let s ← (s.allowKey (s.flow = 0)).dropCandidate
    return s.readIndicator 1 .value

/-- The name of an alias or an anchor, after its indicator. -/
def readName (s : TokenState) (t : String → Token) : Except YamlFault TokenState := do
  let s ← s.saveCandidate
  let (name, c) := s.cursor.advance.span isNameChar
  let ends := endsIndicator c.peek || c.nextIs (· ∈ ['?', ':', ',', ']', '\x7d', '%', '@', '\x60'])
  if name.isEmpty || !ends then throw .malformed
  return ((s.allowKey false).push (t (String.ofList name))).moveTo c

/-! ### Tags and directives -/

/-- Whether a character may stand in a tag. -/
def isUriChar (c : Char) : Bool :=
  c.isAlphanum ||
    c ∈ ['-', ';', '/', '?', ':', '@', '&', '=', '+', '$', ',', '_', '.', '!', '~', '*', '\'', '(',
      ')', '[', ']', '%']

/-- The bytes that percent signs with two hexadecimal digits each stand for, and what follows. -/
def escapedBytes : List Char → Option (List UInt8 × List Char)
  | '%' :: a :: b :: rest => do
    let a ← Json.hexValue? a
    let b ← Json.hexValue? b
    let (bytes, after) ← escapedBytes rest
    return (UInt8.ofNat (a * 16 + b) :: bytes, after)
  | '%' :: _ => none
  | cs => some ([], cs)

/-- The text of a tag in which percent signs stand for bytes of UTF-8; the first argument bounds the
number of characters. -/
def unescapeUri : Nat → List Char → Option (List Char)
  | 0, _ => some []
  | _ + 1, [] => some []
  | n + 1, c :: cs =>
    if c = '%' then do
      let (bytes, rest) ← escapedBytes (c :: cs)
      if (Charset.utf8Fault? bytes).isSome then none
      return Charset.decodeUtf8 bytes ++ (← unescapeUri n rest)
    else do return c :: (← unescapeUri n cs)

/-- Reads the text of a tag. -/
def readUri (c : Cursor) : Except YamlFault (String × Cursor) := do
  let (raw, after) := c.span isUriChar
  if raw.isEmpty then throw .malformed
  match unescapeUri raw.length raw with
  | none => throw .malformed
  | some text => return (String.ofList text, after)

/-- Reads the handle of a tag: an exclamation mark, or a name between two. -/
def readHandle (c : Cursor) : Except YamlFault (String × Cursor) := do
  if c.peek ≠ some '!' then throw .malformed
  let c := c.advance
  if c.peek = some ' ' then return ("!", c)
  let (name, c) := c.span isNameChar
  if c.peek ≠ some '!' then throw .malformed
  return (String.ofList ('!' :: name ++ ['!']), c.advance)

/-- Reads a tag from its exclamation mark. -/
def readTag (s : TokenState) : Except YamlFault TokenState := do
  let s ← s.saveCandidate
  let c := s.cursor
  let (handle, suffix, after) ← (do
    if c.peekAt 1 = some '<' then
      let (suffix, c) ← readUri (c.advanceBy 2)
      if c.peek ≠ some '>' then throw .malformed
      return (none, suffix, c.advance)
    else if endsIndicator (c.peekAt 1) then return (none, "!", c.advance)
    else
      let word := (c.rest.drop 1).takeWhile fun x => x != ' ' && !isBreak x
      if word.contains '!' then
        let (handle, c) ← readHandle c
        let (suffix, c) ← readUri c
        return (some handle, suffix, c)
      else
        let (suffix, c) ← readUri c.advance
        return (some "!", suffix, c) : Except YamlFault (Option String × String × Cursor))
  if !endsWord after.peek then throw .malformed
  return ((s.allowKey false).push (.tag handle suffix)).moveTo after

/-- Reads the digits of a version, which must not be more than those of any other numeral. -/
def readVersionPart (c : Cursor) : Except YamlFault (Nat × Cursor) := do
  let (digits, c) := c.span Char.isDigit
  if digits.isEmpty then throw .malformed
  if Number.digitLimit < digits.length then throw (.longInteger digits.length)
  return (Nat.ofDigitChars 10 digits 0, c)

/-- Reads a directive from its percent sign. -/
def readDirective (s : TokenState) : Except YamlFault TokenState := do
  let s ← s.leaveBlocks
  let (name, c) := s.cursor.advance.span isNameChar
  if name.isEmpty || !endsWord c.peek then throw .malformed
  let (d, c) ← (do
    if name = ['Y', 'A', 'M', 'L'] then
      let (major, c) ← readVersionPart c.skipSpaces
      if c.peek ≠ some '.' then throw .malformed
      let (minor, c) ← readVersionPart c.advance
      if !endsWord c.peek then throw .malformed
      return (Directive.version major minor, c)
    else if name = ['T', 'A', 'G'] then
      let (handle, c) ← readHandle c.skipSpaces
      if c.peek ≠ some ' ' then throw .malformed
      let (stem, c) ← readUri c.skipSpaces
      if !endsWord c.peek then throw .malformed
      return (Directive.tag handle stem, c)
    else return (Directive.other, c.skip (!isBreak ·)) : Except YamlFault (Directive × Cursor))
  let c := c.skipSpaces.skipComment
  if !endsLine c.peek then throw .malformed
  let c := match c.lineBreak? with | some (_, next) => next | none => c
  return (s.push (.directive d)).moveTo c

/-! ### Scalars -/

/-- Reads a literal or folded scalar. -/
def readBlockScalar (s : TokenState) (folded : Bool) : Except YamlFault TokenState := do
  let s ← (s.allowKey true).dropCandidate
  let (text, c) ← readBlock folded s.indent s.cursor
  return (s.push (.scalar (.ofChars text) false)).moveTo c

/-- Reads a quoted scalar, which may be a key. -/
def readQuotedScalar (s : TokenState) : Except YamlFault TokenState := do
  let s ← s.saveCandidate
  let (text, c) ← readQuoted s.cursor
  return ((s.allowKey false).push (.scalar text false)).moveTo c

/-- Reads a plain scalar, which may be a key. -/
def readPlainScalar (s : TokenState) : Except YamlFault TokenState := do
  let s ← s.saveCandidate
  let (text, c, ended) := plainFrom (s.flow ≠ 0) (s.indent + 1) [] false s.cursor
  return ((s.allowKey ended).push (.scalar (.ofChars text) true)).moveTo c

/-! ## All tokens -/

/-- The place of the next token: blanks, comments and line breaks are skipped. In block context, a
key may start on a new line. -/
def toNextToken (s : TokenState) : TokenState :=
  let c := s.cursor.skipSpaces.skipComment
  match c.lineBreak? with
  | none => s.moveTo c
  | some (_, next) =>
    if next.left < s.cursor.left then
      toNextToken { s with cursor := next, keyAllowed := s.keyAllowed || s.flow = 0 }
    else s.moveTo c
termination_by s.cursor.left

/-- Whether a plain scalar may start here. -/
def startsPlain (s : TokenState) (c : Char) : Bool :=
  let next := s.cursor.peekAt 1
  let reserved := c = ' ' || c = '\t' || isBreak c ||
    c ∈ ['-', '?', ':', ',', '[', ']', '\x7b', '\x7d', '#', '&', '*', '!', '|', '>', '\'', '"',
      '%', '@', '\x60']
  !reserved || (!endsIndicator next && (c = '-' || (s.flow = 0 && (c = '?' || c = ':'))))

/-- Reads the token that starts with a character. -/
def readToken (s : TokenState) (c : Char) : Except YamlFault TokenState :=
  let indicatorEnds := endsIndicator (s.cursor.peekAt 1)
  if c = '%' && s.cursor.column = 0 then s.readDirective
  else if s.cursor.column = 0 && s.cursor.atDocumentMark then do
    let s ← s.leaveBlocks
    return s.readIndicator 3 (if c = '-' then .documentStart else .documentEnd)
  else if c = '[' then s.readOpen .listOpen
  else if c = '\x7b' then s.readOpen .mapOpen
  else if c = ']' then s.readClose .listClose
  else if c = '\x7d' then s.readClose .mapClose
  else if c = ',' then s.readComma
  else if c = '-' && indicatorEnds then s.readDash
  else if c = '?' && (s.flow ≠ 0 || indicatorEnds) then s.readKey
  else if c = ':' && (s.flow ≠ 0 || indicatorEnds) then s.readValue
  else if c = '*' then s.readName .alias
  else if c = '&' then s.readName .anchor
  else if c = '!' then s.readTag
  else if c = '|' && s.flow = 0 then s.readBlockScalar false
  else if c = '>' && s.flow = 0 then s.readBlockScalar true
  else if c = '\'' || c = '"' then s.readQuotedScalar
  else if s.startsPlain c then s.readPlainScalar
  else .error .malformed

/-- The tokens of a text that cannot be read on: those in front of the first candidate that is left,
and the fault. -/
def fail (s : TokenState) (f : YamlFault) : List Token :=
  let free := s.candidates.foldl
    (fun n (_, k) => if s.isStale k then n else min n k.position) s.count
  (.fault f :: s.tokens.drop (s.count - free)).reverse

/-- Reads the next token. Where the text ends there is none, and the state is the left one. -/
def readNext (s : TokenState) : Except YamlFault (TokenState ⊕ TokenState) := do
  let s ← s.toNextToken.dropStale
  let s := s.unwind s.cursor.column
  match s.cursor.peek with
  | none => return .inl (← s.leaveBlocks)
  | some c => return .inr (← s.readToken c)

/-- Reads the tokens up to the end of the text. -/
def readTokens (s : TokenState) : List Token :=
  match s.readNext with
  | .error f => s.fail f
  | .ok (.inl last) => (.finish :: last.tokens).reverse
  | .ok (.inr next) =>
    if next.cursor.left < s.cursor.left then readTokens next else s.fail .malformed
termination_by s.cursor.left

end TokenState

/-- The tokens of a text. A mark at its start is skipped, and a text with a character that may not
stand in one has no token but a fault. -/
def tokensOf (cs : List Char) : List Token :=
  if !cs.all isAllowed then [.fault .malformed]
  else
    let s := TokenState.start cs
    let s := if s.cursor.peek = some byteOrderMark then s.moveTo s.cursor.advance else s
    s.readTokens

end Treewalk.Yaml
