import Treewalk.Yaml.Token

/-!
# Tags

A tag says what kind of data a node is. A plain scalar without a tag gets one from its text
(`Tag.resolve`): truth values, numbers, null, dates, the merge key and the value key are told by
their form, and all other text is text.

The forms are those of version 1.1 of the format. Numbers may have underscores among their digits,
integers may be written in base 2, 8, 16 or 60, and a floating point number needs its point, and a
sign in its exponent.
-/

namespace Treewalk.Yaml

/-- The kind of data of a node. -/
inductive Tag where
  | null
  | bool
  | int
  | float
  | binary
  | timestamp
  | orderedMap
  | pairs
  | set
  | str
  | seq
  | map
  | merge
  | value
  /-- A tag that stands for no kind of data. -/
  | unknown
  deriving DecidableEq

namespace Tag

/-- The start that the full names of all tags of the format share. -/
def standardStem : String := "tag:yaml.org,2002:"

/-- The full names of the tags that can be given outright. -/
def fullNames : List (String × Tag) :=
  [("null", null), ("bool", bool), ("int", int), ("float", float), ("binary", binary),
    ("timestamp", timestamp), ("omap", orderedMap), ("pairs", pairs), ("set", set), ("str", str),
    ("seq", seq), ("map", map), ("merge", merge), ("value", value)].map
    fun (name, t) => (standardStem ++ name, t)

/-- The short form in which a tag is written. -/
def shortName (t : Tag) : List Char :=
  '!' :: '!' :: match t with
    | null => ['n', 'u', 'l', 'l']
    | bool => ['b', 'o', 'o', 'l']
    | int => ['i', 'n', 't']
    | float => ['f', 'l', 'o', 'a', 't']
    | binary => ['b', 'i', 'n', 'a', 'r', 'y']
    | timestamp => ['t', 'i', 'm', 'e', 's', 't', 'a', 'm', 'p']
    | orderedMap => ['o', 'm', 'a', 'p']
    | pairs => ['p', 'a', 'i', 'r', 's']
    | set => ['s', 'e', 't']
    | str => ['s', 't', 'r']
    | seq => ['s', 'e', 'q']
    | map => ['m', 'a', 'p']
    | merge => ['m', 'e', 'r', 'g', 'e']
    | value => ['v', 'a', 'l', 'u', 'e']
    | unknown => []

/-- The tag with a full name. -/
def ofFullName (name : String) : Tag := (fullNames.lookup name).getD unknown

/-! ## The forms of plain scalars -/

/-- Whether a character is a digit or the given one. -/
def isDigitOr (extra : Char) (c : Char) : Bool := c.isDigit || c = extra

/-- A text without its sign. -/
def unsigned : List Char → List Char
  | '+' :: rest => rest
  | '-' :: rest => rest
  | cs => cs

/-- A colon and one or two digits below sixty, repeated; the result is what follows. -/
def dropSixtieths (cs : List Char) : List Char :=
  match cs with
  | ':' :: a :: rest =>
    match rest with
    | b :: more =>
      if '0' ≤ a && a ≤ '5' && b.isDigit then dropSixtieths more
      else if a.isDigit then dropSixtieths (b :: more) else cs
    | [] => if a.isDigit then [] else cs
  | _ => cs

/-- The form of an integer: in base 2, 8, 10, 16 or 60. -/
def isInt (cs : List Char) : Bool :=
  match unsigned cs with
  | ['0'] => true
  | '0' :: 'b' :: d :: ds => (d :: ds).all fun c => c = '0' || c = '1' || c = '_'
  | '0' :: 'x' :: d :: ds =>
    (d :: ds).all fun c => c.isDigit || ('a' ≤ c && c ≤ 'f') || ('A' ≤ c && c ≤ 'F') || c = '_'
  | '0' :: d :: ds => (d :: ds).all fun c => ('0' ≤ c && c ≤ '7') || c = '_'
  | c :: rest =>
    c.isDigit &&
      match rest.dropWhile (isDigitOr '_') with
      | [] => true
      | after => (dropSixtieths after).isEmpty && after.head? = some ':'
  | [] => false

/-- The form of an exponent with a sign; nothing is one too. -/
def isExponent (cs : List Char) : Bool :=
  match cs with
  | [] => true
  | e :: sign :: d :: ds =>
    (e = 'e' || e = 'E') && (sign = '+' || sign = '-') && (d :: ds).all Char.isDigit
  | _ => false

/-- The form of a floating point number. -/
def isFloat (cs : List Char) : Bool :=
  let body := unsigned cs
  let word := String.ofList body
  if word = ".inf" ∨ word = ".Inf" ∨ word = ".INF" then true
  else
    match cs with
    | '.' :: d :: ds =>
      let word := String.ofList cs
      word = ".nan" || word = ".NaN" || word = ".NAN" ||
        (d.isDigit && isExponent (ds.dropWhile (isDigitOr '_')))
    | _ =>
      match body with
      | d :: ds =>
        d.isDigit &&
          match ds.dropWhile (isDigitOr '_') with
          | '.' :: fraction => isExponent (fraction.dropWhile (isDigitOr '_'))
          | ':' :: rest =>
            match dropSixtieths (':' :: rest) with
            | '.' :: fraction => fraction.all (isDigitOr '_')
            | _ => false
          | _ => false
      | [] => false

/-- The words for truth values. -/
def switchWords : List String :=
  ["yes", "Yes", "YES", "no", "No", "NO", "true", "True", "TRUE", "false", "False", "FALSE",
    "on", "On", "ON", "off", "Off", "OFF"]

/-- The words for null. -/
def nullWords : List String := ["", "~", "null", "Null", "NULL"]

/-- Digits at the start of a text, between the given counts, and what follows them. -/
def takeDigits? (least most : Nat) (cs : List Char) : Option (List Char × List Char) :=
  let run := (cs.take most).takeWhile Char.isDigit
  if run.length < least then none else some (run, cs.drop run.length)

/-- Drops a given character. -/
def dropChar? (c : Char) : List Char → Option (List Char)
  | [] => none
  | d :: rest => if d = c then some rest else none

/-- The parts of a timestamp, as their digits. -/
structure TimestampParts where
  year : List Char
  month : List Char
  day : List Char
  /-- Hour, minute, second, and the digits after the point. -/
  time : Option (List Char × List Char × List Char × List Char)
  /-- The zone: universal time, or a sign with hours and minutes. -/
  zone : Option (Option (Bool × List Char × List Char))

/-- The zone at the end of a timestamp. -/
def zoneParts? (cs : List Char) : Option (Option (Option (Bool × List Char × List Char))) := do
  match cs.dropWhile fun c => c = ' ' || c = '\t' with
  | [] => if cs.isEmpty then some none else none
  | ['Z'] => some (some none)
  | sign :: rest =>
    if sign ≠ '+' ∧ sign ≠ '-' then none
    let (hours, rest) ← takeDigits? 1 2 rest
    let minutes ← (match rest with
      | [] => some []
      | _ => do
        let rest ← dropChar? ':' rest
        let (minutes, rest) ← takeDigits? 2 2 rest
        if rest.isEmpty then some minutes else none : Option (List Char))
    some (some (some (sign = '-', hours, minutes)))

/-- The parts of a timestamp. In the date, month and day may have one digit. -/
def timestampParts? (cs : List Char) : Option TimestampParts := do
  let (year, rest) ← takeDigits? 4 4 cs
  let rest ← dropChar? '-' rest
  let (month, rest) ← takeDigits? 1 2 rest
  let rest ← dropChar? '-' rest
  let (day, rest) ← takeDigits? 1 2 rest
  match rest with
  | [] => some ⟨year, month, day, none, none⟩
  | c :: more =>
    let rest ← (if c = 'T' ∨ c = 't' then some more
      else if c = ' ' ∨ c = '\t' then some (more.dropWhile fun c => c = ' ' || c = '\t')
      else none : Option (List Char))
    let (hour, rest) ← takeDigits? 1 2 rest
    let rest ← dropChar? ':' rest
    let (minute, rest) ← takeDigits? 2 2 rest
    let rest ← dropChar? ':' rest
    let (second, rest) ← takeDigits? 2 2 rest
    let (fraction, rest) := match rest with
      | '.' :: more => (more.takeWhile Char.isDigit, more.dropWhile Char.isDigit)
      | _ => ([], rest)
    let zone ← zoneParts? rest
    some ⟨year, month, day, some (hour, minute, second, fraction), zone⟩

/-- The form of a timestamp: a date alone has two digits for month and day. -/
def isTimestamp (cs : List Char) : Bool :=
  match timestampParts? cs with
  | none => false
  | some parts => parts.time.isSome || (parts.month.length = 2 && parts.day.length = 2)

/-- The indicators that stand for no kind of data where they are a whole scalar. -/
def loneIndicators : List String := ["!", "&", "*"]

/-- The tag of a plain scalar without surrogates. A line feed at the end does not count. -/
def ofChars (text : List Char) : Tag :=
  let cs := if text.getLast? = some '\n' then text.dropLast else text
  let word := String.ofList cs
  if switchWords.contains word then bool
  else if isFloat cs then float
  else if isInt cs then int
  else if word = "<<" then merge
  else if nullWords.contains word && (text.isEmpty || !word.isEmpty) then null
  else if isTimestamp cs then timestamp
  else if word = "=" then value
  else if loneIndicators.contains word then unknown
  else str

/-- The tag of a plain scalar. -/
def resolve (text : Text) : Tag := (text.toChars?.map ofChars).getD str

end Tag

end Treewalk.Yaml
