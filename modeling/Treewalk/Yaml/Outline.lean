import Treewalk.Text.Base64
import Treewalk.Yaml.Tag
import Treewalk.Document.Show

/-!
# Outlines

The outline of a document is what is decided before it is written in YAML: the text and the tag of
each scalar, and for each collection whether it is written between brackets or item by item on lines
of its own. There are two ways to decide it. `simpleInside` puts those collections between brackets
that hold nothing but plain scalars, `allInside` all of them.

Documents that describe no part of the format have no outline: expressions that have been built
already, and links.
-/

namespace Treewalk.Yaml

open Number Text

/-- The decided form of a document. -/
inductive Outline where
  | scalar (tag : Tag) (text : Text)
  | list (inside : Bool) (items : List Outline)
  /-- A mapping, or the set of its keys. -/
  | map (tag : Tag) (inside : Bool) (entries : List (Outline × Outline))

/-- Which collections are written between brackets. -/
inductive Bracketing where
  | simpleInside
  | allInside
  deriving DecidableEq

namespace Outline

/-- Whether an outline is a scalar that can stand on one line with others; bytes have lines of their
own. -/
def isSimple : Outline → Bool
  | scalar tag _ => tag ≠ .binary
  | _ => false

/-- Whether an outline is a collection without items. -/
def isHollow : Outline → Bool
  | scalar .. => false
  | list _ items => items.isEmpty
  | map _ _ entries => entries.isEmpty

/-- The text of a floating point number. It has a point also where only an exponent is left. -/
def realText (x : Binary64) : List Char :=
  if x.isNaN then ['.', 'n', 'a', 'n']
  else if x.isInfinite then (if x.isNegative then ['-'] else []) ++ ['.', 'i', 'n', 'f']
  else
    let cs := x.render
    if cs.contains '.' then cs
    else cs.takeWhile (· != 'e') ++ (if cs.contains 'e' then ['.', '0'] else []) ++
      cs.dropWhile (· != 'e')

/-- A number in at least `width` digits. -/
def padded (width n : Nat) : List Char :=
  let digits := Nat.toDigits 10 n
  List.replicate (width - digits.length) '0' ++ digits

/-- The text of a date. -/
def dateText (d : CalendarDate) : List Char :=
  padded 4 d.year ++ '-' :: padded 2 d.month ++ '-' :: padded 2 d.day

/-- The text of an offset from universal time. -/
def offsetText (seconds : Int) : List Char :=
  let n := seconds.natAbs
  (if seconds < 0 then '-' else '+') :: padded 2 (n / 3600) ++ ':' :: padded 2 (n / 60 % 60) ++
    if n % 60 = 0 then [] else ':' :: padded 2 (n % 60)

/-- The text of a moment; without a fraction where it is a whole second. -/
def momentText (m : Moment) : List Char :=
  dateText m.date ++ ' ' :: padded 2 m.hour ++ ':' :: padded 2 m.minute ++
    ':' :: padded 2 m.second ++
    (if m.microsecond = 0 then [] else '.' :: padded 6 m.microsecond) ++
    match m.offset with
    | none => []
    | some seconds => offsetText seconds

/-- The number of characters on a line of base 64, less one. -/
def binaryLine : Nat := 75

mutual

/-- The outline of a document; the first part that has none is the fault. -/
def ofDocument (style : Bracketing) : Document → Except Document Outline
  | .null => .ok (scalar .null "null")
  | .bool true => .ok (scalar .bool "true")
  | .bool false => .ok (scalar .bool "false")
  | .int n => .ok (scalar .int (.ofChars (renderInt n)))
  | .real x => .ok (scalar .float (.ofChars (realText x)))
  | .text t => .ok (scalar .str t)
  | .bytes data => .ok (scalar .binary (.ofChars (cutLines binaryLine (encodeBase64 data))))
  | .date d => .ok (scalar .timestamp (.ofChars (dateText d)))
  | .moment m => .ok (scalar .timestamp (.ofChars (momentText m)))
  | .list items => do
    let items ← ofItems style items
    return list (style = .allInside || items.all isSimple) items
  | .tuple items => do
    let items ← ofItems style items
    return list (style = .allInside || items.all isSimple) items
  | .set members => do
    let entries := (← ofItems style members).map fun k => (k, scalar .null "null")
    return map .set (style = .allInside || entries.all fun e => e.1.isSimple) entries
  | .map entries => do
    let entries ← ofEntries style entries
    let inside := style = .allInside || entries.all fun e => e.1.isSimple && e.2.isSimple
    return map .map inside entries
  | .node e => .error (.node e)
  | .link place => .error (.link place)

/-- The outlines of the items of a collection. -/
def ofItems (style : Bracketing) : List Document → Except Document (List Outline)
  | [] => .ok []
  | d :: ds => do
    let first ← ofDocument style d
    let rest ← ofItems style ds
    return first :: rest

/-- The outlines of the entries of a mapping. -/
def ofEntries (style : Bracketing) :
    List (Document × Document) → Except Document (List (Outline × Outline))
  | [] => .ok []
  | (k, v) :: rest => do
    let key ← ofDocument style k
    let value ← ofDocument style v
    let others ← ofEntries style rest
    return (key, value) :: others

end

end Outline

end Treewalk.Yaml
