import Treewalk.Json.Token

/-!
# Reading JSON

The reader goes through the tokens once and keeps the collections that are open, the innermost
first, each with what it holds so far. What may come next is one of the six positions of `Position`.

A collection that would be nested more deeply than the limit ends the reading at its opening
bracket, whatever follows. A key that comes again replaces the value and keeps the place of the
first.
-/

namespace Treewalk.Json

open Document

/-- A collection that is open, with what it holds so far. -/
inductive Level where
  /-- A list; the items stand in reverse. -/
  | list (items : List Document)
  /-- A mapping, with the key whose value is being read. -/
  | map (entries : List (Document × Document)) (key : Text)

/-- Where the reader is. -/
inductive Position where
  /-- Before a value. -/
  | value
  /-- After the opening bracket of a list. -/
  | firstItem
  /-- After the opening bracket of a mapping. -/
  | firstKey
  /-- After a comma in a mapping. -/
  | key
  /-- Between a key and its value. -/
  | colon
  /-- After a value. -/
  | afterValue
  deriving DecidableEq

/-- The state of the reader. -/
structure Progress where
  levels : List Level
  position : Position
  /-- The document, once it is complete. -/
  result : Option Document

namespace Progress

/-- The start of a document. -/
def start : Progress := ⟨[], .value, none⟩

/-- Takes a complete value. -/
def take (p : Progress) (d : Document) : Progress :=
  match p.levels with
  | [] => ⟨[], .afterValue, some d⟩
  | .list items :: outer => ⟨.list (d :: items) :: outer, .afterValue, none⟩
  | .map entries key :: outer =>
    ⟨.map (setEntry (.text key) d entries) key :: outer, .afterValue, none⟩

/-- Takes a token; `limit` is the number of collections that may be open. -/
def step (limit : Nat) (p : Progress) (t : Token) : Except JsonFault Progress :=
  match p.position, t with
  | .value, .openList | .firstItem, .openList =>
    if limit ≤ p.levels.length then .error .tooDeep
    else .ok ⟨.list [] :: p.levels, .firstItem, none⟩
  | .value, .openMap | .firstItem, .openMap =>
    if limit ≤ p.levels.length then .error .tooDeep
    else .ok ⟨.map [] [] :: p.levels, .firstKey, none⟩
  | .value, .text t | .firstItem, .text t => .ok (p.take (.text t))
  | .value, .scalar d | .firstItem, .scalar d => .ok (p.take d)
  | .firstItem, .closeList | .afterValue, .closeList =>
    match p.levels with
    | .list items :: outer => .ok (take { p with levels := outer } (.list items.reverse))
    | _ => .error .malformed
  | .firstKey, .closeMap | .afterValue, .closeMap =>
    match p.levels with
    | .map entries _ :: outer => .ok (take { p with levels := outer } (.map entries))
    | _ => .error .malformed
  | .firstKey, .text t | .key, .text t =>
    match p.levels with
    | .map entries _ :: outer => .ok ⟨.map entries t :: outer, .colon, none⟩
    | _ => .error .malformed
  | .colon, .colon => .ok { p with position := .value }
  | .afterValue, .comma =>
    match p.levels with
    | .list _ :: _ => .ok { p with position := .value }
    | .map .. :: _ => .ok { p with position := .key }
    | [] => .error .malformed
  | _, _ => .error .malformed

end Progress

/-- What a text is after its leading spaces. -/
def dropSpaces (t : Text) : Text := t.dropWhile isSpace

theorem length_dropSpaces (t : Text) : (dropSpaces t).length ≤ t.length :=
  (List.dropWhile_suffix isSpace).length_le

/-- Reads on from a state to the end of the text. -/
def readFrom (limit : Nat) (p : Progress) (t : Text) : Except JsonFault Document :=
  match _hs : dropSpaces t with
  | [] => match p.result with | some d => .ok d | none => .error .malformed
  | point :: rest =>
    match _hn : Token.next (point :: rest) with
    | .error fault => .error fault
    | .ok (token, after) =>
      match p.step limit token with
      | .error fault => .error fault
      | .ok p => readFrom limit p after
termination_by t.length
decreasing_by
  have h1 := length_dropSpaces t
  have h2 := Token.length_next _hn
  rw [_hs] at h1
  omega

/-- Reads a text as a JSON document, with at most `limit` collections inside each other. -/
def read (limit : Nat) (t : Text) : Except JsonFault Document := readFrom limit .start t

/-- The number of collections that may be open at a time. -/
def depthLimit : Nat := 990

end Treewalk.Json
