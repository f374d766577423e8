import Treewalk.Text.Base64
import Treewalk.Text.LowerCase
import Treewalk.Yaml.Tag
import Treewalk.Document.Show

/-!
# The data of tagged scalars

What a scalar with a tag stands for. The tag may have been given outright, so the text can be
anything; a text that does not fit its tag is a fault of a kind of its own for each tag.
-/

namespace Treewalk.Yaml

open Number Text

/-- A text cut at each colon. -/
def splitColons (t : Text) : List Text := t.splitOn (.char ':')

/-- A text without its underscores. -/
def dropUnderscores (t : Text) : Text := t.filter (· != .char '_')

/-- Reads an integer in a base. What is displayed for a surrogate stands in no numeral either. -/
def readIntIn (base : Nat) (t : Text) : Except YamlFault Int :=
  match readInt base t.toChars with
  | .ok n => .ok n
  | .error (.tooLong digits) => .error (.longInteger digits)
  | .error .malformed => .error (.notAnInteger base t)

/-- The integer of a text: in base 2, 8, 10, 16 or, with colons, in base 60. -/
def intValue (t : Text) : Except YamlFault Int := do
  let (negative, body) := (dropUnderscores t).takeSign
  let n ← (match body with
    | [] => .error .emptyNumber
    | [.char '0'] => .ok 0
    | .char '0' :: .char 'b' :: digits => readIntIn 2 digits
    | .char '0' :: .char 'x' :: digits => readIntIn 16 digits
    | .char '0' :: _ => readIntIn 8 body
    | _ =>
      if body.contains (.char ':') then do
        let parts ← (splitColons body).mapM (readIntIn 10)
        return parts.foldl (fun n part => n * 60 + part) 0
      else readIntIn 10 body : Except YamlFault Int)
  return if negative then -n else n

/-- Reads a floating point number. -/
def readReal (t : Text) : Except YamlFault Binary64 :=
  match t.toChars?.bind Binary64.read? with
  | some x => .ok x
  | none => .error (.notAReal t)

/-- The sum of numbers, each weighed with a power of sixty: the last with one, the one before it
with sixty, and so on. A weight that is no floating point number is a fault. -/
def sumSixtieths (parts : List Binary64) : Except YamlFault Binary64 := do
  let step (acc : Float × Nat) (x : Binary64) : Except YamlFault (Float × Nat) :=
    let weight := Binary64.ofInt acc.2
    if weight.isInfinite then .error .longReal
    else .ok (acc.1 + x.toFloat * weight.toFloat, acc.2 * 60)
  return .ofFloat (← parts.reverse.foldlM step (0, 1)).1

/-- The floating point number of a text: a decimal, an infinity, the undefined number or, with
colons, a number in base 60. Other undefined numbers than the one with a word of its own are told
apart by a mark. -/
def realValue (mark : Nat) (t : Text) : Except YamlFault Binary64 := do
  let small := Text.lower (dropUnderscores t)
  if small.isEmpty then throw .emptyNumber
  let (negative, body) := small.takeSign
  let signed (x : Binary64) : Binary64 :=
    if x.isNaN then .marked mark else if negative then x.negate else x
  if body = ".inf" then return .infinity negative
  else if body = ".nan" then return .nan
  else if body.contains (.char ':') then
    let parts ← (splitColons body).mapM readReal
    return signed (← sumSixtieths parts)
  else return signed (← readReal body)

/-- The bytes of a text in base 64. -/
def binaryValue (t : Text) : Except YamlFault (List UInt8) :=
  match t.toChars? with
  | none => .error .malformed
  | some cs =>
    if cs.any fun c => 0x7F < c.toNat then .error .malformed
    else
      match decodeBase64 cs with
      | some bytes => .ok bytes
      | none => .error .malformed

/-- The date or moment of a text. -/
def timestampValue (t : Text) : Except YamlFault Document := do
  let number (ds : List Char) : Nat := Nat.ofDigitChars 10 ds 0
  let checked (r : Except CalendarFault Unit) : Except YamlFault Unit :=
    match r with
    | .ok () => .ok ()
    | .error fault => .error (.calendar fault)
  let stripped : Text := if t.getLast? = some (.char '\n') then t.dropLast else t
  match stripped.toChars?.bind Tag.timestampParts? with
  | none => throw .notATimestamp
  | some parts =>
    let date : CalendarDate := ⟨number parts.year, number parts.month, number parts.day⟩
    match parts.time with
    | none =>
      checked date.check
      return .date date
    | some (hour, minute, second, fraction) =>
      let six := fraction.take 6
      let offset := parts.zone.map fun zone =>
        match zone with
        | none => 0
        | some (negative, hours, minutes) =>
          let seconds : Int := number hours * 3600 + number minutes * 60
          if negative then -seconds else seconds
      let moment : Moment :=
        { date := date, hour := number hour, minute := number minute, second := number second,
          microsecond := number (six ++ List.replicate (6 - six.length) '0'), offset := offset }
      checked moment.check
      return .moment moment

/-- The truth value of a word in small letters. -/
def switchValue? (word : Text) : Option Bool :=
  if word = "yes" ∨ word = "true" ∨ word = "on" then some true
  else if word = "no" ∨ word = "false" ∨ word = "off" then some false
  else none

/-- The data of a scalar whose tag stands for a scalar; no other tag fits one. The mark tells
undefined numbers apart. -/
def scalarValue (mark : Nat) (tag : Tag) (t : Text) : Except YamlFault Document :=
  match tag with
  | .null => .ok .null
  | .bool =>
    let word := Text.lower t
    match switchValue? word with
    | some b => .ok (.bool b)
    | none => .error (.unknownSwitch word)
  | .int => (intValue t).map .int
  | .float => (realValue mark t).map .real
  | .binary => (binaryValue t).map .bytes
  | .timestamp => timestampValue t
  | .str => .ok (.text t)
  | .orderedMap | .pairs | .set | .seq | .map | .merge | .value | .unknown => .error .malformed

end Treewalk.Yaml
