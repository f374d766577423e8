import Treewalk.Text.Quoted

/-!
# Character sets

Turning bytes into text. The sets known are UTF-8, with and without a mark at the start, Latin-1,
ASCII, and UTF-16 in both byte orders without a mark.

Decoding never fails: bytes that form no character become the replacement character. For UTF-8 each
longest start of a well-formed sequence that is not completed is replaced once, and so is each byte
that starts none. `utf8Fault?` finds the first such place, for readers that accept nothing but
well-formed text.

A text has bytes only if it has no surrogates, because these stand for no character. Where names
come from bytes, some surrogates stand for single bytes and may stay; so `Text.surrogateFault?` is
told which ones are allowed. It finds the first one that is not, together with all surrogates right
behind it.
-/

namespace Treewalk

/-- A character set. -/
inductive Charset where
  | utf8
  /-- UTF-8 whose text may start with a byte order mark, which is dropped. -/
  | utf8Marked
  | latin1
  | ascii
  | utf16 (bigEndian : Bool)
  deriving DecidableEq

namespace Charset

/-- The character that stands for bytes that form none. -/
def replacement : Char := '\uFFFD'

/-! ## Names -/

/-- The name of a character set in small letters, with one underscore between each two parts. The
parts are made of the letters and digits of ASCII and of points. -/
def normalName (name : Text) : Text :=
  let isPart := CodePoint.isCharWith fun c => c.isAlphanum || c = '.'
  let runs := (name.map (·.mapChar Char.toLower)).splitBy fun a b => isPart a == isPart b
  Text.join ['_'] (runs.filter (·.all isPart))

/-- The names of the character sets. -/
def names : List (String × Charset) := [
  ("utf_8", utf8), ("utf_8_sig", utf8Marked), ("latin_1", latin1), ("ascii", ascii),
  ("utf_16_le", utf16 false), ("utf_16_be", utf16 true)]

/-- The other names of the character sets. -/
def aliases : List (String × Charset) := [
  ("u8", utf8), ("utf", utf8), ("utf8", utf8), ("utf8_ucs2", utf8), ("utf8_ucs4", utf8),
  ("cp65001", utf8),
  ("8859", latin1), ("cp819", latin1), ("csisolatin1", latin1), ("ibm819", latin1),
  ("iso8859", latin1), ("iso8859_1", latin1), ("iso_8859_1", latin1), ("iso_8859_1_1987", latin1),
  ("iso_ir_100", latin1), ("l1", latin1), ("latin", latin1), ("latin1", latin1),
  ("646", ascii), ("ansi_x3.4_1968", ascii), ("ansi_x3_4_1968", ascii), ("ansi_x3.4_1986", ascii),
  ("cp367", ascii), ("csascii", ascii), ("ibm367", ascii), ("iso646_us", ascii),
  ("iso_646.irv_1991", ascii), ("iso_ir_6", ascii), ("us", ascii), ("us_ascii", ascii),
  ("utf_16le", utf16 false), ("unicodelittleunmarked", utf16 false),
  ("utf_16be", utf16 true), ("unicodebigunmarked", utf16 true)]

/-- The character set that a table gives for a name. -/
def find? (table : List (String × Charset)) (name : Text) : Option Charset :=
  (table.find? fun entry => Text.ofString entry.1 == name).map (·.2)

/-- The character set with a name. In the other names an underscore may be written as a point. -/
def ofName? (name : Text) : Option Charset :=
  let name := normalName name
  let plain := name.map fun point => if point = .char '.' then .char '_' else point
  (find? names name).or ((find? aliases name).or (find? aliases plain))

/-! ## UTF-8 -/

/-- What is wrong at a place in a text that should be UTF-8. -/
inductive Utf8Fault where
  /-- No character starts with this byte. -/
  | invalidStart (byte : UInt8)
  /-- The character that starts with this byte does not go on like this after so many bytes. -/
  | invalidContinuation (byte : UInt8) (there : Nat)
  /-- The text ends inside a character of which this many bytes are there. -/
  | unexpectedEnd (byte : UInt8) (there : Nat)
  deriving DecidableEq

/-- The ranges of the bytes that follow a first byte, or nothing if no character starts with it. -/
def continuations? (b : UInt8) : Option (List (UInt8 × UInt8)) :=
  let tail : UInt8 × UInt8 := (0x80, 0xBF)
  if b < 0x80 then some []
  else if b < 0xC2 then none
  else if b < 0xE0 then some [tail]
  else if b = 0xE0 then some [(0xA0, 0xBF), tail]
  else if b = 0xED then some [(0x80, 0x9F), tail]
  else if b < 0xF0 then some [tail, tail]
  else if b = 0xF0 then some [(0x90, 0xBF), tail, tail]
  else if b < 0xF4 then some [tail, tail, tail]
  else if b = 0xF4 then some [(0x80, 0x8F), tail, tail]
  else none

/-- The bytes at the start of a text that lie in the given ranges, one by one. -/
def takeTail : List (UInt8 × UInt8) → List UInt8 → List UInt8
  | (lo, hi) :: ranges, b :: rest => if lo ≤ b ∧ b ≤ hi then b :: takeTail ranges rest else []
  | _, _ => []

/-- The code point of a complete sequence. -/
def codePoint (first : UInt8) (tail : List UInt8) : Nat :=
  let start := match tail.length with
    | 0 => first.toNat
    | 1 => first.toNat % 0x20
    | 2 => first.toNat % 0x10
    | _ => first.toNat % 0x08
  tail.foldl (fun n b => n * 0x40 + b.toNat % 0x40) start

/-- Decodes the first character of a text: the character or the fault, and the number of bytes after
the first that belong to it. -/
def utf8Step (first : UInt8) (rest : List UInt8) : Except Utf8Fault Char × Nat :=
  match continuations? first with
  | none => (.error (.invalidStart first), 0)
  | some ranges =>
    let tail := takeTail ranges rest
    if tail.length = ranges.length then (.ok (Char.ofNat (codePoint first tail)), tail.length)
    else if tail.length = rest.length then
      (.error (.unexpectedEnd first (tail.length + 1)), tail.length)
    else (.error (.invalidContinuation first (tail.length + 1)), tail.length)

/-- Decodes UTF-8, with replacement characters for what is not well formed. -/
def decodeUtf8 : List UInt8 → List Char
  | [] => []
  | first :: rest =>
    let (c?, used) := utf8Step first rest
    (match c? with | .ok c => c | .error _ => replacement) :: decodeUtf8 (rest.drop used)
termination_by bytes => bytes.length
decreasing_by simp only [List.length_drop, List.length_cons]; omega

/-- The place and the kind of the first fault of a text that should be UTF-8. -/
def utf8Fault? (bytes : List UInt8) : Option (Nat × Utf8Fault) :=
  go 0 bytes
where
  go (position : Nat) : List UInt8 → Option (Nat × Utf8Fault)
    | [] => none
    | first :: rest =>
      match utf8Step first rest with
      | (.error fault, _) => some (position, fault)
      | (.ok _, used) => go (position + 1 + used) (rest.drop used)
  termination_by bytes => bytes.length
  decreasing_by simp only [List.length_drop, List.length_cons]; omega

/-! ## UTF-16 -/

/-- The 16-bit units of a text; a byte that is left over has none. -/
def units (bigEndian : Bool) : List UInt8 → List Nat × Bool
  | a :: b :: rest =>
    let unit := if bigEndian then a.toNat * 0x100 + b.toNat else b.toNat * 0x100 + a.toNat
    let (us, odd) := units bigEndian rest
    (unit :: us, odd)
  | [_] => ([], true)
  | [] => ([], false)

/-- The characters of units; `odd` says that a single byte follows the last unit. -/
def ofUnits16 (odd : Bool) : List Nat → List Char
  | [] => if odd then [replacement] else []
  | [u] =>
    if 0xD800 ≤ u ∧ u < 0xDC00 then [replacement]
    else (if 0xDC00 ≤ u ∧ u < 0xE000 then replacement else Char.ofNat u) ::
      (if odd then [replacement] else [])
  | u :: v :: rest =>
    if 0xD800 ≤ u ∧ u < 0xDC00 then
      if 0xDC00 ≤ v ∧ v < 0xE000 then
        Char.ofNat (0x10000 + (u - 0xD800) * 0x400 + (v - 0xDC00)) :: ofUnits16 odd rest
      else replacement :: ofUnits16 odd (v :: rest)
    else
      (if 0xDC00 ≤ u ∧ u < 0xE000 then replacement else Char.ofNat u) :: ofUnits16 odd (v :: rest)

/-! ## Decoding -/

/-- The text of bytes in a character set. -/
def decode (cs : Charset) (bytes : List UInt8) : List Char :=
  match cs with
  | utf8 => decodeUtf8 bytes
  | utf8Marked =>
    match bytes with
    | 0xEF :: 0xBB :: 0xBF :: rest => decodeUtf8 rest
    | _ => decodeUtf8 bytes
  | latin1 => bytes.map fun b => Char.ofNat b.toNat
  | ascii => bytes.map fun b => if b < 0x80 then Char.ofNat b.toNat else replacement
  | utf16 bigEndian =>
    let (us, odd) := units bigEndian bytes
    ofUnits16 odd us

end Charset

/-! ## Texts without bytes -/

/-- Surrogates in a text that should have bytes. -/
structure SurrogateFault where
  /-- The number of code points in front of them. -/
  position : Nat
  first : CodePoint
  /-- The surrogates right behind the first one. -/
  others : Nat
  deriving DecidableEq

/-- The wording of the fault. -/
def SurrogateFault.message (f : SurrogateFault) : String :=
  let number (n : Nat) : String := String.ofList (Nat.toDigits 10 n)
  let place :=
    if f.others = 0 then
      "character " ++ String.ofList (Text.quoted [f.first]) ++ " in position " ++ number f.position
    else "characters in position " ++ number f.position ++ "-" ++ number (f.position + f.others)
  "'utf-8' codec can't encode " ++ place ++ ": surrogates not allowed"

namespace Text

/-- Whether a code point is a surrogate. -/
def isSurrogate (point : CodePoint) : Bool := point.toChar?.isNone

/-- The first surrogates of a text that are not allowed. -/
def surrogateFault? (isAllowed : CodePoint → Bool) (t : Text) : Option SurrogateFault :=
  let isFine (point : CodePoint) : Bool := !isSurrogate point || isAllowed point
  match t.dropWhile isFine with
  | [] => none
  | first :: rest => some ⟨(t.takeWhile isFine).length, first, (rest.takeWhile isSurrogate).length⟩

end Text

end Treewalk
