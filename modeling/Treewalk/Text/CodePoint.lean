/-!
# Code points and texts

A text is a list of code points. Nearly all of them are characters. The others are the surrogates,
which stand for no character by themselves; they come into a text through escapes that give a code
point by its number.

Texts are kept, shown and written with their surrogates. Only where nothing but characters will do
are they given up: `Text.toChars` is what is displayed of a text, and `Text.toChars?` are its
characters if it has no surrogates. The two agree on the texts made of characters
(`Text.toChars_ofChars`).

A text that grows at its end is a `Text.Buffer`: adding a piece takes no longer the more there is
already.
-/

namespace Treewalk

/-- A code point. -/
inductive CodePoint where
  | char (c : Char)
  /-- The surrogate whose number is `0xD800 + n`. -/
  | surrogate (n : Fin 0x800)
  deriving DecidableEq

/-- A text. -/
abbrev Text := List CodePoint

namespace CodePoint

instance : Coe Char CodePoint := ⟨char⟩

/-- The number of the first surrogate. -/
def firstSurrogate : Nat := 0xD800

/-- The number of a code point. -/
def toNat : CodePoint → Nat
  | char c => c.toNat
  | surrogate n => firstSurrogate + n

/-- The code point with a number. -/
def ofNat (n : Nat) : CodePoint :=
  if h : firstSurrogate ≤ n ∧ n - firstSurrogate < 0x800 then surrogate ⟨n - firstSurrogate, h.2⟩
  else char (Char.ofNat n)

/-- The character that is displayed for a code point; a surrogate shows as the replacement
character. -/
def display : CodePoint → Char
  | char c => c
  | surrogate _ => '\uFFFD'

/-- The character that a code point is, if it is one. -/
def toChar? : CodePoint → Option Char
  | char c => some c
  | surrogate _ => none

/-- Whether a code point is a character with a property. -/
def isCharWith (p : Char → Bool) : CodePoint → Bool
  | char c => p c
  | surrogate _ => false

/-- The code point whose character is changed; a surrogate stays as it is. -/
def mapChar (f : Char → Char) : CodePoint → CodePoint
  | char c => char (f c)
  | surrogate n => surrogate n

end CodePoint

namespace Text

/-- The text of a list of characters. -/
def ofChars (cs : List Char) : Text := cs.map .char

/-- The text of a string. -/
def ofString (s : String) : Text := ofChars s.toList

instance : Coe String Text := ⟨ofString⟩

/-- The texts with `separator` between each two of them. -/
def join (separator : Text) (texts : List Text) : Text := separator.intercalate texts

/-- The characters that are displayed for a text. -/
def toChars (t : Text) : List Char := t.map CodePoint.display

/-- The string that is displayed for a text. -/
def display (t : Text) : String := String.ofList t.toChars

/-- The characters of a text without surrogates. -/
def toChars? (t : Text) : Option (List Char) := t.mapM CodePoint.toChar?

/-- Whether a text starts with a minus sign, and what follows its sign. -/
def takeSign : Text → Bool × Text
  | .char '-' :: rest => (true, rest)
  | .char '+' :: rest => (false, rest)
  | t => (false, t)

/-- The string of a text without surrogates. -/
def toString? (t : Text) : Option String := t.toChars?.map String.ofList

/-- Characters are displayed as themselves. -/
@[simp]
theorem toChars_ofChars (cs : List Char) : (ofChars cs).toChars = cs := by
  induction cs with
  | nil => rfl
  | cons c rest ih => simp_all [ofChars, toChars, CodePoint.display]

/-- A text made of characters has them as its characters. -/
@[simp]
theorem toChars?_ofChars (cs : List Char) : (ofChars cs).toChars? = some cs := by
  induction cs with
  | nil => rfl
  | cons c rest ih => simp_all [ofChars, toChars?, CodePoint.toChar?]

/-- Different lists of characters give different texts. -/
theorem ofChars_inj {cs ds : List Char} : ofChars cs = ofChars ds ↔ cs = ds :=
  ⟨fun h => by simpa using congrArg toChars h, congrArg ofChars⟩

/-- Different strings give different texts. -/
theorem ofString_inj {s t : String} : ofString s = ofString t ↔ s = t := by
  rw [ofString, ofString, ofChars_inj, String.toList_inj]

/-- A text made of a string has it as its string. -/
@[simp]
theorem toString?_ofString (s : String) : (ofString s).toString? = some s := by
  simp [toString?, ofString]

/-! ## Growing texts -/

/-- A text that grows at its end. -/
structure Buffer where
  /-- The pieces that were added, the last one first. -/
  pieces : List Text

namespace Buffer

/-- The empty text. -/
def empty : Buffer := ⟨[]⟩

/-- Adds a piece. -/
def push (piece : Text) (b : Buffer) : Buffer := ⟨piece :: b.pieces⟩

/-- The whole text. -/
def toText (b : Buffer) : Text := b.pieces.reverse.flatten

@[simp]
theorem toText_empty : empty.toText = [] := rfl

/-- A new piece comes last. -/
@[simp]
theorem toText_push (piece : Text) (b : Buffer) : (b.push piece).toText = b.toText ++ piece := by
  simp [push, toText]

end Buffer

end Text

end Treewalk
