import Treewalk.Yaml.Cursor

/-!
# Going through a text

Where a cursor stands after it has gone over printable characters of ASCII, spaces and line feeds.
Written texts hold no other characters, so none of the other line breaks and no byte order mark has
to be thought of.
-/

namespace Treewalk.Yaml

/-- Whether a character is printable and in ASCII. -/
def IsPrint (c : Char) : Prop := ' ' ≤ c ∧ c ≤ '~'

instance (c : Char) : Decidable (IsPrint c) := inferInstanceAs (Decidable (_ ∧ _))

/-- What is said of all characters of a text is decided by going through the text, and not through
all the characters that there are. -/
instance decidableForallMem (cs : List Char) (p : Char → Prop) [DecidablePred p] :
    Decidable (∀ c ∈ cs, p c) :=
  List.decidableBAll p cs

/-- The spaces in front of what is indented by a number of columns. -/
abbrev spaces (n : Nat) : List Char := List.replicate n ' '

namespace IsPrint

variable {c : Char}

theorem ne (h : IsPrint c) {d : Char} (hd : ¬IsPrint d) : c ≠ d := by
  rintro rfl
  exact hd h

theorem isBreak_eq (h : IsPrint c) : isBreak c = false := by
  simp only [isBreak, decide_eq_false (h.ne (by decide : ¬IsPrint '\n')),
    decide_eq_false (h.ne (by decide : ¬IsPrint '\r')),
    decide_eq_false (h.ne (by decide : ¬IsPrint '\x85')),
    decide_eq_false (h.ne (by decide : ¬IsPrint '\u2028')),
    decide_eq_false (h.ne (by decide : ¬IsPrint '\u2029')), Bool.or_self]

theorem ne_tab (h : IsPrint c) : c ≠ '\t' := h.ne (by decide)

theorem space : IsPrint ' ' := by decide

end IsPrint

/-- Whether some characters start with none that ends a line. -/
def StartsPrinted (cs : List Char) : Prop := ∀ x ∈ cs.head?, IsPrint x

/-- Whether some characters start with none that may be skipped. -/
def StartsSolid (cs : List Char) : Prop := ∀ x ∈ cs.head?, IsPrint x ∧ x ≠ ' '

theorem StartsSolid.startsPrinted {cs : List Char} (h : StartsSolid cs) : StartsPrinted cs :=
  fun x hx => (h x hx).1

theorem StartsSolid.cons {x : Char} (hx : IsPrint x) (hspace : x ≠ ' ') (cs : List Char) :
    StartsSolid (x :: cs) := by
  rintro _ ⟨⟩
  exact ⟨hx, hspace⟩

theorem StartsSolid.append {cs rest : List Char} (h : StartsSolid cs) (hrest : StartsSolid rest) :
    StartsSolid (cs ++ rest) := by
  cases cs with
  | nil => exact hrest
  | cons x cs => exact h

namespace Cursor

/-- Whether a cursor stands at a column in front of what is left of a text. -/
structure Before (c : Cursor) (rest : List Char) (column : Nat) : Prop where
  rest_eq : c.rest = rest
  left_eq : c.left = rest.length
  column_eq : c.column = column

/-- Whether a cursor stands a number of characters further on the line of another one. -/
structure Further (c : Cursor) (n : Nat) (c' : Cursor) : Prop where
  line_eq : c'.line = c.line
  index_eq : c'.index = c.index + n

variable {c : Cursor} {x : Char} {run rest : List Char} {column : Nat}

namespace Before

theorem peek_eq (h : c.Before rest column) : c.peek = rest.head? := by
  rw [peek, h.rest_eq]

theorem peekAt_eq (h : c.Before rest column) (n : Nat) : c.peekAt n = rest[n]? := by
  rw [peekAt, h.rest_eq]

/-- One printable character. -/
theorem advance (h : c.Before (x :: rest) column) (hx : IsPrint x) :
    c.advance.Before rest (column + 1) ∧ c.Further 1 c.advance := by
  obtain ⟨crest, left, index, line, ccolumn⟩ := c
  obtain ⟨rfl, rfl, rfl⟩ := h
  have hadvance : Cursor.advance ⟨x :: rest, (x :: rest).length, index, line, ccolumn⟩ =
      ⟨rest, rest.length, index + 1, line, ccolumn + 1⟩ := by
    simp [Cursor.advance, hx.ne (by decide : ¬IsPrint '\n'), hx.ne (by decide : ¬IsPrint '\r'),
      hx.ne (by decide : ¬IsPrint '\x85'), hx.ne (by decide : ¬IsPrint '\u2028'),
      hx.ne (by decide : ¬IsPrint '\u2029'), hx.ne (by decide : ¬IsPrint byteOrderMark)]
  rw [hadvance]
  exact ⟨⟨rfl, rfl, rfl⟩, ⟨rfl, rfl⟩⟩

/-- A line feed. -/
theorem advance_lineFeed (h : c.Before ('\n' :: rest) column) : c.advance.Before rest 0 := by
  obtain ⟨crest, left, index, line, ccolumn⟩ := c
  obtain ⟨rfl, rfl, rfl⟩ := h
  exact ⟨rfl, rfl, rfl⟩

/-- A place that ends no line. -/
theorem lineBreak?_eq_none (h : c.Before rest column) (hrest : StartsPrinted rest) :
    c.lineBreak? = none := by
  unfold lineBreak?
  rw [h.rest_eq]
  cases rest with
  | nil => rfl
  | cons x rest =>
    have hx : isBreak x = false := (hrest x rfl).isBreak_eq
    simp [isBreak] at hx
    simp [hx]

theorem lineBreak?_lineFeed (h : c.Before ('\n' :: rest) column) :
    c.lineBreak? = some (['\n'], c.advance) := by
  unfold lineBreak?
  rw [h.rest_eq]
  rfl

/-- A run of printable characters. -/
theorem advanceBy (h : c.Before (run ++ rest) column) (hrun : ∀ x ∈ run, IsPrint x) :
    (c.advanceBy run.length).Before rest (column + run.length) ∧
      c.Further run.length (c.advanceBy run.length) := by
  induction run generalizing c column with
  | nil => exact ⟨h, ⟨rfl, rfl⟩⟩
  | cons x run ih =>
    obtain ⟨hx, hrun⟩ := List.forall_mem_cons.mp hrun
    obtain ⟨hbefore, hfurther⟩ := h.advance hx
    obtain ⟨hbefore', hfurther'⟩ := ih hbefore hrun
    refine ⟨?_, ⟨hfurther'.line_eq.trans hfurther.line_eq, ?_⟩⟩
    · rw [List.length_cons, Nat.add_comm run.length, ← Nat.add_assoc]
      rw [Nat.add_comm 1]
      exact hbefore'
    · rw [List.length_cons, Nat.add_comm run.length, ← Nat.add_assoc, ← hfurther.index_eq]
      rw [Nat.add_comm 1]
      exact hfurther'.index_eq

end Before

/-- A run of characters with a property, up to one without it. -/
theorem span_eq {p : Char → Bool} (hc : c.rest = run ++ rest) (hrun : ∀ x ∈ run, p x)
    (hrest : ∀ x ∈ rest.head?, p x = false) : c.span p = (run, c.advanceBy run.length) := by
  have htake : c.rest.takeWhile p = run := by
    rw [hc, List.takeWhile_append_of_pos hrun]
    cases rest with
    | nil => simp
    | cons x rest =>
      rw [List.takeWhile_cons_of_neg (by simp [hrest x rfl]), List.append_nil]
  rw [span, htake]

theorem span_nil {p : Char → Bool} (hc : c.rest = rest) (hrest : ∀ x ∈ rest.head?, p x = false) :
    c.span p = ([], c) :=
  span_eq (show c.rest = [] ++ rest from hc) nofun hrest

end Cursor

end Treewalk.Yaml
