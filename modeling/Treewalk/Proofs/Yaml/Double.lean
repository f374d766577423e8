import Treewalk.Proofs.Yaml.Escape

/-!
# Scalars between double quotes

Between double quotes any code point can stand, if need be as an escape, and a line may end anywhere
behind a backslash; another backslash protects a space at the start of the next line (`DoubleForm`).
Reading a form gives the text again (`doubleQuoted_form`).

What the writer adds is a form of the text (`writeDouble_adds`) unless a space is protected and the
line ends once more in front of it. Then the backslash that protects the space stands before the one
that ends the line, and the two are read as an escaped backslash. It takes lines that start past the
last column (`lastColumn`) and a space right behind an escape (`hasGuardedSpace`).
-/

namespace Treewalk.Yaml

open Text Cursor

/-- A character of a word between double quotes. -/
def isDoubleWord (x : Char) : Bool := !(x = '"' || x = '\\' || x = ' ' || x = '\t' || isBreak x)

/-- The written forms of a text between double quotes, without the quotes. -/
inductive DoubleForm : Text → List Char → Prop where
  | nil : DoubleForm [] []
  | word {w t cs} : w ≠ [] → (∀ c ∈ w, IsPrint c ∧ isDoubleWord c) →
    (∀ x ∈ cs.head?, isDoubleWord x = false) → DoubleForm t cs →
    DoubleForm (ofChars w ++ t) (w ++ cs)
  | spaces {t cs} (n : Nat) : StartsSolid cs → DoubleForm t cs →
    DoubleForm (ofChars (spaces (n + 1)) ++ t) (spaces (n + 1) ++ cs)
  | escape {t cs body} (p : CodePoint) : Escapes p body → DoubleForm t cs →
    DoubleForm (p :: t) ('\\' :: (body ++ cs))
  | fold {t cs} (n : Nat) : 0 < n → StartsSolid cs → DoubleForm t cs →
    DoubleForm t ('\\' :: '\n' :: (Yaml.spaces n ++ cs))

variable {column : Nat} {t : Text} {cs rest w : List Char} {c : Cursor} {x : Char}

theorem isDoubleWord_eq (h : IsPrint x) (hquote : x ≠ '"') (hslash : x ≠ '\\') (hspace : x ≠ ' ') :
    isDoubleWord x = true := by
  simp [isDoubleWord, hquote, hslash, hspace, h.ne_tab, h.isBreak_eq]

theorem escapes_space : Escapes (.char ' ') [' '] := by
  refine ⟨by simp, by decide, fun {c _ _} hc => ?_⟩
  have hpeek : c.peek = some ' ' := hc.peek_eq
  unfold readEscape
  rw [hpeek]
  rfl

namespace DoubleForm

/-- One character of a word, whatever follows it. -/
theorem char (hx : IsPrint x) (hword : isDoubleWord x) (h : DoubleForm t cs) :
    DoubleForm (.char x :: t) (x :: cs) := by
  have single : (∀ y ∈ cs.head?, isDoubleWord y = false) → DoubleForm (.char x :: t) (x :: cs) :=
    fun hcs => word (w := [x]) (by simp) (by simpa using ⟨hx, hword⟩) hcs h
  cases h with
  | @word w t cs hne hw hcs h =>
    exact word (w := x :: w) (by simp) (List.forall_mem_cons.mpr ⟨⟨hx, hword⟩, hw⟩) hcs h
  | nil => exact single nofun
  | spaces | escape | fold =>
    refine single ?_
    rintro y ⟨⟩
    decide

/-- One space. -/
theorem space (h : DoubleForm t cs) : DoubleForm (.char ' ' :: t) (' ' :: cs) := by
  have single : StartsSolid cs → DoubleForm (.char ' ' :: t) (' ' :: cs) :=
    fun hcs => spaces 0 hcs h
  cases h with
  | @spaces t cs n hcs h => exact spaces (n + 1) hcs h
  | nil => exact single nofun
  | @word w t cs hne hw =>
    obtain ⟨x, v, rfl⟩ := List.exists_cons_of_ne_nil hne
    obtain ⟨hx, hword⟩ := hw x List.mem_cons_self
    simp [isDoubleWord] at hword
    exact single (.cons hx hword.1.1.2 _)
  | escape | fold => exact single (.cons (by decide) (by decide) _)

/-- A space at the start of a line, which a backslash protects. -/
theorem guarded (hcolumn : 0 < column) (h : DoubleForm t cs) :
    DoubleForm (.char ' ' :: t) ('\\' :: '\n' :: (Yaml.spaces column ++ '\\' :: ' ' :: cs)) := by
  exact fold column hcolumn (.cons (by decide) (by decide) _) (escape _ escapes_space h)

/-- One character that needs no escape. -/
theorem plain (hx : IsPrint x) (hword : x ≠ ' ' → isDoubleWord x) (h : DoubleForm t cs) :
    DoubleForm (.char x :: t) (x :: cs) := by
  by_cases hspace : x = ' '
  · subst hspace
    exact h.space
  · exact h.char hx (hword hspace)

/-- A text that does not start with a space has no form that starts with one. -/
theorem startsSolid (h : DoubleForm t cs) (ht : t.head? ≠ some (.char ' ')) : StartsSolid cs := by
  cases h with
  | nil => exact nofun
  | @word w t cs hne hw =>
    obtain ⟨x, v, rfl⟩ := List.exists_cons_of_ne_nil hne
    refine .cons (hw x List.mem_cons_self).1 ?_ _
    rintro rfl
    exact ht rfl
  | spaces => exact absurd rfl ht
  | escape | fold => exact .cons (by decide) (by decide) _

end DoubleForm

/-! ## Reading -/

theorem doubleQuoted_part {part : Text} {next : Cursor} (hx : x ≠ '"') (hc : c.rest = x :: rest)
    (hpart : doublePart x c = .ok (part, next)) (hless : next.left < c.left) :
    doubleQuoted c = (doubleQuoted next).map fun more => (part ++ more.1, more.2) := by
  rw [doubleQuoted]
  split
  · next h => simp [hc] at h
  · next h =>
    rw [hc] at h
    exact absurd (List.cons.inj h).1 hx
  · next y _ _ h =>
    rw [hc] at h
    obtain ⟨rfl, -⟩ := List.cons.inj h
    show doublePart x c >>= _ = _
    rw [hpart]
    show (if next.left < c.left then _ else _) = _
    rw [if_pos hless]
    cases doubleQuoted next <;> rfl

theorem doubleQuoted_close (hc : c.rest = '"' :: rest) : doubleQuoted c = .ok ([], c.advance) := by
  rw [doubleQuoted]
  split
  · next h => simp [hc] at h
  · rfl
  · next h' h =>
    rw [hc] at h
    exact absurd (List.cons.inj h).1.symm h'

theorem doublePart_word (hx : isDoubleWord x) :
    doublePart x c = .ok (.ofChars (c.span isDoubleWord).1, (c.span isDoubleWord).2) := by
  simp [isDoubleWord] at hx
  unfold doublePart
  rw [if_neg hx.1.1.1.2, if_neg (by simp [hx])]
  rfl

theorem doublePart_space {n : Nat} {next : Cursor} (h : quotedGap c = .ok (spaces n, next)) :
    doublePart ' ' c = .ok (.ofChars (spaces n), next) := by
  unfold doublePart
  rw [if_neg (by decide), if_pos (by decide), h]
  rfl

/-- A backslash at the end of a line stands for nothing. -/
theorem readEscape_lineFeed {n : Nat} (hn : 0 < n)
    (h : c.Before ('\n' :: (spaces n ++ rest)) column) (hrest : StartsSolid rest) :
    ∃ c' column', readEscape c = .ok ([], c') ∧ c'.Before rest column' := by
  obtain ⟨c', column', heq, hc'⟩ :=
    quotedBreaks_lines (k := 0) hn [] h.advance_lineFeed hrest
  have hpeek : c.peek = some '\n' := h.peek_eq
  refine ⟨c', column', ?_, hc'⟩
  unfold readEscape
  rw [hpeek]
  dsimp only
  rw [h.lineBreak?_lineFeed]
  show quotedBreaks c.advance [] >>= _ = _
  rw [heq]
  rfl

/-- **The text of a written form is read back**, up to the closing quote. -/
theorem doubleQuoted_form (h : DoubleForm t cs) (hc : c.Before (cs ++ '"' :: rest) column) :
    ReadsQuoted doubleQuoted rest c t := by
  have hclose : StartsSolid ('"' :: rest) := .cons (by decide) (by decide) rest
  induction h generalizing c column with
  | nil =>
    obtain ⟨hnext, -⟩ := hc.advance (by decide)
    exact ⟨_, _, doubleQuoted_close hc.rest_eq, hnext⟩
  | @word w t cs hne hw hcs h ih =>
    have hword : c.Before (w ++ (cs ++ '"' :: rest)) column := by
      simpa only [List.append_assoc] using hc
    obtain ⟨hnext, -⟩ := hword.advanceBy fun x hx => (hw x hx).1
    obtain ⟨x, v, rfl⟩ := List.exists_cons_of_ne_nil hne
    have hx := (hw x List.mem_cons_self).2
    have hspan : c.span isDoubleWord = (x :: v, c.advanceBy (x :: v).length) := by
      refine span_eq hword.rest_eq (fun y hy => (hw y hy).2) ?_
      cases cs with
      | nil => simp [isDoubleWord]
      | cons y cs => exact hcs
    have hpart := doublePart_word (c := c) hx
    rw [hspan] at hpart
    have hquote : x ≠ '"' := by
      rintro rfl
      simp [isDoubleWord] at hx
    exact (ih hnext).part hword hnext (by simp) (doubleQuoted_part hquote hword.rest_eq hpart)
  | @spaces t cs n hcs h ih =>
    have hspaces : c.Before (spaces (n + 1) ++ (cs ++ '"' :: rest)) column := by
      simpa only [List.append_assoc] using hc
    obtain ⟨next, hgap, hnext⟩ := quotedGap_spaces (n + 1) hspaces (hcs.append hclose) (by simp)
    exact (ih hnext).part hspaces hnext (by simp)
      (doubleQuoted_part (by decide) hspaces.rest_eq (doublePart_space hgap))
  | @escape t cs body p hbody h ih =>
    have hslash : c.Before ('\\' :: (body ++ (cs ++ '"' :: rest))) column := by
      simpa only [List.append_assoc, List.cons_append] using hc
    obtain ⟨hafter, -⟩ := hslash.advance (by decide)
    obtain ⟨hnext, -⟩ := hafter.advanceBy hbody.2.1
    have hpart : doublePart '\\' c = .ok ([p], c.advance.advanceBy body.length) :=
      hbody.2.2 hafter
    exact (ih hnext).part hslash hnext (by simp)
      (doubleQuoted_part (by decide) hslash.rest_eq hpart)
  | @fold t cs n hn hcs h ih =>
    have hslash : c.Before ('\\' :: '\n' :: (spaces n ++ (cs ++ '"' :: rest))) column := by
      simpa only [List.append_assoc, List.cons_append] using hc
    obtain ⟨hafter, -⟩ := hslash.advance (by decide)
    obtain ⟨next, column', hread, hnext⟩ := readEscape_lineFeed hn hafter (hcs.append hclose)
    have hpart : doublePart '\\' c = .ok ([], next) := hread
    exact (ih hnext).part hslash hnext (by simp; omega)
      (doubleQuoted_part (by decide) hslash.rest_eq hpart)

/-! ## Both kinds of quotes -/

/-- The written forms of a text between quotes. -/
inductive QuotedForm : Text → List Char → Prop where
  | single {chars body} : SingleForm chars body →
    QuotedForm (ofChars chars) ('\'' :: (body ++ ['\'']))
  | double {t body} : DoubleForm t body → QuotedForm t ('"' :: (body ++ ['"']))

/-- **The text between quotes is read back.** -/
theorem readQuoted_form (h : QuotedForm t cs) (hc : c.Before (cs ++ rest) column)
    (hrest : rest.head? ≠ some '\'') :
    ∃ c' column', readQuoted c = .ok (t, c') ∧ c'.Before rest (column' + 1) := by
  cases h with
  | @single chars body h =>
    have hopen : c.Before ('\'' :: (body ++ '\'' :: rest)) column := by simpa using hc
    obtain ⟨hnext, -⟩ := hopen.advance (by decide)
    obtain ⟨c', column', heq, hc'⟩ := singleQuoted_form h hnext hrest
    refine ⟨c', column', ?_, hc'⟩
    unfold readQuoted
    rw [hopen.peek_eq, if_neg (by simp), heq]
    rfl
  | @double t body h =>
    have hopen : c.Before ('"' :: (body ++ '"' :: rest)) column := by simpa using hc
    obtain ⟨hnext, -⟩ := hopen.advance (by decide)
    obtain ⟨c', column', heq, hc'⟩ := doubleQuoted_form h hnext
    refine ⟨c', column', ?_, hc'⟩
    unfold readQuoted
    rw [hopen.peek_eq, if_pos (by rfl), heq]

/-! ## Writing -/

/-- Whether a text has a code point that needs an escape, then a space, and something behind it. -/
def hasGuardedSpace : Text → Bool
  | p :: q :: rest =>
    (needsEscape p && q = .char ' ' && !rest.isEmpty) || hasGuardedSpace (q :: rest)
  | _ => false

theorem hasGuardedSpace_cons {p : CodePoint} (h : hasGuardedSpace (p :: t) = false) :
    hasGuardedSpace t = false := by
  cases t with
  | nil => rfl
  | cons q t =>
    rw [hasGuardedSpace, Bool.or_eq_false_iff] at h
    exact h.2

section

variable (column : Nat) (fold : Bool)

/-- The end of a line behind a backslash. -/
def foldedLine (p : Pen) : Pen :=
  { (p.put ['\\']).indent column with spaced := false, indenting := false }

theorem foldedLine_adds {p : Pen} (hp : p.indenting = false) :
    p.Adds ('\\' :: '\n' :: spaces column) (foldedLine column p) ∧
      (foldedLine column p).column = column ∧ (foldedLine column p).indenting = false := by
  have hslash : (p.put ['\\']).indenting = false := hp
  obtain ⟨hline, hindents⟩ := Pen.indent_of_new_line column (.inl hslash)
  refine ⟨?_, hindents.column_eq, rfl⟩
  exact ((Pen.adds_put p (by decide)).trans hline).flags false false

/-- The end of a line in front of a space, which a backslash protects. -/
theorem guardedSpace_adds {p : Pen} (hp : p.indenting = false) :
    p.Adds ('\\' :: '\n' :: (spaces column ++ ['\\', ' ']))
      (((foldedLine column p).put ['\\']).put [' ']) := by
  obtain ⟨hline, -, -⟩ := foldedLine_adds column hp
  have hslash := (foldedLine column p).adds_char (by decide : IsPrint '\\')
  have hblank := ((foldedLine column p).put ['\\']).adds_char IsPrint.space
  exact ((hline.trans hslash).trans hblank).cast (by simp)

theorem foldDouble_eq (next : Option CodePoint) (p : Pen) :
    foldDouble column next p =
      if next = some (.char ' ') then (foldedLine column p).put ['\\'] else foldedLine column p :=
  rfl

variable {column}

theorem writeDouble_escape {p : CodePoint} (hp : needsEscape p = true) (isFirst afterEscape : Bool)
    (t : Text) (pen : Pen) :
    writeDouble column fold isFirst afterEscape (p :: t) pen =
      writeDouble column fold false true t
        (if fold && !isFirst && !t.isEmpty && lastColumn + 1 < (pen.put (escapeText p)).column then
          foldDouble column t.head? (pen.put (escapeText p))
        else pen.put (escapeText p)) := by
  rw [writeDouble]
  simp only [hp, if_true]

theorem writeDouble_char {p : CodePoint} (hp : needsEscape p = false) (isFirst afterEscape : Bool)
    (t : Text) (pen : Pen) :
    writeDouble column fold isFirst afterEscape (p :: t) pen =
      writeDouble column fold false false t
        ((if fold && !isFirst && !t.isEmpty && (p = .char ' ' || afterEscape) &&
            lastColumn < pen.column then foldDouble column (some p) pen
          else pen).put [p.display]) := by
  rw [writeDouble]
  simp only [hp, Bool.false_eq_true, if_false]

/-- A code point that needs no escape is a space or stands in a word. -/
theorem exists_char_of_needsEscape {p : CodePoint} (h : needsEscape p = false) :
    ∃ c, p = .char c ∧ IsPrint c ∧ (c ≠ ' ' → isDoubleWord c = true) := by
  cases p with
  | surrogate n => simp [needsEscape, CodePoint.isCharWith] at h
  | char c =>
    simp only [needsEscape, CodePoint.isCharWith, Bool.not_eq_false', Bool.and_eq_true,
      decide_eq_true_eq] at h
    obtain ⟨⟨⟨hquote, hslash⟩, hlow⟩, hhigh⟩ := h
    exact ⟨c, rfl, ⟨hlow, hhigh⟩, isDoubleWord_eq ⟨hlow, hhigh⟩ hquote hslash⟩

/-- Whether what a pen has added is a form of a text. -/
def AddsDouble (t : Text) (pen last : Pen) : Prop := ∃ cs, DoubleForm t cs ∧ pen.Adds cs last

variable {pen last : Pen}

theorem AddsDouble.escape {p : CodePoint} (h : AddsDouble t (pen.put (escapeText p)) last) :
    AddsDouble (p :: t) pen last := by
  obtain ⟨cs, hform, hadds⟩ := h
  obtain ⟨body, hbody, hescapes⟩ := exists_escapes p
  have hput : pen.Adds ('\\' :: body) (pen.put (escapeText p)) := by
    rw [hbody]
    exact Pen.adds_put pen (List.forall_mem_cons.mpr ⟨by decide, hescapes.2.1⟩)
  exact ⟨'\\' :: (body ++ cs), .escape p hescapes hform, hput.trans hadds⟩

theorem AddsDouble.char (h : AddsDouble t (pen.put [x]) last) (hx : IsPrint x)
    (hword : x ≠ ' ' → isDoubleWord x) : AddsDouble (.char x :: t) pen last := by
  obtain ⟨cs, hform, hadds⟩ := h
  exact ⟨x :: cs, hform.plain hx hword, (pen.adds_char hx).trans hadds⟩

/-- The line ends in front of a text that starts with no space. -/
theorem AddsDouble.endLine (h : AddsDouble t (foldedLine column pen) last) (hcolumn : 0 < column)
    (hpen : pen.indenting = false) (ht : t.head? ≠ some (.char ' ')) : AddsDouble t pen last := by
  obtain ⟨cs, hform, hadds⟩ := h
  obtain ⟨hline, -⟩ := foldedLine_adds column hpen
  exact ⟨'\\' :: '\n' :: (spaces column ++ cs),
    .fold column hcolumn (hform.startsSolid ht) hform, hline.trans hadds⟩

/-- The line ends in front of a space, which a backslash protects. -/
theorem AddsDouble.guarded
    (h : AddsDouble t (((foldedLine column pen).put ['\\']).put [' ']) last)
    (hcolumn : 0 < column) (hpen : pen.indenting = false) :
    AddsDouble (.char ' ' :: t) pen last := by
  obtain ⟨cs, hform, hadds⟩ := h
  exact ⟨_, hform.guarded hcolumn, ((guardedSpace_adds column hpen).trans hadds).cast (by simp)⟩

/-- Behind an escape the line does not end once more in front of a space that is protected. -/
theorem guardedSpace_stays {p : CodePoint} (hescape : needsEscape p = true)
    (hkept : column < lastColumn ∨ hasGuardedSpace (p :: .char ' ' :: t) = false)
    (hpen : pen.indenting = false) :
    (fold && !false && !t.isEmpty && (CodePoint.char ' ' = .char ' ' || true) &&
      lastColumn < ((foldedLine column pen).put ['\\']).column) = false := by
  have hput : ((foldedLine column pen).put ['\\']).column = column + 1 :=
    congrArg (· + 1) (foldedLine_adds column hpen).2.1
  rw [hput]
  rcases hkept with hkept | hkept
  · have hfits : ¬lastColumn < column + 1 := by omega
    simp [hfits]
  · simp only [hasGuardedSpace, hescape, decide_true, Bool.true_and, Bool.or_eq_false_iff,
      Bool.not_eq_false'] at hkept
    simp [hkept.1]

/-- **What the writer adds is a form of the text**, unless lines start past the last column and a
space stands right behind an escape. -/
theorem writeDouble_adds (hcolumn : 0 < column) (isFirst afterEscape : Bool)
    (hkept : column < lastColumn ∨ hasGuardedSpace (if isFirst then t.tail else t) = false)
    (pen : Pen) (hpen : pen.indenting = false) :
    AddsDouble t pen (writeDouble column fold isFirst afterEscape t pen) := by
  induction hn : t.length using Nat.strongRecOn generalizing t isFirst afterEscape pen with
  | _ n ih =>
    cases t with
    | nil => exact ⟨[], .nil, .refl pen⟩
    | cons p t =>
      have hless : t.length < n := by rw [← hn]; exact Nat.lt_succ_self _
      have hkept' : column < lastColumn ∨ hasGuardedSpace t = false := by
        refine hkept.imp_right fun h => ?_
        cases isFirst with
        | true => exact h
        | false => exact hasGuardedSpace_cons h
      cases hescape : needsEscape p with
      | true =>
        rw [writeDouble_escape fold hescape]
        refine .escape ?_
        split
        · next hfold =>
          rw [foldDouble_eq]
          have hescaped : (pen.put (escapeText p)).indenting = false := hpen
          by_cases hspace : t.head? = some (.char ' ')
          · obtain ⟨t, rfl⟩ : ∃ u, t = .char ' ' :: u := List.head?_eq_some_iff.mp hspace
            obtain rfl : isFirst = false := by simp_all
            have hnext : needsEscape (.char ' ') = false := by decide
            have hstay := guardedSpace_stays fold hescape hkept hescaped
            rw [if_pos hspace, writeDouble_char fold hnext, if_neg (Bool.eq_false_iff.mp hstay)]
            exact (ih t.length (by simp at hless; omega) false false
              (hkept'.imp_right hasGuardedSpace_cons) _ rfl rfl).guarded hcolumn hescaped
          · rw [if_neg hspace]
            exact (ih _ hless false true hkept' _ rfl rfl).endLine hcolumn hescaped hspace
        · exact ih _ hless false true hkept' _ hpen rfl
      | false =>
        obtain ⟨x, rfl, hx, hword⟩ := exists_char_of_needsEscape hescape
        rw [writeDouble_char fold hescape]
        split
        · -- The line ends in front of the code point.
          rw [foldDouble_eq]
          by_cases hspace : some (CodePoint.char x) = some (.char ' ')
          · obtain rfl : x = ' ' := by simpa using hspace
            rw [if_pos hspace]
            exact (ih _ hless false false hkept' _ rfl rfl).guarded hcolumn hpen
          · rw [if_neg hspace]
            have hrest := ih _ hless false false hkept' ((foldedLine column pen).put [x]) rfl rfl
            exact (hrest.char hx hword).endLine hcolumn hpen hspace
        · exact (ih _ hless false false hkept' (pen.put [x]) hpen rfl).char hx hword

end

end Treewalk.Yaml
