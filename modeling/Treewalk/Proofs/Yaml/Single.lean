import Treewalk.Proofs.Yaml.Plain

/-!
# Scalars between single quotes

Between single quotes a quote is doubled, a run of line feeds gets one more, and at a single space
the line may end instead (`SingleForm`). What the writer adds is such a form of the text
(`writeSingle_adds`), and reading a form gives the text again (`singleQuoted_form`).

Blanks next to a line end are lost, and so a line starts with indentation only where none of the
text's own blanks would follow it.
-/

namespace Treewalk.Yaml

open Cursor

/-- The line feeds of so many empty lines. -/
abbrev lineFeeds (n : Nat) : List Char := List.replicate n '\n'

/-- A character of a word between single quotes. -/
def isSingleWord (x : Char) : Bool := !(x = '\'' || x = ' ' || x = '\t' || isBreak x)

/-- The written forms of a text between single quotes, without the quotes. -/
inductive SingleForm : List Char → List Char → Prop where
  | nil : SingleForm [] []
  | word {w t cs} : w ≠ [] → (∀ c ∈ w, IsPrint c ∧ isSingleWord c) →
    (∀ x ∈ cs.head?, isSingleWord x = false) → SingleForm t cs → SingleForm (w ++ t) (w ++ cs)
  | quote {t cs} : SingleForm t cs → SingleForm ('\'' :: t) ('\'' :: '\'' :: cs)
  | spaces {t cs} (n : Nat) : StartsSolid cs → SingleForm t cs →
    SingleForm (spaces (n + 1) ++ t) (spaces (n + 1) ++ cs)
  | fold {t cs} (n : Nat) : 0 < n → StartsSolid cs → SingleForm t cs →
    SingleForm (' ' :: t) ('\n' :: (spaces n ++ cs))
  | lines {t cs} (k n : Nat) : 0 < n → StartsSolid cs → SingleForm t cs →
    SingleForm (lineFeeds (k + 1) ++ t) ('\n' :: (lineFeeds (k + 1) ++ (spaces n ++ cs)))

variable {column : Nat} {t cs rest w : List Char} {c : Cursor} {x : Char}

theorem isSingleWord_eq (h : IsPrint x) (hquote : x ≠ '\'') (hspace : x ≠ ' ') :
    isSingleWord x = true := by
  simp [isSingleWord, hquote, hspace, h.ne_tab, h.isBreak_eq]

theorem ne_of_isSingleWord (h : isSingleWord x) : x ≠ '\'' ∧ x ≠ ' ' := by
  simp [isSingleWord] at h
  exact ⟨h.1.1.1, h.1.1.2⟩

namespace SingleForm

/-- One character of a word, whatever follows it. -/
theorem char (hx : IsPrint x) (hquote : x ≠ '\'') (hspace : x ≠ ' ') (h : SingleForm t cs) :
    SingleForm (x :: t) (x :: cs) := by
  have hword := isSingleWord_eq hx hquote hspace
  have single : (∀ y ∈ cs.head?, isSingleWord y = false) → SingleForm (x :: t) (x :: cs) :=
    fun hcs => word (w := [x]) (by simp) (by simpa using ⟨hx, hword⟩) hcs h
  cases h with
  | @word w t cs hne hw hcs h =>
    exact word (w := x :: w) (by simp) (List.forall_mem_cons.mpr ⟨⟨hx, hword⟩, hw⟩) hcs h
  | nil => exact single nofun
  | quote | spaces | fold | lines =>
    refine single ?_
    rintro y ⟨⟩
    decide

/-- One space, if no line ends behind it. -/
theorem space (h : SingleForm t cs) (hcs : StartsPrinted cs) :
    SingleForm (' ' :: t) (' ' :: cs) := by
  have single : StartsSolid cs → SingleForm (' ' :: t) (' ' :: cs) := fun hcs => spaces 0 hcs h
  cases h with
  | @spaces t cs n hcs' h => exact spaces (n + 1) hcs' h
  | nil => exact single nofun
  | @word w t cs hne hw =>
    obtain ⟨x, v, rfl⟩ := List.exists_cons_of_ne_nil hne
    obtain ⟨hx, hword⟩ := hw x List.mem_cons_self
    exact single (.cons hx (ne_of_isSingleWord hword).2 _)
  | quote => exact single (.cons (by decide) (by decide) _)
  | fold | lines => exact absurd (hcs '\n' rfl) (by decide)

/-- A text that does not start with a blank has no form that starts with one. -/
theorem startsSolid (h : SingleForm t cs) (ht : ∀ x ∈ t.head?, x ≠ ' ' ∧ x ≠ '\n') :
    StartsSolid cs := by
  cases h with
  | nil => exact nofun
  | @word w t cs hne hw =>
    obtain ⟨x, v, rfl⟩ := List.exists_cons_of_ne_nil hne
    exact .cons (hw x List.mem_cons_self).1 (ht x rfl).1 _
  | quote => exact .cons (by decide) (by decide) _
  | spaces | fold => exact absurd rfl (ht ' ' rfl).1
  | lines => exact absurd rfl (ht '\n' rfl).2

end SingleForm

/-! ## Blanks between quotes -/

/-- A blank between quotes. -/
def isQuotedBlank (x : Char) : Bool := x = ' ' || x = '\t'

theorem isQuotedBlank_eq_false {x : Char} (h : IsPrint x) (hx : x ≠ ' ') :
    isQuotedBlank x = false := by
  simp [isQuotedBlank, h.ne_tab, hx]

theorem span_spaces (n : Nat) (h : c.Before (spaces n ++ rest) column) (hrest : StartsSolid rest) :
    ∃ c', c.span isQuotedBlank = (spaces n, c') ∧ c'.Before rest (column + n) := by
  obtain ⟨hafter, -⟩ := h.advanceBy Pen.isPrint_spaces
  refine ⟨_, span_eq h.rest_eq (fun x hx => ?_) fun x hx => ?_, by simpa using hafter⟩
  · simp [isQuotedBlank, List.eq_of_mem_replicate hx]
  · exact isQuotedBlank_eq_false (hrest x hx).1 (hrest x hx).2

theorem not_atDocumentMark_lineFeed (h : c.Before ('\n' :: rest) column) :
    c.atDocumentMark = false := by
  unfold atDocumentMark
  rw [h.rest_eq]
  rfl

theorem quotedBreaks_eq (breaks : List Char) :
    quotedBreaks c breaks =
      if c.atDocumentMark then .error .malformed
      else
        match (c.span isQuotedBlank).2.lineBreak? with
        | none => .ok (breaks, (c.span isQuotedBlank).2)
        | some (br, next) =>
          if next.left < c.left then quotedBreaks next (breaks ++ br)
          else .ok (breaks, (c.span isQuotedBlank).2) := by
  rw [quotedBreaks]
  rfl

/-- Empty lines, and the spaces at the start of a line. -/
theorem quotedBreaks_lines (k : Nat) {n : Nat} (hn : 0 < n) (breaks : List Char)
    (h : c.Before (lineFeeds k ++ (spaces n ++ rest)) column) (hrest : StartsSolid rest) :
    ∃ c' column', quotedBreaks c breaks = .ok (breaks ++ lineFeeds k, c') ∧
      c'.Before rest column' := by
  induction k generalizing c column breaks with
  | zero =>
    obtain ⟨c', hspan, hc'⟩ := span_spaces n h hrest
    have hbreak := hc'.lineBreak?_eq_none hrest.startsPrinted
    rw [quotedBreaks_eq, not_atDocumentMark_spaces hn h, if_neg Bool.false_ne_true, hspan]
    dsimp only
    rw [hbreak]
    exact ⟨c', _, by simp, hc'⟩
  | succ k ih =>
    have hcons : c.Before ('\n' :: (lineFeeds k ++ (spaces n ++ rest))) column := h
    have hspan : c.span isQuotedBlank = ([], c) :=
      span_nil hcons.rest_eq (by simp [isQuotedBlank])
    have hnext := hcons.advance_lineFeed
    have hless : c.advance.left < c.left := by
      rw [hnext.left_eq, hcons.left_eq]
      exact Nat.lt_succ_self _
    obtain ⟨c', column', heq, hc'⟩ := ih (breaks ++ ['\n']) hnext
    rw [quotedBreaks_eq, not_atDocumentMark_lineFeed hcons, if_neg Bool.false_ne_true, hspan]
    dsimp only
    rw [hcons.lineBreak?_lineFeed]
    dsimp only
    rw [if_pos hless, heq]
    exact ⟨c', column', by simp [List.replicate_succ], hc'⟩

theorem quotedGap_eq :
    quotedGap c =
      if (c.span isQuotedBlank).2.peek.isNone then .error .malformed
      else
        match (c.span isQuotedBlank).2.lineBreak? with
        | none => .ok (c.span isQuotedBlank)
        | some (br, next) =>
          (quotedBreaks next []).map fun further => (foldBreaks br further.1, further.2) := by
  rw [quotedGap]
  show (if (c.span isQuotedBlank).2.peek.isNone then _ else _) = _
  split
  · rfl
  · show (match (c.span isQuotedBlank).2.lineBreak? with | none => _ | some (br, next) => _) = _
    split
    · rfl
    · next br next _ => cases quotedBreaks next [] <;> rfl

/-- Spaces between two words on one line. -/
theorem quotedGap_spaces (n : Nat) (h : c.Before (spaces n ++ rest) column)
    (hrest : StartsSolid rest) (hne : rest ≠ []) :
    ∃ c', quotedGap c = .ok (spaces n, c') ∧ c'.Before rest (column + n) := by
  obtain ⟨c', hspan, hc'⟩ := span_spaces n h hrest
  have hbreak := hc'.lineBreak?_eq_none hrest.startsPrinted
  have hpeek : c'.peek.isNone = false := by
    rw [hc'.peek_eq]
    cases rest with
    | nil => exact absurd rfl hne
    | cons => rfl
  rw [quotedGap_eq, hspan]
  dsimp only
  rw [hpeek, if_neg Bool.false_ne_true, hbreak]
  exact ⟨c', rfl, hc'⟩

/-- The end of a line with empty lines behind it, and the spaces at the start of the next one. -/
theorem quotedGap_lines (k : Nat) {n : Nat} (hn : 0 < n)
    (h : c.Before ('\n' :: (lineFeeds k ++ (spaces n ++ rest))) column) (hrest : StartsSolid rest) :
    ∃ c' column', quotedGap c = .ok (foldBreaks ['\n'] (lineFeeds k), c') ∧
      c'.Before rest column' := by
  have hspan : c.span isQuotedBlank = ([], c) :=
    span_nil h.rest_eq (by simp [isQuotedBlank])
  obtain ⟨c', column', heq, hc'⟩ := quotedBreaks_lines k hn [] h.advance_lineFeed hrest
  rw [quotedGap_eq, hspan]
  dsimp only
  rw [h.peek_eq, if_neg (by simp), h.lineBreak?_lineFeed]
  dsimp only
  rw [heq]
  exact ⟨c', column', rfl, hc'⟩

/-! ## Reading -/

section

variable {α : Type} {read : Cursor → Except YamlFault (List α × Cursor)} {u w : List α}

/-- Whether a reader gives a text, and stops behind the closing quote. -/
def ReadsQuoted (read : Cursor → Except YamlFault (List α × Cursor)) (rest : List Char) (c : Cursor)
    (u : List α) : Prop :=
  ∃ c' column, read c = .ok (u, c') ∧ c'.Before rest (column + 1)

/-- A part is read, and then the text behind it. -/
theorem ReadsQuoted.part {after behind : List Char} {next : Cursor} {column' : Nat}
    (h : ReadsQuoted read rest next u) (hc : c.Before (x :: after) column)
    (hnext : next.Before behind column') (hshorter : behind.length ≤ after.length)
    (hread : next.left < c.left →
      read c = (read next).map fun more => (w ++ more.1, more.2)) :
    ReadsQuoted read rest c (w ++ u) := by
  obtain ⟨c', column', heq, hc'⟩ := h
  have hless : next.left < c.left := by
    rw [hnext.left_eq, hc.left_eq]
    exact Nat.lt_succ_of_le hshorter
  refine ⟨c', column', ?_, hc'⟩
  rw [hread hless, heq]
  rfl

end

/-- The next part between single quotes, which starts with a character that is no quote. -/
def singlePart (x : Char) (c : Cursor) : Except YamlFault (List Char × Cursor) :=
  if x = ' ' || x = '\t' || isBreak x then quotedGap c else .ok (c.span isSingleWord)

theorem singlePart_word (hx : isSingleWord x) : singlePart x c = .ok (c.span isSingleWord) := by
  simp [isSingleWord] at hx
  unfold singlePart
  simp [hx]

theorem singleQuoted_part {part : List Char} {next : Cursor} (hx : x ≠ '\'')
    (hc : c.rest = x :: rest)
    (hpart : singlePart x c = .ok (part, next)) (hless : next.left < c.left) :
    singleQuoted c = (singleQuoted next).map fun more => (part ++ more.1, more.2) := by
  rw [singleQuoted]
  split
  · next h => simp [hc] at h
  · next h =>
    rw [hc] at h
    exact absurd (List.cons.inj h).1 hx
  · next h =>
    rw [hc] at h
    exact absurd (List.cons.inj h).1 hx
  · next y _ _ _ h =>
    rw [hc] at h
    obtain ⟨rfl, -⟩ := List.cons.inj h
    show singlePart x c >>= _ = _
    rw [hpart]
    show (if next.left < c.left then _ else _) = _
    rw [if_pos hless]
    cases singleQuoted next <;> rfl

theorem singleQuoted_close (hc : c.rest = '\'' :: rest) (hrest : rest.head? ≠ some '\'') :
    singleQuoted c = .ok ([], c.advance) := by
  rw [singleQuoted]
  split
  · next h => simp [hc] at h
  · next h =>
    rw [hc] at h
    exact absurd (congrArg List.head? (List.cons.inj h).2) hrest
  · rfl
  · next hno h =>
    rw [hc] at h
    exact absurd (List.cons.inj h).1.symm hno

theorem singleQuoted_quote (hc : c.Before ('\'' :: '\'' :: rest) column) :
    singleQuoted c = (singleQuoted (c.advanceBy 2)).map fun more => ('\'' :: more.1, more.2) := by
  have hquotes : c.Before (['\'', '\''] ++ rest) column := hc
  obtain ⟨hnext, -⟩ : (c.advanceBy 2).Before rest (column + 2) ∧ _ := hquotes.advanceBy (by decide)
  have hless : (c.advanceBy 2).left < c.left := by
    rw [hnext.left_eq, hc.left_eq]
    simp only [List.length_cons]
    omega
  rw [singleQuoted, hc.rest_eq]
  dsimp only
  rw [if_pos hless]
  cases singleQuoted (c.advanceBy 2) <;> rfl

/-- **The text of a written form is read back**, up to the closing quote. -/
theorem singleQuoted_form (h : SingleForm t cs) (hc : c.Before (cs ++ '\'' :: rest) column)
    (hrest : rest.head? ≠ some '\'') : ReadsQuoted singleQuoted rest c t := by
  have hclose : StartsSolid ('\'' :: rest) := .cons (by decide) (by decide) rest
  induction h generalizing c column with
  | nil =>
    obtain ⟨hnext, -⟩ := hc.advance (by decide)
    exact ⟨_, _, singleQuoted_close hc.rest_eq hrest, hnext⟩
  | @word w t cs hne hw hcs h ih =>
    have hword : c.Before (w ++ (cs ++ '\'' :: rest)) column := by
      simpa only [List.append_assoc] using hc
    obtain ⟨hnext, -⟩ := hword.advanceBy fun x hx => (hw x hx).1
    obtain ⟨x, v, rfl⟩ := List.exists_cons_of_ne_nil hne
    have hx := (hw x List.mem_cons_self).2
    have hspan : c.span isSingleWord = (x :: v, c.advanceBy (x :: v).length) := by
      refine span_eq hword.rest_eq (fun y hy => (hw y hy).2) ?_
      cases cs with
      | nil => simp [isSingleWord]
      | cons y cs => exact hcs
    have hpart := singlePart_word (c := c) hx
    rw [hspan] at hpart
    exact (ih hnext).part hword hnext (by simp)
      (singleQuoted_part (ne_of_isSingleWord hx).1 hword.rest_eq hpart)
  | @quote t cs h ih =>
    have hquote : c.Before (['\'', '\''] ++ (cs ++ '\'' :: rest)) column := hc
    obtain ⟨hnext, -⟩ := hquote.advanceBy (by decide)
    exact (ih hnext).part (w := ['\'']) hquote hnext (by simp) fun _ => singleQuoted_quote hc
  | @spaces t cs n hcs h ih =>
    have hspaces : c.Before (spaces (n + 1) ++ (cs ++ '\'' :: rest)) column := by
      simpa only [List.append_assoc] using hc
    obtain ⟨next, hgap, hnext⟩ := quotedGap_spaces (n + 1) hspaces (hcs.append hclose) (by simp)
    exact (ih hnext).part hspaces hnext (by simp)
      (singleQuoted_part (by decide) hspaces.rest_eq hgap)
  | @fold t cs n hn hcs h ih =>
    have hline : c.Before ('\n' :: (lineFeeds 0 ++ (spaces n ++ (cs ++ '\'' :: rest)))) column := by
      simpa using hc
    obtain ⟨next, column', hgap, hnext⟩ := quotedGap_lines 0 hn hline (hcs.append hclose)
    exact (ih hnext).part hline hnext (by simp)
      (singleQuoted_part (by decide) hline.rest_eq hgap)
  | @lines t cs k n hn hcs h ih =>
    have hline : c.Before ('\n' :: (lineFeeds (k + 1) ++ (spaces n ++ (cs ++ '\'' :: rest))))
        column := by
      simpa only [List.append_assoc, List.cons_append] using hc
    obtain ⟨next, column', hgap, hnext⟩ := quotedGap_lines (k + 1) hn hline (hcs.append hclose)
    exact (ih hnext).part hline hnext (by simp; omega)
      (singleQuoted_part (by decide) hline.rest_eq hgap)

/-! ## Writing -/

/-- Whether a character is no blank. -/
def isSolid (c : Char) : Bool := c ≠ ' ' && c ≠ '\n'

/-- Whether a pen that only has indentation before it has reached a column, and passed it if it
stands behind a character that is no blank. -/
def Reaches (column : Nat) (previous : Option Char) (p : Pen) : Prop :=
  p.indenting = true → column ≤ p.column ∧ (previous.any isSolid → column < p.column)

theorem Reaches.put {column : Nat} {previous : Option Char} {p : Pen}
    (h : Reaches column previous p) (hw : w ≠ []) (next : Option Char) :
    Reaches column next (p.put w) := by
  intro hindenting
  have hlength := List.length_pos_iff.mpr hw
  have hcolumn := (h hindenting).1
  have hput : (p.put w).column = p.column + w.length := rfl
  exact ⟨by omega, fun _ => by omega⟩

/-- Behind a character that is no blank the line has something on it. -/
theorem Reaches.isNewLine {column : Nat} {previous : Option Char} {p : Pen}
    (h : Reaches column previous p) (hprevious : previous.any isSolid) :
    p.indenting = false ∨ column < p.column := by
  cases hindenting : p.indenting with
  | false => exact .inl rfl
  | true => exact .inr ((h hindenting).2 hprevious)

theorem Reaches.of_indents {p : Pen} (h : p.Indents column) (hnext : isSolid x = false) :
    Reaches column (some x) p := by
  intro _
  refine ⟨Nat.le_of_eq h.column_eq.symm, fun hx => ?_⟩
  simp [hnext] at hx

theorem hasPair_cons {a b : Char} (h : hasPair a b (x :: t) = false) :
    (x = a → t.head? ≠ some b) ∧ hasPair a b t = false := by
  cases t with
  | nil => exact ⟨fun _ => nofun, rfl⟩
  | cons y t =>
    simp only [hasPair, Bool.or_eq_false_iff, Bool.and_eq_false_imp, decide_eq_true_eq,
      decide_eq_false_iff_not] at h
    refine ⟨fun hx hy => h.1 hx (Option.some.inj hy), h.2⟩

theorem hasPair_append {a b : Char} {v : List Char} (h : hasPair a b (v ++ t) = false) :
    hasPair a b t = false := by
  induction v with
  | nil => exact h
  | cons y v ih => exact ih (hasPair_cons h).2

section

variable (column : Nat) (fold : Bool)

/-- A run of line feeds behind a line feed. -/
theorem writeSingle_lineFeeds (n : Nat) (ht : t.head? ≠ some '\n') (p : Pen) :
    ∃ p', writeSingle column fold (some '\n') (lineFeeds (n + 1) ++ t) p =
        writeSingle column fold (some '\n') t p' ∧
      p.Adds (lineFeeds (n + 1) ++ spaces column) p' ∧ p'.Indents column := by
  induction n generalizing p with
  | zero =>
    obtain ⟨hadds, hindents⟩ := p.indent_newLine column
    refine ⟨_, ?_, hadds, hindents⟩
    show writeSingle column fold (some '\n') ('\n' :: t) p = _
    rw [writeSingle]
    simp [ht]
  | succ n ih =>
    obtain ⟨p', heq, hadds, hindents⟩ := ih p.newLine
    refine ⟨p', ?_, (Pen.adds_newLine p).trans hadds, hindents⟩
    rw [← heq]
    show writeSingle column fold (some '\n') ('\n' :: ('\n' :: (lineFeeds n ++ t))) p = _
    rw [writeSingle]
    simp [List.replicate_succ]

/-- A run of line feeds, which gets one more. -/
theorem writeSingle_lines (n : Nat) {previous : Option Char} (hprevious : previous ≠ some '\n')
    (ht : t.head? ≠ some '\n') (p : Pen) :
    ∃ p', writeSingle column fold previous (lineFeeds (n + 1) ++ t) p =
        writeSingle column fold (some '\n') t p' ∧
      p.Adds ('\n' :: (lineFeeds (n + 1) ++ spaces column)) p' ∧ p'.Indents column := by
  obtain ⟨p', heq, hadds, hindents⟩ := writeSingle_lineFeeds column fold n ht p.newLine
  refine ⟨p', ?_, (Pen.adds_newLine p).trans hadds, hindents⟩
  rw [← heq]
  show writeSingle column fold previous ('\n' :: (lineFeeds n ++ t)) p =
    writeSingle column fold (some '\n') ('\n' :: (lineFeeds n ++ t)) p.newLine
  rw [writeSingle, writeSingle]
  simp [hprevious]

/-- Whether the line ends at a character. -/
def endsLineAt (previous : Option Char) (x : Char) (t : List Char) (p : Pen) : Bool :=
  fold && x = ' ' && previous.any (· ≠ ' ') && t.head?.any (· ≠ ' ') && lastColumn < p.column

theorem writeSingle_fold {previous : Option Char} {p : Pen}
    (h : endsLineAt fold previous x t p = true) :
    writeSingle column fold previous (x :: t) p =
      writeSingle column fold (some x) t (p.indent column) := by
  unfold endsLineAt at h
  rw [writeSingle]
  dsimp only
  rw [h, if_pos rfl]

theorem writeSingle_put {previous : Option Char} {p : Pen}
    (h : endsLineAt fold previous x t p = false) (hx : x ≠ '\n') :
    writeSingle column fold previous (x :: t) p =
      writeSingle column fold (some x) t (p.put (if x = '\'' then ['\'', '\''] else [x])) := by
  unfold endsLineAt at h
  rw [writeSingle]
  dsimp only
  rw [h, if_neg Bool.false_ne_true, if_neg hx]
  split <;> rfl

/-- The line only ends at a space between two characters that are no blanks. -/
theorem endsLineAt_spec {previous : Option Char} {p : Pen}
    (h : endsLineAt fold previous x t p = true) (hfeed : previous = some '\n' → x ≠ ' ')
    (hpair : x = ' ' → t.head? ≠ some '\n') :
    x = ' ' ∧ previous.any isSolid ∧ ∀ y ∈ t.head?, y ≠ ' ' ∧ y ≠ '\n' := by
  simp only [endsLineAt, Bool.and_eq_true, decide_eq_true_eq] at h
  obtain ⟨⟨⟨⟨-, rfl⟩, hbefore⟩, hafter⟩, -⟩ := h
  refine ⟨rfl, ?_, fun y hy => ⟨?_, fun hy' => hpair rfl (hy' ▸ hy)⟩⟩
  · cases previous with
    | none => simp at hbefore
    | some y =>
      have hy : y ≠ '\n' := fun hy => hfeed (congrArg some hy) rfl
      simpa [isSolid, hy] using hbefore
  · rw [Option.mem_def.mp hy] at hafter
    simpa using hafter

/-- Whether what the writer adds is a form of the text, with no line end right behind a space. -/
def AddsSingle (previous : Option Char) (t : List Char) (p : Pen) : Prop :=
  ∃ cs, SingleForm t cs ∧ p.Adds cs (writeSingle column fold previous t p) ∧
    (previous = some ' ' → StartsPrinted cs)

variable {column fold}

/-- The line ends at a space. -/
theorem AddsSingle.endLine {previous : Option Char} {p : Pen}
    (h : AddsSingle column fold (some ' ') t (p.indent column)) (hcolumn : 0 < column)
    (hfold : endsLineAt fold previous ' ' t p = true) (hsolid : previous.any isSolid)
    (hafter : ∀ y ∈ t.head?, y ≠ ' ' ∧ y ≠ '\n') (hp : Reaches column previous p) :
    AddsSingle column fold previous (' ' :: t) p := by
  obtain ⟨cs, hform, hadds, -⟩ := h
  obtain ⟨hline, -⟩ := Pen.indent_of_new_line column (hp.isNewLine hsolid)
  refine ⟨'\n' :: (spaces column ++ cs),
    .fold column hcolumn (hform.startsSolid hafter) hform, ?_, ?_⟩
  · rw [writeSingle_fold column fold hfold]
    exact hline.trans hadds
  · rintro rfl
    simp [isSolid] at hsolid

/-- A run of line feeds. -/
theorem AddsSingle.lines (k : Nat) {previous : Option Char} {p : Pen}
    (h : ∀ p' : Pen, p'.Indents column → AddsSingle column fold (some '\n') t p')
    (hcolumn : 0 < column) (hfeed : previous ≠ some '\n') (hspace : previous ≠ some ' ')
    (ht : ∀ y ∈ t.head?, y ≠ ' ' ∧ y ≠ '\n') :
    AddsSingle column fold previous (lineFeeds (k + 1) ++ t) p := by
  obtain ⟨p', heq, hline, hindents⟩ :=
    writeSingle_lines column fold k hfeed (fun h => (ht _ h).2 rfl) p
  obtain ⟨cs, hform, hadds, -⟩ := h p' hindents
  refine ⟨'\n' :: (lineFeeds (k + 1) ++ (spaces column ++ cs)),
    .lines k column hcolumn (hform.startsSolid ht) hform, ?_, fun h => absurd h hspace⟩
  rw [heq]
  exact (hline.trans hadds).cast (by simp)

/-- A character that is no line feed, on the same line. -/
theorem AddsSingle.put {previous : Option Char} {p : Pen}
    (h : AddsSingle column fold (some x) t (p.put (if x = '\'' then ['\'', '\''] else [x])))
    (hx : IsPrint x) (hline : x ≠ '\n') (hstay : endsLineAt fold previous x t p = false) :
    AddsSingle column fold previous (x :: t) p := by
  obtain ⟨cs, hform, hadds, hstarts⟩ := h
  rw [AddsSingle, writeSingle_put column fold hstay hline]
  by_cases hquote : x = '\''
  · subst hquote
    refine ⟨'\'' :: '\'' :: cs, .quote hform, ?_, fun _ => ?_⟩
    · exact (Pen.adds_put p (by decide)).trans hadds
    · rintro _ ⟨⟩
      decide
  · rw [if_neg hquote] at hadds ⊢
    refine ⟨x :: cs, ?_, ?_, fun _ => ?_⟩
    · by_cases hblank : x = ' '
      · subst hblank
        exact hform.space (hstarts rfl)
      · exact hform.char hx hquote hblank
    · exact (Pen.adds_put p (by simpa using hx)).trans hadds
    · rintro _ ⟨⟩
      exact hx

variable (fold)

/-- **What the writer adds is a form of the text.** -/
theorem writeSingle_adds (hcolumn : 0 < column) (previous : Option Char)
    (hfeed : previous = some '\n' → t.head? ≠ some '\n' ∧ t.head? ≠ some ' ')
    (hspace : previous = some ' ' → t.head? ≠ some '\n') (hcommon : ∀ c ∈ t, isCommon c)
    (hpair : hasPair '\n' ' ' t = false) (hpair' : hasPair ' ' '\n' t = false) {p : Pen}
    (hp : Reaches column previous p) : AddsSingle column fold previous t p := by
  induction hn : t.length using Nat.strongRecOn generalizing t previous p with
  | _ n ih =>
    cases t with
    | nil => exact ⟨[], .nil, .refl p, fun _ => nofun⟩
    | cons x t =>
      have hless : t.length < n := by rw [← hn]; exact Nat.lt_succ_self _
      obtain ⟨hx, ht⟩ := List.forall_mem_cons.mp hcommon
      obtain ⟨hxfeed, htpair⟩ := hasPair_cons hpair
      obtain ⟨hxspace, htpair'⟩ := hasPair_cons hpair'
      cases hfold : endsLineAt fold previous x t p with
      | true =>
        obtain ⟨rfl, hsolid, hafter⟩ := endsLineAt_spec fold hfold
          (fun hy hx => (hfeed hy).2 (congrArg some hx)) hxspace
        have hrest := ih _ hless (some ' ') nofun (fun _ => hxspace rfl) ht htpair htpair'
          (.of_indents (Pen.indent_of_new_line column (hp.isNewLine hsolid)).2 rfl) rfl
        exact hrest.endLine hcolumn hfold hsolid hafter hp
      | false =>
        by_cases hline : x = '\n'
        · subst hline
          obtain ⟨k, u, rfl, hu⟩ := exists_replicate '\n' t
          have hsnoc : '\n' :: (lineFeeds k ++ u) = lineFeeds k ++ '\n' :: u := by
            rw [← List.cons_append, ← List.replicate_succ, List.replicate_succ', List.append_assoc]
            rfl
          obtain ⟨hufeed, hupair⟩ := hasPair_cons (hasPair_append (hsnoc ▸ hpair))
          have hupair' := (hasPair_cons (hasPair_append (hsnoc ▸ hpair'))).2
          have hlength : u.length < n := by
            rw [List.length_append] at hless
            omega
          refine .lines k (fun p' hindents => ?_) hcolumn (fun h => (hfeed h).1 rfl)
            (fun h => hspace h rfl) fun y hy => ⟨fun hy' => hufeed rfl (hy' ▸ hy), hu y hy⟩
          exact ih _ hlength (some '\n') (fun _ => ⟨fun h => hu _ h rfl, hufeed rfl⟩) nofun
            (List.forall_mem_append.mp ht).2 hupair hupair' (.of_indents hindents rfl) rfl
        · have hprint : IsPrint x := by
            simpa [isCommon, hline, IsPrint] using hx
          have hrest := ih _ hless (some x) (p := p.put (if x = '\'' then ['\'', '\''] else [x]))
            (fun h => absurd (Option.some.inj h) hline) (fun h => hxspace (Option.some.inj h)) ht
            htpair htpair' (hp.put (by split <;> simp) _) rfl
          exact hrest.put hprint hline hfold

end

end Treewalk.Yaml
