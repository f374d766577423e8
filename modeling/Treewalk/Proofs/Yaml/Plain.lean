import Mathlib.Data.List.Basic
import Treewalk.Proofs.Yaml.Pen
import Treewalk.Yaml.Scalar

/-!
# Plain scalars

A plain text is written word by word, and at a single space between two words the line may end
instead (`PlainForm`). What the writer adds is such a form of the text (`writePlain_adds`), and
reading a form gives the text again (`plainFrom_form`), however the lines were ended. The texts that
may be written plain are those that are put together from words (`plainText_of_allows`).
-/

namespace Treewalk.Yaml

open Cursor

/-! ## Words -/

/-- Whether some characters are a word of a plain scalar: what is read of them does not depend on
what follows, provided that it ends a word. -/
structure IsWord (flow : Bool) (w : List Char) : Prop where
  ne_nil : w ≠ []
  print : ∀ c ∈ w, IsPrint c
  no_space : ∀ c ∈ w, c ≠ ' '
  no_comment : w.head? ≠ some '#'
  read : ∀ rest, plainWord flow rest = [] → plainWord flow (w ++ rest) = w

/-- The written forms of a plain text: lines that are ended inside start with at least `least`
spaces. -/
inductive PlainForm (flow : Bool) (least : Nat) : List Char → List Char → Prop where
  | word {w} : IsWord flow w → PlainForm flow least w w
  | spaces {w t cs} (n : Nat) : IsWord flow w → PlainForm flow least t cs →
    PlainForm flow least (w ++ (spaces (n + 1) ++ t)) (w ++ (spaces (n + 1) ++ cs))
  | fold {w t cs} (n : Nat) : IsWord flow w → least ≤ n → PlainForm flow least t cs →
    PlainForm flow least (w ++ ' ' :: t) (w ++ '\n' :: (spaces n ++ cs))

/-- Whether a text is put together from words with spaces between them. -/
inductive PlainText (flow : Bool) : List Char → Prop where
  | word {w} : IsWord flow w → PlainText flow w
  | spaces {w t} (n : Nat) : IsWord flow w → PlainText flow t →
    PlainText flow (w ++ (spaces (n + 1) ++ t))

variable {flow : Bool} {least column : Nat} {w t cs rest : List Char} {c : Cursor}

theorem IsWord.exists_cons (h : IsWord flow w) :
    ∃ x v, w = x :: v ∧ IsPrint x ∧ x ≠ ' ' ∧ x ≠ '#' := by
  obtain ⟨x, v, rfl⟩ := List.exists_cons_of_ne_nil h.ne_nil
  refine ⟨x, v, rfl, h.print x List.mem_cons_self, h.no_space x List.mem_cons_self, ?_⟩
  rintro rfl
  exact h.no_comment rfl

theorem PlainText.exists_cons (h : PlainText flow t) :
    ∃ x v, t = x :: v ∧ IsPrint x ∧ x ≠ ' ' := by
  cases h with
  | word hw | spaces _ hw =>
    obtain ⟨x, v, rfl, hx, hspace, -⟩ := hw.exists_cons
    exact ⟨x, _, rfl, hx, hspace⟩

theorem PlainForm.startsSolid (h : PlainForm flow least t cs) (rest : List Char) :
    StartsSolid (cs ++ rest) ∧ (cs ++ rest).head? ≠ some '#' := by
  cases h with
  | word hw | spaces _ hw | fold _ hw =>
    obtain ⟨x, v, rfl, hx, hspace, hcomment⟩ := hw.exists_cons
    exact ⟨.cons hx hspace _, fun heq => hcomment (Option.some.inj heq)⟩

/-! ## Reading -/

theorem plainWord_space (flow : Bool) (rest : List Char) : plainWord flow (' ' :: rest) = [] := by
  simp [plainWord]

theorem plainWord_lineFeed (flow : Bool) (rest : List Char) :
    plainWord flow ('\n' :: rest) = [] := by
  simp [plainWord, isBreak]

/-- Between two lines only the spaces of the second one are skipped. -/
theorem plainBreaks?_spaces (n : Nat) (h : c.Before (spaces n ++ rest) column)
    (hrest : StartsSolid rest) :
    ∃ c', plainBreaks? c [] = some ([], c') ∧ c'.Before rest (column + n) := by
  induction n generalizing c column with
  | zero =>
    have hpeek : c.peek ≠ some ' ' := by
      rw [h.peek_eq]
      intro hspace
      exact (hrest ' ' hspace).2 rfl
    rw [plainBreaks?, if_neg hpeek, h.lineBreak?_eq_none hrest.startsPrinted]
    exact ⟨c, rfl, h⟩
  | succ n ih =>
    have hcons : c.Before (' ' :: (spaces n ++ rest)) column := h
    obtain ⟨hnext, -⟩ := hcons.advance .space
    have hless : c.advance.left < c.left := by
      rw [hnext.left_eq, hcons.left_eq, List.length_cons]
      exact Nat.lt_succ_self _
    have hpeek : c.peek = some ' ' := hcons.peek_eq
    obtain ⟨c', heq, hc'⟩ := ih hnext
    rw [plainBreaks?, if_pos hpeek, if_pos hless]
    exact ⟨c', heq, by rwa [Nat.add_assoc, Nat.add_comm 1] at hc'⟩

/-- Spaces between two words on one line. -/
theorem plainGap_spaces (n : Nat) (h : c.Before (spaces (n + 1) ++ cs) column)
    (hcs : StartsSolid cs) :
    ∃ c', plainGap c = (spaces (n + 1), c', false) ∧ c'.Before cs (column + (n + 1)) := by
  have hspan : c.span (· == ' ') = (spaces (n + 1), c.advanceBy (spaces (n + 1)).length) := by
    refine span_eq h.rest_eq ?_ fun x hx => by simp [(hcs x hx).2]
    intro x hx
    simp [List.eq_of_mem_replicate hx]
  obtain ⟨hafter, -⟩ := h.advanceBy Pen.isPrint_spaces
  unfold plainGap
  rw [hspan]
  dsimp only
  rw [hafter.lineBreak?_eq_none hcs.startsPrinted]
  exact ⟨_, rfl, by simpa using hafter⟩

/-- The end of a line, and the spaces at the start of the next one. -/
theorem plainGap_lineFeed (n : Nat) (h : c.Before ('\n' :: (spaces n ++ cs)) column)
    (hmark : ∀ c' : Cursor, c'.Before (spaces n ++ cs) 0 → c'.atDocumentMark = false)
    (hcs : StartsSolid cs) :
    ∃ c', plainGap c = ([' '], c', true) ∧ c'.Before cs n := by
  have hspan : c.span (· == ' ') = ([], c) := span_nil h.rest_eq (by simp)
  have hnext := h.advance_lineFeed
  obtain ⟨c', hbreaks, hc'⟩ := plainBreaks?_spaces n hnext hcs
  unfold plainGap
  rw [hspan]
  dsimp only
  rw [h.lineBreak?_lineFeed]
  dsimp only
  rw [hmark _ hnext, if_neg Bool.false_ne_true, hbreaks]
  exact ⟨c', rfl, by rwa [Nat.zero_add] at hc'⟩

/-- A word behind which the scalar goes on. -/
theorem plainFrom_step {indent : Int} {gap after u : List Char} {ended ended' : Bool}
    {next : Cursor} {column' : Nat} (hw : IsWord flow w) (h : c.Before (w ++ rest) column)
    (hrest : plainWord flow rest = [])
    (hgap : plainGap (c.advanceBy w.length) = (after, next, ended')) (hafter : after ≠ [])
    (hnext : next.Before u column') (hcomment : u.head? ≠ some '#')
    (hcolumn : flow = true ∨ indent ≤ column') (hlength : u.length < (w ++ rest).length) :
    plainFrom flow indent gap ended c =
      (gap ++ w ++ (plainFrom flow indent after ended' next).1,
        (plainFrom flow indent after ended' next).2) := by
  obtain ⟨x, v, rfl, -, -, hx⟩ := hw.exists_cons
  have hpeek : c.peek ≠ some '#' := by
    rw [h.peek_eq]
    simpa using hx
  have hword : plainWord flow c.rest = x :: v := by rw [h.rest_eq, hw.read rest hrest]
  have hgo : (after.isEmpty || next.peek = some '#' ||
      (!flow && (next.column : Int) < indent)) = false := by
    rw [hnext.peek_eq, hnext.column_eq]
    rcases hcolumn with rfl | hcolumn
    · simp [hafter, hcomment]
    · simp [hafter, hcomment, hcolumn]
  have hless : next.left < c.left := by
    rw [hnext.left_eq, h.left_eq]
    exact hlength
  rw [plainFrom, if_neg hpeek, hword, if_neg (by simp)]
  dsimp only
  rw [hgap]
  dsimp only
  rw [hgo, if_neg Bool.false_ne_true, if_pos hless]

/-- The last word of a scalar. -/
theorem plainFrom_last {indent : Int} {gap after : List Char} {ended ended' : Bool} {next : Cursor}
    (hw : IsWord flow w) (h : c.Before (w ++ rest) column) (hrest : plainWord flow rest = [])
    (hgap : plainGap (c.advanceBy w.length) = (after, next, ended'))
    (hends : (after.isEmpty || next.peek = some '#' ||
      (!flow && (next.column : Int) < indent)) = true) :
    plainFrom flow indent gap ended c = (gap ++ w, next, ended') := by
  obtain ⟨x, v, rfl, -, -, hx⟩ := hw.exists_cons
  have hpeek : c.peek ≠ some '#' := by
    rw [h.peek_eq]
    simpa using hx
  have hword : plainWord flow c.rest = x :: v := by rw [h.rest_eq, hw.read rest hrest]
  rw [plainFrom, if_neg hpeek, hword, if_neg (by simp)]
  dsimp only
  rw [hgap]
  dsimp only
  rw [hends, if_pos rfl]

theorem not_atDocumentMark_spaces {n : Nat} (hn : 0 < n) (h : c.Before (spaces n ++ rest) column) :
    c.atDocumentMark = false := by
  obtain ⟨n, rfl⟩ := Nat.exists_eq_add_one.mpr hn
  unfold atDocumentMark
  rw [h.rest_eq]
  rfl

/-- Whether a plain scalar ends with a word before a place. -/
def EndsPlain (flow : Bool) (indent : Int) (c : Cursor) : Prop :=
  ((plainGap c).1.isEmpty || (plainGap c).2.1.peek = some '#' ||
    (!flow && ((plainGap c).2.1.column : Int) < indent)) = true

/-- **The text of a written form is read back**, up to the place that ends the scalar. -/
theorem plainFrom_form {indent : Int} (h : PlainForm flow least t cs) (hleast : 0 < least)
    (hfold : flow = true ∨ indent ≤ least) (hcolumn : flow = true ∨ indent ≤ column)
    (hc : c.Before (cs ++ rest) column) (hrest : plainWord flow rest = [])
    (hends : ∀ c' column', c'.Before rest column' → EndsPlain flow indent c') (gap : List Char)
    (ended : Bool) :
    ∃ c' column', c'.Before rest (column' + 1) ∧
      plainFrom flow indent gap ended c = (gap ++ t, (plainGap c').2) := by
  induction h generalizing c column gap ended with
  | @word w hw =>
    obtain ⟨hc', -⟩ := hc.advanceBy hw.print
    have hlength := List.length_pos_iff.mpr hw.ne_nil
    refine ⟨_, column + (w.length - 1), ?_, plainFrom_last hw hc hrest rfl (hends _ _ hc')⟩
    rwa [show column + (w.length - 1) + 1 = column + w.length by omega]
  | @spaces w t cs n hw hform ih =>
    obtain ⟨hsolid, hcomment⟩ := hform.startsSolid rest
    have hword : c.Before (w ++ (spaces (n + 1) ++ (cs ++ rest))) column := by
      simpa only [List.append_assoc] using hc
    obtain ⟨hafter, -⟩ := hword.advanceBy hw.print
    obtain ⟨next, hgap, hnext⟩ := plainGap_spaces n hafter hsolid
    have hcolumn' : flow = true ∨ indent ≤ (column + w.length + (n + 1) : Nat) :=
      hcolumn.imp_right fun h => by omega
    obtain ⟨c', column', hc', heq⟩ := ih hcolumn' hnext (spaces (n + 1)) false
    refine ⟨c', column', hc', ?_⟩
    rw [plainFrom_step hw hword (plainWord_space flow _) hgap (List.cons_ne_nil _ _) hnext hcomment
      hcolumn' (by simp; omega), heq]
    simp only [List.append_assoc]
  | @fold w t cs n hw hn hform ih =>
    obtain ⟨hsolid, hcomment⟩ := hform.startsSolid rest
    have hword : c.Before (w ++ ('\n' :: (spaces n ++ (cs ++ rest)))) column := by
      simpa only [List.append_assoc, List.cons_append] using hc
    obtain ⟨hafter, -⟩ := hword.advanceBy hw.print
    obtain ⟨next, hgap, hnext⟩ := plainGap_lineFeed n hafter
      (fun c' hc' => not_atDocumentMark_spaces (Nat.lt_of_lt_of_le hleast hn) hc') hsolid
    have hcolumn' : flow = true ∨ indent ≤ (n : Nat) := hfold.imp_right fun h => by omega
    obtain ⟨c', column', hc', heq⟩ := ih hcolumn' hnext [' '] true
    refine ⟨c', column', hc', ?_⟩
    rw [plainFrom_step hw hword (plainWord_lineFeed flow _) hgap (List.cons_ne_nil _ _) hnext
      hcomment hcolumn' (by simp; omega), heq]
    simp only [List.append_assoc, List.singleton_append]

/-! ## Writing -/

section

variable (column : Nat) (fold : Bool)

/-- The characters of a word are written as they are. -/
theorem writePlain_word (hw : ∀ c ∈ w, c ≠ ' ') (rest : List Char) (previous : Char) (p : Pen) :
    ∃ last, writePlain column fold previous (w ++ rest) p =
      writePlain column fold last rest (p.put w) := by
  induction w generalizing previous p with
  | nil => exact ⟨previous, rfl⟩
  | cons c w ih =>
    obtain ⟨hc, hw⟩ := List.forall_mem_cons.mp hw
    obtain ⟨last, ih⟩ := ih hw c (p.put [c])
    refine ⟨last, ?_⟩
    rw [List.cons_append, writePlain]
    simp only [hc, decide_false, Bool.and_false, Bool.false_and, Bool.false_eq_true, if_false]
    rw [ih, Pen.put_put]
    rfl

/-- Spaces behind a space are written as they are. -/
theorem writePlain_spaces (n : Nat) (rest : List Char) (p : Pen) :
    writePlain column fold ' ' (spaces n ++ rest) p =
      writePlain column fold ' ' rest (p.put (spaces n)) := by
  induction n generalizing p with
  | zero => rfl
  | succ n ih =>
    rw [show spaces (n + 1) ++ rest = ' ' :: (spaces n ++ rest) from rfl, writePlain]
    simp only [ne_eq, not_true, decide_false, Bool.and_false, Bool.false_and, Bool.false_eq_true,
      if_false]
    rw [ih, Pen.put_put]
    rfl

/-- **What the writer adds is a form of the text.** -/
theorem writePlain_adds (h : PlainText flow t) (previous : Char) {p : Pen} (hp : p.Rests) :
    ∃ cs, PlainForm flow column t cs ∧ p.Adds cs (writePlain column fold previous t p) ∧
      (writePlain column fold previous t p).Rests := by
  induction h generalizing previous p with
  | @word w hw =>
    obtain ⟨last, heq⟩ := writePlain_word column fold hw.no_space [] previous p
    rw [List.append_nil] at heq
    rw [heq]
    exact ⟨w, .word hw, Pen.adds_put p hw.print, hp.put w⟩
  | @spaces w t n hw ht ih =>
    obtain ⟨last, heq⟩ :=
      writePlain_word column fold hw.no_space (spaces (n + 1) ++ t) previous p
    have hword := Pen.adds_put p hw.print
    rw [heq, show spaces (n + 1) ++ t = ' ' :: (spaces n ++ t) from rfl, writePlain]
    split
    · -- The line ends at the space, and so the space is a single one.
      rename_i hfold
      obtain rfl : n = 0 := by
        cases n with
        | zero => rfl
        | succ n => simp [List.replicate_succ] at hfold
      obtain ⟨hline, -⟩ := Pen.indent_of_new_line column (.inl (hp.put w).indenting_eq)
      obtain ⟨cs, hform, hadds, hrests⟩ := ih ' '
        (p := { (p.put w).indent column with spaced := false, indenting := false }) ⟨rfl, rfl⟩
      refine ⟨w ++ '\n' :: (spaces column ++ cs), .fold column hw (Nat.le_refl column) hform, ?_,
        hrests⟩
      exact (hword.trans (hline.flags false false)).trans hadds |>.cast (by simp)
    · rw [writePlain_spaces, Pen.put_put]
      have hspaces : ∀ c ∈ [' '] ++ spaces n, IsPrint c := Pen.isPrint_spaces (n := n + 1)
      obtain ⟨cs, hform, hadds, hrests⟩ := ih ' ' ((hp.put w).put ([' '] ++ spaces n))
      refine ⟨w ++ (spaces (n + 1) ++ cs), .spaces n hw hform, ?_, hrests⟩
      exact (hword.trans (Pen.adds_put (p.put w) hspaces)).trans hadds |>.cast
        (by simp [List.replicate_succ])

end

/-! ## Texts that are allowed to be plain -/

theorem indicatesWithin_cons {previous x : Char}
    (h : indicatesWithin flow previous (x :: t) = false) :
    (flow = true → x ≠ ',' ∧ x ≠ '?' ∧ x ≠ '[' ∧ x ≠ ']' ∧ x ≠ '\x7b' ∧ x ≠ '\x7d') ∧
      (x = ':' → flow = false ∧ endsHere t = false) ∧ (x = '#' → separates previous = false) ∧
      indicatesWithin flow x t = false := by
  rw [indicatesWithin] at h
  simp only [Bool.or_eq_false_iff, Bool.and_eq_false_imp, decide_eq_true_eq,
    decide_eq_false_iff_not] at h
  obtain ⟨⟨⟨hflow, hcolon⟩, hcomment⟩, hrest⟩ := h
  refine ⟨fun hf => ?_, fun hx => hcolon hx, hcomment, hrest⟩
  obtain ⟨⟨⟨⟨⟨h₁, h₂⟩, h₃⟩, h₄⟩, h₅⟩, h₆⟩ := hflow hf
  exact ⟨h₁, h₂, h₃, h₄, h₅, h₆⟩

theorem indicatesWithin_append {previous x : Char} {v : List Char}
    (h : indicatesWithin flow previous (v ++ x :: t) = false) :
    indicatesWithin flow x t = false := by
  induction v generalizing previous with
  | nil => exact (indicatesWithin_cons h).2.2.2
  | cons y v ih => exact ih (indicatesWithin_cons h).2.2.2

/-- The characters up to a space, or up to the end, are read as one word. -/
theorem plainWord_of_within {previous : Char} (hw : ∀ c ∈ w, IsPrint c ∧ c ≠ ' ')
    (h : indicatesWithin flow previous (w ++ t) = false) (ht : ∀ x ∈ t.head?, x = ' ')
    (hrest : plainWord flow rest = []) : plainWord flow (w ++ rest) = w := by
  induction w generalizing previous with
  | nil => exact hrest
  | cons x w ih =>
    obtain ⟨⟨hprint, hspace⟩, hw⟩ := List.forall_mem_cons.mp hw
    obtain ⟨hflow, hcolon, -, hwithin⟩ := indicatesWithin_cons h
    have hcolon : (x = ':' && (endsIndicator (w ++ rest).head? ||
        (flow && (w ++ rest).head?.any fun d => d ∈ [',', '[', ']', '\x7b', '\x7d']))) = false := by
      by_cases hx : x = ':'
      · obtain ⟨hf, hends⟩ := hcolon hx
        cases w with
        | nil =>
          cases t with
          | nil => simp [endsHere] at hends
          | cons y t =>
            rw [ht y rfl] at hends
            simp [endsHere, separates] at hends
        | cons y w =>
          obtain ⟨hy, hyspace⟩ := hw y List.mem_cons_self
          simp [hf, endsIndicator, hyspace, hy.ne_tab, hy.isBreak_eq]
      · simp [hx]
    have hindicator : (flow && x ∈ [',', '?', '[', ']', '\x7b', '\x7d']) = false := by
      cases flow with
      | false => rfl
      | true => simp [hflow rfl]
    rw [List.cons_append, plainWord, if_neg (by simp [hspace, hprint.ne_tab, hprint.isBreak_eq]),
      if_neg (Bool.eq_false_iff.mp hcolon), if_neg (Bool.eq_false_iff.mp hindicator),
      ih hw hwithin]

theorem isWord_of_within (hne : w ≠ []) (hw : ∀ c ∈ w, IsPrint c ∧ c ≠ ' ')
    (h : indicatesWithin flow ' ' (w ++ t) = false) (ht : ∀ x ∈ t.head?, x = ' ') :
    IsWord flow w where
  ne_nil := hne
  print c hc := (hw c hc).1
  no_space c hc := (hw c hc).2
  no_comment := by
    obtain ⟨x, v, rfl⟩ := List.exists_cons_of_ne_nil hne
    rintro ⟨⟩
    exact absurd ((indicatesWithin_cons h).2.2.1 rfl) (by decide)
  read _ hrest := plainWord_of_within hw h ht hrest

/-- A list begins with so many copies of an element and then with another one, if at all. -/
theorem exists_replicate {α : Type} (a : α) (v : List α) :
    ∃ n u, v = List.replicate n a ++ u ∧ ∀ x ∈ u.head?, x ≠ a := by
  induction v with
  | nil => exact ⟨0, [], rfl, nofun⟩
  | cons x v ih =>
    by_cases hx : x = a
    · obtain ⟨n, u, rfl, hu⟩ := ih
      exact ⟨n + 1, u, by rw [hx]; rfl, hu⟩
    · refine ⟨0, x :: v, rfl, ?_⟩
      rintro _ ⟨⟩
      exact hx

/-- A text is a word, or a word with spaces and another text behind it. -/
theorem exists_word (hne : t ≠ []) (hhead : ∀ x ∈ t.head?, x ≠ ' ')
    (hlast : t.getLast? ≠ some ' ') :
    ∃ w, w ≠ [] ∧ (∀ c ∈ w, c ≠ ' ') ∧ (t = w ∨ ∃ n v, t = w ++ (spaces (n + 1) ++ v) ∧ v ≠ [] ∧
      ∀ x ∈ v.head?, x ≠ ' ') := by
  induction t with
  | nil => exact absurd rfl hne
  | cons x t ih =>
    have hx : x ≠ ' ' := hhead x rfl
    obtain ⟨n, u, rfl, hu⟩ := exists_replicate ' ' t
    cases n with
    | zero =>
      rw [List.replicate_zero, List.nil_append] at ih hlast ⊢
      by_cases hne' : u = []
      · subst hne'
        exact ⟨[x], by simp, by simpa using hx, .inl rfl⟩
      · have hlast' : u.getLast? ≠ some ' ' := by
          rwa [List.getLast?_cons_of_ne_nil hne'] at hlast
        obtain ⟨w, -, hw, hsplit⟩ := ih hne' hu hlast'
        refine ⟨x :: w, by simp, List.forall_mem_cons.mpr ⟨hx, hw⟩, ?_⟩
        rcases hsplit with rfl | ⟨n, v, rfl, hv⟩
        · exact .inl rfl
        · exact .inr ⟨n, v, rfl, hv⟩
    | succ n =>
      refine ⟨[x], by simp, by simpa using hx, .inr ⟨n, u, rfl, ?_, hu⟩⟩
      rintro rfl
      rw [List.append_nil, List.replicate_succ', List.getLast?_cons_of_ne_nil (by simp),
        List.getLast?_concat] at hlast
      exact hlast rfl

/-- **A text that may be written plain is put together from words.** -/
theorem plainText_of_within (hne : t ≠ []) (hprint : ∀ c ∈ t, IsPrint c)
    (hhead : ∀ x ∈ t.head?, x ≠ ' ') (hlast : t.getLast? ≠ some ' ')
    (h : indicatesWithin flow ' ' t = false) : PlainText flow t := by
  induction hn : t.length using Nat.strongRecOn generalizing t with
  | _ n ih =>
    obtain ⟨w, hw, hspace, heq | ⟨m, v, heq, hv, hvhead⟩⟩ := exists_word hne hhead hlast
    · subst heq
      refine .word (isWord_of_within (t := []) hw (fun c hc => ⟨hprint c hc, hspace c hc⟩) ?_ nofun)
      rwa [List.append_nil]
    · subst heq
      have hprint' := List.forall_mem_append.mp hprint
      have hv' := (List.forall_mem_append.mp hprint'.2).2
      refine .spaces m (isWord_of_within hw (fun c hc => ⟨hprint'.1 c hc, hspace c hc⟩) h ?_) ?_
      · rintro x ⟨⟩
        rfl
      · refine ih v.length ?_ hv hv' hvhead ?_ ?_ rfl
        · rw [← hn]
          simp only [List.length_append, List.length_replicate]
          omega
        · rwa [← List.append_assoc, List.getLast?_append_of_ne_nil _ hv] at hlast
        · have hsnoc : w ++ (spaces (m + 1) ++ v) = (w ++ spaces m) ++ ' ' :: v := by
            simp [List.replicate_succ']
          rw [hsnoc] at h
          exact indicatesWithin_append h

/-- The first character of a plain text is no indicator, and so it might stand behind a space. -/
theorem indicatesWithin_of_start {x : Char} (hstart : indicatesAtStart flow (x :: t) = false)
    (h : indicatesWithin flow x t = false) : indicatesWithin flow ' ' (x :: t) = false := by
  simp only [indicatesAtStart, openingIndicators, Bool.or_eq_false_iff] at hstart
  obtain ⟨⟨hopening, hmark⟩, -⟩ := hstart
  have hx : ∀ c ∈ openingIndicators, x ≠ c := by
    rintro c hc rfl
    rw [List.contains_eq_mem] at hopening
    exact absurd hc (by simpa [openingIndicators] using hopening)
  have hcomma := hx ',' (by decide)
  have hopen := hx '[' (by decide)
  have hclose := hx ']' (by decide)
  have hcurly := hx '\x7b' (by decide)
  have hcurly' := hx '\x7d' (by decide)
  have hcomment := hx '#' (by decide)
  rw [indicatesWithin]
  cases flow <;> simp_all

/-- **A text that may be written plain is put together from words.** -/
theorem plainText_of_allows (hne : t ≠ []) (h : allowsPlain flow t = true) : PlainText flow t := by
  obtain ⟨x, v, rfl⟩ := List.exists_cons_of_ne_nil hne
  have hempty : (x :: v).isEmpty = false := rfl
  rw [allowsPlain, hempty, if_neg Bool.false_ne_true] at h
  simp only [Bool.and_eq_true, Bool.not_eq_true', List.all_eq_true, decide_eq_true_eq, hasLooseEnd,
    Bool.or_eq_false_iff, indicates] at h
  obtain ⟨⟨hprint, hfirst, hlast⟩, ⟨-, hstart⟩, hwithin⟩ := h
  refine plainText_of_within hne hprint ?_ ?_ (indicatesWithin_of_start hstart hwithin)
  · rintro _ ⟨⟩ rfl
    simp at hfirst
  · intro heq
    rw [heq] at hlast
    simp at hlast

end Treewalk.Yaml
