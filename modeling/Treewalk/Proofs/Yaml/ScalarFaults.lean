import Mathlib.Data.List.Induction
import Treewalk.Proofs.Outcome
import Treewalk.Proofs.Yaml.Escape

/-!
# Why scalars cannot be scanned

A reader of scalars ends at a place of the text from which it has set out (`Cursor.StandsIn`), or
with one of the faults of `CannotScan`. All of these say that the text breaks a rule, but for one:
an escape with eight digits may give a number of more than 31 bits (`HasWideEscape`).
-/

namespace Treewalk.Yaml

open Cursor

namespace Cursor

/-- Whether a cursor stands in a text: the text ends with what is left. -/
def StandsIn (cs : List Char) (c : Cursor) : Prop := c.rest <:+ cs

variable {cs : List Char} {c : Cursor}

theorem rest_advance (c : Cursor) : c.advance.rest = c.rest.drop 1 := by
  unfold advance
  split
  · next h => rw [h]; rfl
  · next h =>
    rw [h]
    split <;> rfl

theorem rest_advanceBy (n : Nat) : ∀ c : Cursor, (c.advanceBy n).rest = c.rest.drop n := by
  induction n with
  | zero => exact fun c => rfl
  | succ n ih =>
    intro c
    rw [advanceBy, ih, rest_advance, List.drop_drop, Nat.add_comm]

namespace StandsIn

theorem advanceBy (h : c.StandsIn cs) (n : Nat) : (c.advanceBy n).StandsIn cs := by
  unfold StandsIn
  rw [rest_advanceBy]
  exact (List.drop_suffix n c.rest).trans h

theorem advance (h : c.StandsIn cs) : c.advance.StandsIn cs := h.advanceBy 1

theorem span (h : c.StandsIn cs) (p : Char → Bool) : (c.span p).2.StandsIn cs := h.advanceBy _

theorem skip (h : c.StandsIn cs) (p : Char → Bool) : (c.skip p).StandsIn cs := h.span p

theorem skipComment (h : c.StandsIn cs) : c.skipComment.StandsIn cs := by
  unfold Cursor.skipComment
  split
  · exact h.skip _
  · exact h

theorem lineBreak? (h : c.StandsIn cs) {br : List Char} {next : Cursor}
    (hbreak : c.lineBreak? = some (br, next)) : next.StandsIn cs := by
  unfold Cursor.lineBreak? at hbreak
  split at hbreak
  · cases hbreak
    exact h.advanceBy 2
  · split at hbreak
    · cases hbreak
      exact h.advance
    · split at hbreak
      · cases hbreak
        exact h.advance
      · cases hbreak
  · cases hbreak

end StandsIn

end Cursor

/-- Whether a text holds an escape with a number of more than 31 bits. -/
def HasWideEscape (cs : List Char) : Prop :=
  ∃ digits n, '\\' :: 'U' :: digits <:+: cs ∧ digits.length = 8 ∧ hexNumber? digits = some n ∧
    0x7FFFFFFF < n

/-- Why a text cannot be scanned. -/
inductive CannotScan (cs : List Char) : YamlFault → Prop where
  | malformed : CannotScan cs .malformed
  | noSuchCharacter : CannotScan cs .noSuchCharacter
  | longInteger (digits : Nat) : CannotScan cs (.longInteger digits)
  | wideEscape : HasWideEscape cs → CannotScan cs .characterOverflow

variable {cs : List Char} {c : Cursor}

/-- Whether a reader of scalars ends at a place in the text, or with a fault of scanning. -/
abbrev Scans (cs : List Char) {α : Type} (x : Except YamlFault (α × Cursor)) : Prop :=
  Meets (CannotScan cs) (fun r => r.2.StandsIn cs) x

/-! ## Plain scalars -/

theorem plainBreaks?_standsIn (h : c.StandsIn cs) (breaks : List Char) :
    ∀ r ∈ plainBreaks? c breaks, r.2.StandsIn cs := by
  fun_induction plainBreaks? c breaks with
  | case1 c breaks _ next _ ih => exact ih h.advance
  | case2 | case3 =>
    rintro _ ⟨⟩
    exact h
  | case4 =>
    rintro _ ⟨⟩
  | case5 c breaks _ br next hbreak _ _ ih => exact ih (h.lineBreak? hbreak)
  | case6 =>
    rintro _ ⟨⟩
    exact h

theorem plainGap_standsIn (h : c.StandsIn cs) : (plainGap c).2.1.StandsIn cs := by
  have hspan := h.span (· == ' ')
  unfold plainGap
  split
  next spaces c' heq =>
    rw [heq] at hspan
    split
    · exact hspan
    · next br next hbreak =>
      have hnext := StandsIn.lineBreak? hspan hbreak
      split
      · exact hnext
      · split
        · exact hnext
        · next hfurther => exact plainBreaks?_standsIn hnext [] _ hfurther

theorem plainFrom_standsIn (h : c.StandsIn cs) (flow : Bool) (indent : Int) (gap : List Char)
    (ended : Bool) : (plainFrom flow indent gap ended c).2.1.StandsIn cs := by
  fun_induction plainFrom flow indent gap ended c with
  | case1 | case2 => exact h
  | case3 gap ended c _ word _ after next ended' hgap
  | case5 gap ended c _ word _ after next ended' hgap =>
    have hnext := plainGap_standsIn (h.advanceBy word.length)
    rwa [hgap] at hnext
  | case4 gap ended c _ word _ after next ended' hgap _ _ more last ended'' hmore ih =>
    have hnext := plainGap_standsIn (h.advanceBy word.length)
    rw [hgap] at hnext
    have hlast := ih hnext
    rwa [hmore] at hlast

theorem isBreak_of_mem_plainWord {flow : Bool} {cs : List Char} :
    ∀ x ∈ plainWord flow cs, isBreak x = false := by
  fun_induction plainWord flow cs with
  | case1 | case2 | case3 | case4 => exact List.forall_mem_nil _
  | case5 x rest hx _ _ ih =>
    simp only [Bool.or_eq_true, not_or, Bool.not_eq_true] at hx
    exact List.forall_mem_cons.mpr ⟨hx.2, ih⟩

/-- A plain scalar does not end with a line break. -/
theorem isBreak_of_mem_getLast?_plainFrom (flow : Bool) (indent : Int) (gap : List Char)
    (ended : Bool) (c : Cursor) :
    ∀ x ∈ (plainFrom flow indent gap ended c).1.getLast?, isBreak x = false := by
  have hends {c : Cursor} (gap : List Char) (hword : ¬(plainWord flow c.rest).isEmpty = true) :
      ∀ x ∈ (gap ++ plainWord flow c.rest).getLast?, isBreak x = false := by
    intro x hx
    rw [List.getLast?_append_of_ne_nil _ (by simpa using hword)] at hx
    exact isBreak_of_mem_plainWord x (List.mem_of_getLast? hx)
  fun_induction plainFrom flow indent gap ended c with
  | case1 | case2 =>
    rintro _ ⟨⟩
  | case3 gap ended c _ word hword => exact hends gap hword
  | case4 gap ended c _ word hword after next ended' _ _ _ more last ended'' hmore ih =>
    rw [hmore] at ih
    intro x hx
    cases more with
    | nil =>
      rw [List.append_nil] at hx
      exact hends gap hword x hx
    | cons y more =>
      rw [List.getLast?_append_of_ne_nil _ (List.cons_ne_nil _ _)] at hx
      exact ih x hx
  | case5 gap ended c _ word hword => exact hends gap hword

/-! ## Quoted scalars -/

theorem quotedBreaks_scans (h : c.StandsIn cs) (breaks : List Char) :
    Scans cs (quotedBreaks c breaks) := by
  fun_induction quotedBreaks c breaks with
  | case1 => exact .malformed
  | case2 c breaks _ c' _ => exact h.skip _
  | case3 c breaks _ c' br next hbreak _ ih => exact ih ((h.skip _).lineBreak? hbreak)
  | case4 => exact h.skip _

theorem quotedGap_scans (h : c.StandsIn cs) : Scans cs (quotedGap c) := by
  have hspan := h.span fun x => x = ' ' || x = '\t'
  unfold quotedGap
  split
  next blanks c' heq =>
    rw [heq] at hspan
    refine .guard .malformed ?_
    split
    · exact hspan
    · next br next hbreak =>
      exact .bind (quotedBreaks_scans (StandsIn.lineBreak? hspan hbreak) []) fun _ hr => hr

theorem singleQuoted_scans (h : c.StandsIn cs) : Scans cs (singleQuoted c) := by
  fun_induction singleQuoted c with
  | case1 => exact .malformed
  | case2 c _ _ next _ ih => exact .bind (ih (h.advanceBy 2)) fun _ hr => hr
  | case3 => exact .malformed
  | case4 => exact h.advance
  | case5 c x rest _ _ _ ih =>
    -- a gap between words, or the characters up to the next one
    have hpart : Scans cs (if x = ' ' || x = '\t' || isBreak x then quotedGap c
        else .ok (c.span fun x => !(x = '\'' || x = ' ' || x = '\t' || isBreak x))) := by
      split
      · exact quotedGap_scans h
      · exact h.span _
    refine .bind hpart fun r hr => ?_
    split
    split
    · next hless => exact .bind (ih _ hless hr) fun _ hr => hr
    · exact .malformed

theorem hexValue?_lt {x : Char} : ∀ n ∈ Json.hexValue? x, n < 16 := by
  unfold Json.hexValue?
  simp only [Char.le_def, UInt32.le_iff_toNat_le, Char.toNat]
  intro n hn
  split at hn
  · next h =>
    cases hn
    have : ('0' : Char).val.toNat = 48 := rfl
    have : ('9' : Char).val.toNat = 57 := rfl
    omega
  · split at hn
    · next h =>
      cases hn
      have : ('a' : Char).val.toNat = 97 := rfl
      have : ('f' : Char).val.toNat = 102 := rfl
      omega
    · split at hn
      · next h =>
        cases hn
        have : ('A' : Char).val.toNat = 65 := rfl
        have : ('F' : Char).val.toNat = 70 := rfl
        omega
      · cases hn

/-- A number in base 16 has no more digits than its numeral. -/
theorem hexNumber?_lt {digits : List Char} : ∀ n ∈ hexNumber? digits, n < 16 ^ digits.length := by
  induction digits using List.reverseRecOn with
  | nil =>
    rintro _ ⟨⟩
    decide
  | append_singleton digits x ih =>
    intro n hn
    rw [hexNumber?_append] at hn
    obtain ⟨k, hk, hn⟩ := Option.bind_eq_some_iff.mp hn
    obtain ⟨m, hm, hn⟩ := Option.bind_eq_some_iff.mp hn
    cases hn
    have hlt := ih k hk
    have hm := hexValue?_lt m hm
    rw [List.length_append, List.length_singleton, Nat.pow_succ]
    omega

/-- Only an escape with eight digits gives a number of more than 31 bits. -/
theorem hasWideEscape_of_lt {x : Char} {width n : Nat} {rest : List Char}
    (hwidth : escapeWidth? x = some width) (hlength : (rest.take width).length = width)
    (hn : hexNumber? (rest.take width) = some n) (hlarge : 0x7FFFFFFF < n) :
    HasWideEscape ('\\' :: x :: rest) := by
  have hlt := hexNumber?_lt n hn
  rw [hlength] at hlt
  unfold escapeWidth? at hwidth
  split at hwidth
  · cases hwidth
    omega
  · cases hwidth
    omega
  · cases hwidth
    refine ⟨rest.take 8, n, ?_, hlength, hn, hlarge⟩
    exact ⟨[], rest.drop 8, by simp⟩
  · cases hwidth

theorem HasWideEscape.of_suffix {rest : List Char} (h : HasWideEscape rest) (hrest : rest <:+ cs) :
    HasWideEscape cs := by
  obtain ⟨digits, n, hinfix, hdigits⟩ := h
  exact ⟨digits, n, hinfix.trans hrest.isInfix, hdigits⟩

theorem readEscape_scans {c' : Cursor} (h : c'.StandsIn cs) (hrest : c'.rest = '\\' :: c.rest) :
    Scans cs (readEscape c) := by
  have hc : c.StandsIn cs := by
    refine List.IsSuffix.trans ?_ h
    rw [hrest]
    exact List.suffix_cons _ _
  unfold readEscape
  split
  · exact .malformed
  · next x hx =>
    split
    · -- a letter
      exact hc.advance
    · split
      · -- a number of as many digits as the letter asks for
        next width hwidth =>
        extract_lets digits
        split
        · exact .malformed
        · next n hn =>
          obtain ⟨hlength, hn⟩ : digits.length = width ∧ hexNumber? digits = some n := by
            split at hn
            · next hlength => exact ⟨hlength, hn⟩
            · cases hn
          split
          · next hlarge =>
            have hpeek : c.rest = x :: c.rest.drop 1 := by
              rw [List.drop_one]
              exact List.eq_cons_of_mem_head? hx
            refine .wideEscape ((hasWideEscape_of_lt hwidth hlength hn hlarge).of_suffix ?_)
            rw [← hpeek, ← hrest]
            exact h
          · split
            · exact .noSuchCharacter
            · exact hc.advanceBy _
      · -- a line break that is left out
        split
        · exact .malformed
        · next hbreak =>
          exact .bind (quotedBreaks_scans (hc.lineBreak? hbreak) []) fun _ hr => hr

theorem doublePart_scans {x : Char} {rest : List Char} (h : c.StandsIn cs)
    (hrest : c.rest = x :: rest) : Scans cs (doublePart x c) := by
  unfold doublePart
  split
  · next hx =>
    subst hx
    refine readEscape_scans h ?_
    rw [rest_advance, hrest]
    rfl
  · split
    · exact .bind (quotedGap_scans h) fun _ hr => hr
    · exact h.span _

theorem doubleQuoted_scans (h : c.StandsIn cs) : Scans cs (doubleQuoted c) := by
  fun_induction doubleQuoted c with
  | case1 => exact .malformed
  | case2 => exact h.advance
  | case3 c x rest _ hrest ih =>
    refine .bind (doublePart_scans h hrest) fun r hr => ?_
    split
    split
    · next hless => exact .bind (ih _ hless hr) fun _ hr => hr
    · exact .malformed

theorem readQuoted_scans (h : c.StandsIn cs) : Scans cs (readQuoted c) := by
  unfold readQuoted
  split
  · exact doubleQuoted_scans h.advance
  · exact .bind (singleQuoted_scans h.advance) fun _ hr => hr

/-! ## Block scalars -/

theorem blockHead_scans (h : c.StandsIn cs) :
    Meets (CannotScan cs) (fun r => r.2.2.StandsIn cs) (blockHead c) := by
  unfold blockHead
  extract_lets chomp? digit?
  split
  next chomping increment c' heq =>
  have hc' : c'.StandsIn cs := by
    split at heq
    · split at heq
      · cases heq
        exact h.advanceBy 2
      · cases heq
        exact h.advance
    · split at heq
      · split at heq
        · cases heq
          exact h.advanceBy 2
        · cases heq
          exact h.advance
      · cases heq
        exact h
  refine .guard .malformed (.guard .malformed ?_)
  have hskip := (hc'.skip (· == ' ')).skipComment
  dsimp only
  split
  · next hbreak => exact hskip.lineBreak? hbreak
  · exact hskip

theorem leadingBreaks_standsIn (h : c.StandsIn cs) (breaks : List Char) (widest : Nat) :
    (leadingBreaks c breaks widest).2.2.StandsIn cs := by
  fun_induction leadingBreaks c breaks widest with
  | case1 c breaks widest _ next _ ih => exact ih h.advance
  | case2 | case3 => exact h
  | case4 c breaks widest _ br next hbreak _ ih => exact ih (h.lineBreak? hbreak)
  | case5 => exact h

theorem blockBreaks_standsIn (indent : Nat) (h : c.StandsIn cs) (breaks : List Char) :
    (blockBreaks indent c breaks).2.StandsIn cs := by
  fun_induction blockBreaks indent c breaks with
  | case1 => exact h.advanceBy _
  | case2 c breaks c' br next hbreak _ ih => exact ih (StandsIn.lineBreak? (h.advanceBy _) hbreak)
  | case3 => exact h.advanceBy _

theorem blockLines_standsIn (folded : Bool) (indent : Nat) (chomping : Chomping)
    (h : c.StandsIn cs) : (blockLines folded indent chomping c).2.StandsIn cs := by
  -- A line is read with its end and the empty lines after it, whatever comes then.
  have hafter {c c₁ c₂ c₃ : Cursor} {line br further : List Char} (h : c.StandsIn cs)
      (hline : c.span (!isBreak ·) = (line, c₁)) (hbreak : c₁.lineBreak?.getD ([], c₁) = (br, c₂))
      (hfurther : blockBreaks indent c₂ [] = (further, c₃)) : c₃.StandsIn cs := by
    have h₁ := h.span (!isBreak ·)
    rw [hline] at h₁
    have h₂ : c₂.StandsIn cs := by
      cases hnext : c₁.lineBreak? with
      | none =>
        rw [hnext] at hbreak
        cases hbreak
        exact h₁
      | some r =>
        rw [hnext] at hbreak
        cases hbreak
        exact StandsIn.lineBreak? h₁ hnext
    have h₃ := blockBreaks_standsIn indent h₂ []
    rwa [hfurther] at h₃
  fun_induction blockLines folded indent chomping c with
  | case1 c _ line c₁ hline br c₂ hbreak further c₃ hfurther _ _ more last hmore ih =>
    have hlast := ih (hafter h hline hbreak hfurther)
    rwa [hmore] at hlast
  | case2 c line c₁ hline br c₂ hbreak further c₃ hfurther => exact hafter h hline hbreak hfurther
  | case3 c line c₁ hline br c₂ hbreak further c₃ hfurther => exact hafter h hline hbreak hfurther
  | case4 c line c₁ hline br c₂ hbreak further c₃ hfurther => exact hafter h hline hbreak hfurther

theorem readBlock_scans (folded : Bool) (indent : Int) (h : c.StandsIn cs) :
    Scans cs (readBlock folded indent c) := by
  unfold readBlock
  refine .bind (blockHead_scans h.advance) fun r hr => ?_
  split
  next chomping increment c' =>
  extract_lets least
  split
  next breaks column c'' heq =>
  have hc'' : c''.StandsIn cs := by
    split at heq
    · cases heq
      exact blockBreaks_standsIn _ hr []
    · cases heq
      exact leadingBreaks_standsIn hr [] 0
  split
  · have := blockLines_standsIn folded column chomping hc''
    exact this
  · exact hc''

end Treewalk.Yaml
