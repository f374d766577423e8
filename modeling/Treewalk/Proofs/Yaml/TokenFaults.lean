import Treewalk.Proofs.Yaml.ScalarFaults
import Treewalk.Yaml.Tokens

/-!
# Why tokens cannot be scanned

Each step of reading tokens ends in a state that stands in the text, or with a fault of scanning. So
the tokens of a text hold no fault but one of scanning (`comeFrom_tokensOf`). A tag among them is
given by an exclamation mark, and no plain scalar ends with a line feed.
-/

namespace Treewalk.Yaml

open Cursor

variable {cs : List Char} {c : Cursor}

/-! ## Tokens -/

/-- Whether a token may come from a text: it holds no fault, a tag takes an exclamation mark, and no
plain scalar ends with a line feed. -/
def Token.ComesFrom (cs : List Char) : Token → Prop
  | .fault _ => False
  | .tag _ _ => '!' ∈ cs
  | .scalar t true => t.getLast? ≠ some (.char '\n')
  | _ => True

namespace TokenState

/-- Whether a state has read tokens of a text and stands in it. -/
structure IsIn (cs : List Char) (s : TokenState) : Prop where
  cursor : s.cursor.StandsIn cs
  tokens : ∀ t ∈ s.tokens, t.ComesFrom cs

/-- Whether a step of reading tokens ends in a state of the text, or with a fault of scanning. -/
abbrev Steps (cs : List Char) (x : Except YamlFault TokenState) : Prop :=
  Meets (CannotScan cs) (IsIn cs) x

variable {s : TokenState} {t : Token}

namespace IsIn

theorem push (h : s.IsIn cs) (ht : t.ComesFrom cs) : (s.push t).IsIn cs :=
  ⟨h.cursor, List.forall_mem_cons.mpr ⟨ht, h.tokens⟩⟩

theorem insert (h : s.IsIn cs) (ht : t.ComesFrom cs) (position : Nat) :
    (s.insert position t).IsIn cs := by
  have htokens : (s.insert position t).tokens =
      s.tokens.take (s.count - position) ++ t :: s.tokens.drop (s.count - position) := by
    simp [TokenState.insert, List.splitAt_eq]
  refine ⟨h.cursor, ?_⟩
  rw [htokens]
  refine List.forall_mem_append.mpr ⟨fun t' ht' => h.tokens t' (List.mem_of_mem_take ht'), ?_⟩
  exact List.forall_mem_cons.mpr ⟨ht, fun t' ht' => h.tokens t' (List.mem_of_mem_drop ht')⟩

theorem moveTo (h : s.IsIn cs) (hc : c.StandsIn cs) : (s.moveTo c).IsIn cs := ⟨hc, h.tokens⟩

theorem allowKey (h : s.IsIn cs) (allowed : Bool) : (s.allowKey allowed).IsIn cs :=
  ⟨h.cursor, h.tokens⟩

theorem withCandidates (h : s.IsIn cs) (candidates : List (Nat × KeyCandidate)) :
    IsIn cs { s with candidates := candidates } :=
  ⟨h.cursor, h.tokens⟩

theorem dropCandidate (h : s.IsIn cs) : Steps cs s.dropCandidate := by
  unfold TokenState.dropCandidate
  split
  · exact h
  · split
    · exact .malformed
    · exact h.withCandidates _

theorem dropStale (h : s.IsIn cs) : Steps cs s.dropStale := by
  unfold TokenState.dropStale
  split
  · exact .malformed
  · exact h.withCandidates _

theorem saveCandidate (h : s.IsIn cs) : Steps cs s.saveCandidate := by
  unfold TokenState.saveCandidate
  split
  · exact .bind h.dropCandidate fun _ hs => hs.withCandidates _
  · exact h

theorem unwind (h : s.IsIn cs) (column : Int) : (s.unwind column).IsIn cs := by
  have hgo : ∀ (outer : List Int) (s : TokenState), s.IsIn cs →
      (TokenState.unwind.go column s outer).IsIn cs := by
    intro outer
    induction outer with
    | nil => exact fun s h => ⟨h.cursor, h.tokens⟩
    | cons o outer ih =>
      intro s h
      unfold TokenState.unwind.go
      split
      · have hpush : (s.push .blockEnd).IsIn cs := h.push trivial
        exact ih _ ⟨hpush.cursor, hpush.tokens⟩
      · exact ⟨h.cursor, h.tokens⟩
  unfold TokenState.unwind
  split
  · exact h
  · exact hgo s.outer s h

theorem beginBlock (h : s.IsIn cs) (ht : t.ComesFrom cs) (column position : Nat) :
    (s.beginBlock column position t).IsIn cs := by
  unfold TokenState.beginBlock
  split
  · have hinsert := h.insert ht position
    exact ⟨hinsert.cursor, hinsert.tokens⟩
  · exact h

/-- A block collection is begun outside brackets only. -/
theorem beginBlock_if {p : Prop} [Decidable p] (h : s.IsIn cs) (ht : t.ComesFrom cs)
    (column position : Nat) : IsIn cs (if p then s.beginBlock column position t else s) := by
  split
  · exact h.beginBlock ht column position
  · exact h

theorem readIndicator (h : s.IsIn cs) (ht : t.ComesFrom cs) (length : Nat) :
    (s.readIndicator length t).IsIn cs :=
  (h.push ht).moveTo (h.cursor.advanceBy length)

theorem leaveBlocks (h : s.IsIn cs) : Steps cs s.leaveBlocks :=
  .bind (h.unwind (-1)).dropCandidate fun _ hs => hs.allowKey false

theorem readOpen (h : s.IsIn cs) (ht : t.ComesFrom cs) : Steps cs (s.readOpen t) := by
  refine .bind h.saveCandidate fun s' hs => ?_
  have hread := hs.readIndicator ht 1
  exact ⟨hread.cursor, hread.tokens⟩

theorem readClose (h : s.IsIn cs) (ht : t.ComesFrom cs) : Steps cs (s.readClose t) := by
  refine .bind h.dropCandidate fun s' hs => ?_
  have hread := hs.readIndicator ht 1
  exact ⟨hread.cursor, hread.tokens⟩

theorem readComma (h : s.IsIn cs) : Steps cs s.readComma :=
  .bind (h.allowKey true).dropCandidate fun _ hs => hs.readIndicator (t := .comma) trivial 1

theorem readDash (h : s.IsIn cs) : Steps cs s.readDash := by
  unfold TokenState.readDash
  refine .guard .malformed ?_
  have hblock := h.beginBlock_if (p := s.flow = 0) (t := .blockList) trivial s.cursor.column s.count
  refine .bind (hblock.allowKey true).dropCandidate fun s' hs => ?_
  exact hs.readIndicator (t := .dash) trivial 1

theorem readKey (h : s.IsIn cs) : Steps cs s.readKey := by
  unfold TokenState.readKey
  refine .guard .malformed ?_
  have hblock := h.beginBlock_if (p := s.flow = 0) (t := .blockMap) trivial s.cursor.column s.count
  refine .bind (hblock.allowKey _).dropCandidate fun s' hs => ?_
  exact hs.readIndicator (t := .key) trivial 1

theorem readValue (h : s.IsIn cs) : Steps cs s.readValue := by
  unfold TokenState.readValue
  split
  · next k _ =>
    have hkey := (h.insert (t := .key) trivial k.position).withCandidates
      (s.candidates.filter (·.1 != s.flow))
    have hblock := hkey.beginBlock_if (p := s.flow = 0) (t := .blockMap) trivial k.column k.position
    exact (hblock.allowKey false).readIndicator (t := .value) trivial 1
  · refine .guard .malformed ?_
    have hblock := h.beginBlock_if (p := s.flow = 0) (t := .blockMap) trivial s.cursor.column
      s.count
    refine .bind (hblock.allowKey _).dropCandidate fun s' hs => ?_
    exact hs.readIndicator (t := .value) trivial 1

theorem readName (h : s.IsIn cs) {token : String → Token}
    (ht : ∀ name, (token name).ComesFrom cs) : Steps cs (s.readName token) := by
  refine .bind h.saveCandidate fun s' hs => ?_
  refine .guard .malformed ?_
  exact ((hs.allowKey false).push (ht _)).moveTo (hs.cursor.advance.span _)

/-! ### Tags and directives -/

theorem readUri_scans (h : c.StandsIn cs) : Scans cs (readUri c) := by
  unfold readUri
  refine .guard .malformed ?_
  dsimp only
  split
  · exact .malformed
  · exact h.span _

theorem readHandle_scans (h : c.StandsIn cs) : Scans cs (readHandle c) := by
  unfold readHandle
  refine .guard .malformed (.ite (fun _ => h.advance) fun _ => ?_)
  refine .guard .malformed ?_
  exact (h.advance.span _).advance

theorem readVersionPart_scans (h : c.StandsIn cs) : Scans cs (readVersionPart c) := by
  unfold readVersionPart
  refine .guard .malformed (.guard (.longInteger _) ?_)
  exact h.span _

theorem readTag (h : s.IsIn cs) (hmark : '!' ∈ cs) : Steps cs s.readTag := by
  refine .bind h.saveCandidate fun s' hs => ?_
  have hc := hs.cursor
  refine .bind (Q := fun r => r.2.2.StandsIn cs) ?_ fun r hr => ?_
  · refine .ite (fun _ => ?_) fun _ => .ite (fun _ => hc.advance) fun _ =>
      .ite (fun _ => ?_) fun _ => ?_
    · -- the suffix in full, between angle brackets
      refine .bind (readUri_scans (hc.advanceBy 2)) fun r hr => ?_
      exact .guard .malformed hr.advance
    · -- a handle and a suffix
      refine .bind (readHandle_scans hc) fun r hr => ?_
      exact .bind (readUri_scans hr) fun r hr => hr
    · exact .bind (readUri_scans hc.advance) fun r hr => hr
  · refine .guard .malformed ?_
    exact ((hs.allowKey false).push (t := .tag _ _) hmark).moveTo hr

theorem readDirective (h : s.IsIn cs) : Steps cs s.readDirective := by
  refine .bind h.leaveBlocks fun s' hs => ?_
  have hname := hs.cursor.advance.span isNameChar
  refine .guard .malformed ?_
  refine .bind (Q := fun r => r.2.StandsIn cs) ?_ fun r hr => ?_
  · refine .ite (fun _ => ?_) fun _ => .ite (fun _ => ?_) fun _ => hname.skip _
    · refine .bind (readVersionPart_scans (hname.skip _)) fun r hr => ?_
      refine .guard .malformed ?_
      refine .bind (readVersionPart_scans hr.advance) fun r hr => ?_
      exact .guard .malformed hr
    · refine .bind (readHandle_scans (hname.skip _)) fun r hr => ?_
      refine .guard .malformed ?_
      refine .bind (readUri_scans (hr.skip _)) fun r hr => ?_
      exact .guard .malformed hr
  · refine .guard .malformed ?_
    have hskip := (hr.skip (· == ' ')).skipComment
    refine (hs.push (t := .directive r.1) trivial).moveTo ?_
    split
    · next hbreak => exact hskip.lineBreak? hbreak
    · exact hskip

/-! ### Scalars -/

theorem readBlockScalar (h : s.IsIn cs) (folded : Bool) : Steps cs (s.readBlockScalar folded) := by
  refine .bind (h.allowKey true).dropCandidate fun s' hs => ?_
  refine .bind (readBlock_scans folded s'.indent hs.cursor) fun r hr => ?_
  exact (hs.push (t := .scalar _ false) trivial).moveTo hr

theorem readQuotedScalar (h : s.IsIn cs) : Steps cs s.readQuotedScalar := by
  refine .bind h.saveCandidate fun s' hs => ?_
  refine .bind (readQuoted_scans hs.cursor) fun r hr => ?_
  exact ((hs.allowKey false).push (t := .scalar _ false) trivial).moveTo hr

theorem readPlainScalar (h : s.IsIn cs) : Steps cs s.readPlainScalar := by
  refine .bind h.saveCandidate fun s' hs => ?_
  have hplain := plainFrom_standsIn hs.cursor (s'.flow ≠ 0) (s'.indent + 1) [] false
  refine ((hs.allowKey _).push (t := .scalar _ true) ?_).moveTo hplain
  intro hlast
  rw [Text.ofChars, List.getLast?_map] at hlast
  obtain ⟨x, hx, heq⟩ := Option.map_eq_some_iff.mp hlast
  cases heq
  cases isBreak_of_mem_getLast?_plainFrom _ _ _ _ _ _ hx

/-! ### All tokens -/

theorem toNextToken (h : s.IsIn cs) : s.toNextToken.IsIn cs := by
  fun_induction TokenState.toNextToken s with
  | case1 s c _ => exact h.moveTo (h.cursor.skip _).skipComment
  | case2 s c br next hbreak _ ih =>
    exact ih ⟨(h.cursor.skip _).skipComment.lineBreak? hbreak, h.tokens⟩
  | case3 s c br next hbreak _ => exact h.moveTo (h.cursor.skip _).skipComment

theorem readToken {x : Char} (h : s.IsIn cs) (hx : s.cursor.peek = some x) :
    Steps cs (s.readToken x) := by
  have hmark : x = '!' → '!' ∈ cs := by
    rintro rfl
    exact h.cursor.subset (List.mem_of_mem_head? hx)
  refine .ite (fun _ => h.readDirective) fun _ => .ite (fun _ => ?_) fun _ => ?_
  · refine .bind h.leaveBlocks fun s' hs => ?_
    refine hs.readIndicator ?_ 3
    split
    · trivial
    · trivial
  refine .ite (fun _ => h.readOpen trivial) fun _ => .ite (fun _ => h.readOpen trivial) fun _ => ?_
  refine .ite (fun _ => h.readClose trivial) fun _ => ?_
  refine .ite (fun _ => h.readClose trivial) fun _ => ?_
  refine .ite (fun _ => h.readComma) fun _ => .ite (fun _ => h.readDash) fun _ => ?_
  refine .ite (fun _ => h.readKey) fun _ => .ite (fun _ => h.readValue) fun _ => ?_
  refine .ite (fun _ => h.readName fun _ => trivial) fun _ => ?_
  refine .ite (fun _ => h.readName fun _ => trivial) fun _ => ?_
  refine .ite (fun hx => h.readTag (hmark hx)) fun _ => ?_
  refine .ite (fun _ => h.readBlockScalar false) fun _ => ?_
  refine .ite (fun _ => h.readBlockScalar true) fun _ => ?_
  refine .ite (fun _ => h.readQuotedScalar) fun _ => ?_
  exact .ite (fun _ => h.readPlainScalar) fun _ => .malformed

theorem readNext (h : s.IsIn cs) :
    Meets (CannotScan cs) (Sum.elim (IsIn cs) (IsIn cs)) s.readNext := by
  refine .bind h.toNextToken.dropStale fun s' hs => ?_
  have hunwind := hs.unwind s'.cursor.column
  dsimp only
  split
  · exact .bind hunwind.leaveBlocks fun _ hlast => hlast
  · next hx => exact .bind (hunwind.readToken hx) fun _ hnext => hnext

end IsIn

/-- Whether tokens come from a text, but for a fault of scanning. -/
def ComeFrom (cs : List Char) (ts : List Token) : Prop :=
  ∀ t ∈ ts, t.ComesFrom cs ∨ ∃ f, t = .fault f ∧ CannotScan cs f

theorem IsIn.fail (h : s.IsIn cs) {f : YamlFault} (hf : CannotScan cs f) :
    ComeFrom cs (s.fail f) := by
  intro t ht
  rcases List.mem_cons.mp (List.mem_reverse.mp ht) with rfl | ht
  · exact .inr ⟨f, rfl, hf⟩
  · exact .inl (h.tokens t (List.mem_of_mem_drop ht))

theorem IsIn.readTokens (h : s.IsIn cs) : ComeFrom cs s.readTokens := by
  fun_induction TokenState.readTokens s with
  | case1 s f hnext => exact h.fail (h.readNext.of_error hnext)
  | case2 s last hnext =>
    have hlast : last.IsIn cs := h.readNext.of_ok hnext
    intro t ht
    rcases List.mem_cons.mp (List.mem_reverse.mp ht) with rfl | ht
    · exact .inl trivial
    · exact .inl (hlast.tokens t ht)
  | case3 s next hnext _ ih => exact ih (h.readNext.of_ok hnext)
  | case4 s next hnext _ => exact h.fail .malformed

end TokenState

end Treewalk.Yaml
