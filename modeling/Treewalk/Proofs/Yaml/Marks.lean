import Treewalk.Proofs.Yaml.Scanner

/-!
# The tokens of marks and scalars

What each kind of token makes of a configuration. A key is read together with its colon, because
only there does it turn out to be a key.
-/

namespace Treewalk.Yaml

open Cursor

variable {rest : List Char} {column flow : Nat} {x : Char}

/-! ## Starts -/

/-- Whether some characters start a plain scalar. -/
structure StartsPlain (inFlow : Bool) (x : Char) (tail : List Char) : Prop where
  print : IsPrint x
  ne_space : x ≠ ' '
  not_opening : x ∉ openingIndicators
  goes_on : x = '-' ∨ x = '?' ∨ x = ':' → ∃ y, tail.head? = some y ∧ IsPrint y ∧ y ≠ ' '
  outside : x = '?' ∨ x = ':' → inFlow = false

theorem StartsPlain.append {inFlow : Bool} {tail : List Char} (h : StartsPlain inFlow x tail)
    (rest : List Char) : StartsPlain inFlow x (tail ++ rest) where
  print := h.print
  ne_space := h.ne_space
  not_opening := h.not_opening
  goes_on hx := by
    obtain ⟨y, hy, hprint⟩ := h.goes_on hx
    exact ⟨y, by rw [List.head?_append, hy]; rfl, hprint⟩
  outside := h.outside

theorem plainGap_none {c : Cursor} (h : c.Before rest column) (hrest : StartsSolid rest) :
    plainGap c = ([], c, false) := by
  have hspan : c.span (· == ' ') = ([], c) :=
    span_nil h.rest_eq fun y hy => by simp [(hrest y hy).2]
  unfold plainGap
  rw [hspan]
  dsimp only
  rw [h.lineBreak?_eq_none hrest.startsPrinted]

/-- Whether some characters at the start of a line begin with a token, or there are none. -/
structure StartsLine (cs : List Char) : Prop where
  token : StartsToken cs
  unmarked : ∀ {c : Cursor} {column : Nat}, c.Before cs column → c.atDocumentMark = false

namespace TokenState

variable {s : TokenState} {c : Config}

/-! ## Single steps of a state -/

theorem not_atDocumentMark {cursor : Cursor} (h : cursor.Before (x :: rest) column)
    (hx : x ≠ '-' ∧ x ≠ '.') : cursor.atDocumentMark = false := by
  unfold atDocumentMark
  rw [h.rest_eq]
  split
  · next heq => exact absurd (List.cons.inj heq).1 hx.1
  · next heq => exact absurd (List.cons.inj heq).1 hx.2
  · rfl

/-- An indicator of one character. -/
theorem At.readIndicator (h : s.At c) (hrest : c.rest = x :: rest) (hx : IsPrint x) (t : Token) :
    (s.readIndicator 1 t).At
      ⟨rest, c.column + 1, c.flow, c.keyAllowed, c.blocks.push t⟩ := by
  have hbefore : s.cursor.Before (x :: rest) c.column := hrest ▸ h.before
  exact (h.push t).moveTo (hbefore.advance hx).1

/-- The number of brackets and what a key may do are set on their own. -/
theorem At.withFlow (h : s.At c) (flow : Nat) (allowed : Bool) :
    At { s with flow := flow, keyAllowed := allowed }
      ⟨c.rest, c.column, flow, allowed, c.blocks⟩ where
  before := h.before
  flow_eq := rfl
  keyAllowed_eq := rfl
  blocks_eq := h.blocks_eq
  count_eq := h.count_eq
  optional := h.optional

/-- A token does not leave its place where no blank stands in front of it. -/
theorem toNextToken_self {s : TokenState} (h : s.cursor.Before rest column)
    (hrest : StartsToken rest) : s.toNextToken = s := by
  have hspan : s.cursor.span (· == ' ') = ([], s.cursor) :=
    span_nil h.rest_eq fun y hy => by simp [(hrest y hy).2.1]
  have hskip : s.cursor.skipSpaces = s.cursor := by
    unfold skipSpaces skip
    rw [hspan]
  have hpeek : s.cursor.peek ≠ some '#' := by
    rw [h.peek_eq]
    exact fun hx => (hrest '#' hx).2.2 rfl
  have hbreak := h.lineBreak?_eq_none fun x hx => (hrest x hx).1
  rw [TokenState.toNextToken]
  unfold skipComment
  rw [hskip, if_neg hpeek, hbreak]
  rfl

theorem unwind_self {s : TokenState} {column : Int} (h : s.flow ≠ 0 ∨ s.indent ≤ column) :
    s.unwind column = s := by
  unfold TokenState.unwind
  by_cases hflow : s.flow = 0
  · have hle : ¬column < s.indent := by
      rcases h with h | h
      · exact absurd hflow h
      · exact Int.not_lt.mpr h
    rw [if_neg (not_not_intro hflow)]
    obtain ⟨cursor, flow, indent, outer, keyAllowed, candidates, tokens, count⟩ := s
    cases outer with
    | nil => rfl
    | cons o outer => rw [TokenState.unwind.go, if_neg hle]
  · rw [if_pos hflow]

/-- A character that is read as the start of a plain scalar. -/
theorem readToken_plain {s : TokenState} {c : Config} {tail : List Char} (hs : s.At c)
    (hrest : c.rest = x :: tail) (hx : StartsPlain (c.flow ≠ 0) x tail)
    (hcolumn : c.column ≠ 0 ∨ x ≠ '-' ∧ x ≠ '.') : s.readToken x = s.readPlainScalar := by
  have hbefore : s.cursor.Before (x :: tail) c.column := hrest ▸ hs.before
  have hmark : (s.cursor.column = 0 && s.cursor.atDocumentMark) = false := by
    rcases hcolumn with hcolumn | hcolumn
    · simp [hs.before.column_eq, hcolumn]
    · simp [not_atDocumentMark hbefore hcolumn]
  have hnext : x = '-' ∨ x = '?' ∨ x = ':' → endsIndicator (s.cursor.peekAt 1) = false := by
    intro h
    obtain ⟨y, hy, hprint, hspace⟩ := hx.goes_on h
    rw [hbefore.peekAt_eq, show (x :: tail)[1]? = tail.head? by cases tail <;> rfl, hy]
    simp [endsIndicator, hspace, hprint.ne_tab, hprint.isBreak_eq]
  have hflow : x = '?' ∨ x = ':' → s.flow = 0 := by
    intro h
    have := hx.outside h
    rw [hs.flow_eq]
    simpa using this
  have hplain : s.startsPlain x = true := by
    have hopening := hx.not_opening
    simp only [openingIndicators, List.mem_cons, List.not_mem_nil, or_false, not_or] at hopening
    unfold TokenState.startsPlain
    by_cases h : x = '-' ∨ x = '?' ∨ x = ':'
    · have hends := hnext h
      rcases h with rfl | rfl | rfl
      · simp [hends]
      · simp [hends, hflow (.inl rfl)]
      · simp [hends, hflow (.inr rfl)]
    · simp only [not_or] at h
      simp [hx.ne_space, hx.print.ne_tab, hx.print.isBreak_eq, hopening, h]
  have hopening := hx.not_opening
  simp only [openingIndicators, List.mem_cons, List.not_mem_nil, or_false, not_or] at hopening
  have hdash : (x = '-' && endsIndicator (s.cursor.peekAt 1)) = false := by
    by_cases h : x = '-'
    · simp [hnext (.inl h)]
    · simp [h]
  have hkey : (x = '?' && (s.flow ≠ 0 || endsIndicator (s.cursor.peekAt 1))) = false := by
    by_cases h : x = '?'
    · simp [hnext (.inr (.inl h)), hflow (.inl h)]
    · simp [h]
  have hvalue : (x = ':' && (s.flow ≠ 0 || endsIndicator (s.cursor.peekAt 1))) = false := by
    by_cases h : x = ':'
    · simp [hnext (.inr (.inr h)), hflow (.inr h)]
    · simp [h]
  unfold TokenState.readToken
  dsimp only
  rw [hmark, hdash, hkey, hvalue, hplain]
  simp [hopening]

/-- A plain scalar is read up to its end. -/
theorem readPlainScalar_eq {s : TokenState} {c : Config} {rest cs : List Char} {t : List Char}
    {least : Nat} (hs : s.At c) (hform : PlainForm (c.flow ≠ 0) least t cs)
    (hrest : c.rest = cs ++ rest) (hleast : 0 < least)
    (hfold : c.flow ≠ 0 ∨ c.blocks.indent < least)
    (hcolumn : c.flow ≠ 0 ∨ c.blocks.indent < c.column)
    (hword : plainWord (c.flow ≠ 0) rest = [])
    (hends : ∀ c' column', c'.Before rest column' →
      EndsPlain (c.flow ≠ 0) (c.blocks.indent + 1) c') :
    ∃ (s' : TokenState) (c' : Cursor) (column' : Nat), s'.At c ∧ c'.Before rest (column' + 1) ∧
      s.readPlainScalar = .ok (((s'.allowKey (plainGap c').2.2).push
        (.scalar (.ofChars t) true)).moveTo (plainGap c').2.1) := by
  obtain ⟨s', hsave, hs'⟩ := hs.saveCandidate (by
    rcases hcolumn with h | h
    · exact .inr (.inl h)
    · exact .inr (.inr (Int.ne_of_lt h)))
  obtain ⟨c', column', hc', heq⟩ := plainFrom_form hform hleast
    (hfold.imp decide_eq_true fun h => by omega) (hcolumn.imp decide_eq_true fun h => by omega)
    (hrest ▸ hs'.before) hword hends [] false
  refine ⟨s', c', column', hs', hc', ?_⟩
  unfold TokenState.readPlainScalar
  rw [hsave]
  dsimp only [bind, Except.bind]
  rw [hs'.flow_eq, hs'.indent_eq, heq]
  rfl

/-- Puts a token in front of the last ones. -/
theorem insert_eq {s : TokenState} {after before : List Token} {position : Nat}
    (htokens : s.tokens = after ++ before) (hcount : s.count = position + after.length)
    (t : Token) :
    s.insert position t = { s with tokens := after ++ t :: before, count := s.count + 1 } := by
  have hposition : s.count - position = after.length := by omega
  unfold TokenState.insert
  rw [hposition, htokens, List.splitAt_eq, List.take_left, List.drop_left]

/-- Begins a mapping in front of the last tokens, if it is to the right of the block around it. -/
theorem beginBlock_at {s : TokenState} {c : Config} (h : s.At c) {after before : List Token}
    (htokens : c.blocks.tokens = after ++ before) {position : Nat}
    (hposition : position = before.length) (column : Nat) (t : Token) :
    (s.beginBlock column position t).At (if c.blocks.indent < column then
      { c with blocks := ⟨column, c.blocks.indent :: c.blocks.outer, after ++ t :: before⟩ }
      else c) := by
  have htokens' : s.tokens = after ++ before := h.tokens_eq.trans htokens
  have hcount : s.count = position + after.length := by
    rw [h.count_eq, htokens', hposition, List.length_append, Nat.add_comm]
  unfold TokenState.beginBlock
  rw [h.indent_eq]
  split
  · have hinsert : (s.insert position t).At
        { c with blocks := ⟨c.blocks.indent, c.blocks.outer, after ++ t :: before⟩ } := by
      rw [insert_eq htokens' hcount]
      refine ⟨h.before, h.flow_eq, h.keyAllowed_eq, ?_, ?_, h.optional⟩
      · rw [← h.blocks_eq]
        rfl
      · rw [h.count_eq, htokens']
        simp only [List.length_append, List.length_cons]
        omega
    have houter : s.outer = c.blocks.outer := congrArg Blocks.outer h.blocks_eq
    rw [houter]
    exact hinsert.withBlocks _ _
  · exact h

/-- The colon behind a candidate makes it a key. -/
theorem readValue_eq {s : TokenState} {k : KeyCandidate} {candidates : List (Nat × KeyCandidate)}
    {scalar : Token} {tokens : List Token} (hs : s.cursor.Before (':' :: rest) column)
    (hcandidates : s.candidates = (s.flow, k) :: candidates)
    (hoptional : ∀ k ∈ candidates, k.2.required = false) (htokens : s.tokens = scalar :: tokens)
    (hcount : s.count = k.position + 1) (hposition : k.position = tokens.length) :
    ∃ next, s.readValue = .ok next ∧ next.At ⟨rest, column + 1, s.flow, false,
      (Blocks.keyed s.flow k.column ⟨s.indent, s.outer, tokens⟩).pushAll
        [.key, scalar, .value]⟩ := by
  have hlookup : s.candidates.lookup s.flow = some k := by
    rw [hcandidates, List.lookup_cons_self]
  have hfilter : ∀ k ∈ s.candidates.filter (·.1 != s.flow), k.2.required = false := by
    intro k hk
    obtain ⟨hmem, hne⟩ := List.mem_filter.mp hk
    rw [hcandidates] at hmem
    rcases List.mem_cons.mp hmem with rfl | hmem
    · simp at hne
    · exact hoptional k hmem
  have hinsert : TokenState.At { s.insert k.position .key with
      candidates := s.candidates.filter (·.1 != s.flow) }
      ⟨':' :: rest, column, s.flow, s.keyAllowed, s.indent, s.outer, scalar :: .key :: tokens⟩ := by
    have hafter : s.tokens = [scalar] ++ tokens := htokens
    rw [insert_eq hafter hcount]
    exact ⟨hs, rfl, rfl, rfl, by simp [hcount, hposition], hfilter⟩
  have hblock {s₁ : TokenState} (h : s₁.At
      ⟨':' :: rest, column, s.flow, s.keyAllowed, s.indent, s.outer, scalar :: .key :: tokens⟩) :
      (if s.flow = 0 then s₁.beginBlock k.column k.position .blockMap else s₁).At
        ⟨':' :: rest, column, s.flow, s.keyAllowed,
          (Blocks.keyed s.flow k.column ⟨s.indent, s.outer, tokens⟩).pushAll [.key, scalar]⟩ := by
    have hafter : scalar :: .key :: tokens = [scalar, .key] ++ tokens := rfl
    have hbegin := beginBlock_at h hafter hposition k.column .blockMap
    unfold Blocks.keyed
    by_cases hflow : s.flow = 0
    · rw [if_pos hflow]
      by_cases hindent : s.indent < k.column
      · rw [if_pos ⟨hflow, hindent⟩]
        rwa [if_pos hindent] at hbegin
      · rw [if_neg fun h => hindent h.2]
        rwa [if_neg hindent] at hbegin
    · rw [if_neg hflow, if_neg fun h => hflow h.1]
      exact h
  unfold TokenState.readValue
  rw [hlookup]
  exact ⟨_, rfl, ((hblock hinsert).allowKey false).readIndicator rfl (by decide) .value⟩

end TokenState

namespace Config

open TokenState

variable {allowed : Bool} {b : Blocks} {ts : List Token} {t : Token}

/-! ## Marks -/

/-- A bracket that is opened. -/
theorem Yields.of_open (hx : x = '[' ∧ t = .listOpen ∨ x = '\x7b' ∧ t = .mapOpen)
    (hsettled : flow ≠ 0 ∨ b.indent ≤ column)
    (hoptional : allowed = false ∨ flow ≠ 0 ∨ b.indent ≠ column)
    (h : Gives ⟨rest, column + 1, flow + 1, true, b.push t⟩ ts) :
    Yields ⟨x :: rest, column, flow, allowed, b⟩ ts := by
  refine h.of_token rfl hsettled (Nat.lt_succ_self _) fun s hs => ?_
  obtain ⟨s', hsave, hs'⟩ := hs.saveCandidate hoptional
  have hread : s.readToken x = s.readOpen t := by
    have hmark : s.cursor.atDocumentMark = false :=
      not_atDocumentMark hs.before (by rcases hx with ⟨rfl, -⟩ | ⟨rfl, -⟩ <;> decide)
    rcases hx with ⟨rfl, rfl⟩ | ⟨rfl, rfl⟩ <;> simp [TokenState.readToken, hmark]
  have hprint : IsPrint x := by rcases hx with ⟨rfl, -⟩ | ⟨rfl, -⟩ <;> decide
  rw [hread]
  unfold TokenState.readOpen
  rw [hsave]
  refine ⟨_, rfl, ?_⟩
  rw [hs'.flow_eq]
  exact (hs'.readIndicator rfl hprint t).withFlow _ _

/-- A bracket that is closed. -/
theorem Yields.of_close (hx : x = ']' ∧ t = .listClose ∨ x = '\x7d' ∧ t = .mapClose)
    (h : Gives ⟨rest, column + 1, flow, false, b.push t⟩ ts) :
    Yields ⟨x :: rest, column, flow + 1, allowed, b⟩ ts := by
  refine h.of_token rfl (.inl (Nat.succ_ne_zero _)) (Nat.lt_succ_self _) fun s hs => ?_
  obtain ⟨s', hdrop, hs'⟩ := hs.dropCandidate
  have hread : s.readToken x = s.readClose t := by
    have hmark : s.cursor.atDocumentMark = false :=
      not_atDocumentMark hs.before (by rcases hx with ⟨rfl, -⟩ | ⟨rfl, -⟩ <;> decide)
    rcases hx with ⟨rfl, rfl⟩ | ⟨rfl, rfl⟩ <;> simp [TokenState.readToken, hmark]
  have hprint : IsPrint x := by rcases hx with ⟨rfl, -⟩ | ⟨rfl, -⟩ <;> decide
  rw [hread]
  unfold TokenState.readClose
  rw [hdrop]
  refine ⟨_, rfl, ?_⟩
  rw [hs'.flow_eq]
  exact (hs'.readIndicator rfl hprint t).withFlow _ _

/-- A comma between brackets. -/
theorem Yields.of_comma (h : Gives ⟨rest, column + 1, flow + 1, true, b.push .comma⟩ ts) :
    Yields ⟨',' :: rest, column, flow + 1, allowed, b⟩ ts := by
  refine h.of_token rfl (.inl (Nat.succ_ne_zero _)) (Nat.lt_succ_self _) fun s hs => ?_
  obtain ⟨s', hdrop, hs'⟩ := (hs.allowKey true).dropCandidate
  have hmark : s.cursor.atDocumentMark = false :=
    not_atDocumentMark hs.before (by decide)
  have hread : s.readToken ',' = s.readComma := by simp [TokenState.readToken, hmark]
  rw [hread]
  unfold TokenState.readComma
  rw [hdrop]
  exact ⟨_, rfl, hs'.readIndicator rfl (by decide) .comma⟩

/-- The dash of a list that stands at the column of the mapping around it. -/
theorem Yields.of_dash (hindent : b.indent = column)
    (h : Gives ⟨' ' :: rest, column + 1, 0, true, b.push .dash⟩ ts) :
    Yields ⟨'-' :: ' ' :: rest, column, 0, true, b⟩ ts := by
  refine h.of_token rfl (.inr (Int.le_of_eq hindent)) (Nat.lt_succ_self _) fun s hs => ?_
  obtain ⟨s', hdrop, hs'⟩ := (hs.allowKey true).dropCandidate
  have hmark : s.cursor.atDocumentMark = false := by
    unfold atDocumentMark
    rw [hs.before.rest_eq]
    rfl
  have hends : endsIndicator (s.cursor.peekAt 1) = true := by
    rw [hs.before.peekAt_eq]
    rfl
  have hread : s.readToken '-' = s.readDash := by simp [TokenState.readToken, hmark, hends]
  have hopen : s.beginBlock s.cursor.column s.count .blockList = s := by
    unfold TokenState.beginBlock
    rw [if_neg]
    rw [hs.indent_eq, hs.before.column_eq, hindent]
    exact Int.lt_irrefl _
  rw [hread]
  unfold TokenState.readDash
  rw [hs.flow_eq, hs.keyAllowed_eq]
  simp only [decide_true, Bool.not_true, Bool.and_false, Bool.false_eq_true, if_false, if_true,
    hopen]
  rw [hdrop]
  exact ⟨_, rfl, hs'.readIndicator rfl (by decide) .dash⟩

/-! ## Scalars -/

/-- A scalar between quotes. -/
theorem Yields.of_quoted {u : Text} {cs : List Char} (hform : QuotedForm u cs)
    (hrest : rest.head? ≠ some '\'') (hsettled : flow ≠ 0 ∨ b.indent ≤ column)
    (hoptional : allowed = false ∨ flow ≠ 0 ∨ b.indent ≠ column)
    (h : ∀ column', Gives ⟨rest, column' + 1, flow, false, b.push (.scalar u false)⟩ ts) :
    Yields ⟨cs ++ rest, column, flow, allowed, b⟩ ts := by
  obtain ⟨x, v, rfl, hx⟩ : ∃ x v, cs = x :: v ∧ (x = '\'' ∨ x = '"') := by
    cases hform with
    | single => exact ⟨_, _, rfl, .inl rfl⟩
    | double => exact ⟨_, _, rfl, .inr rfl⟩
  refine .of_step rfl hsettled fun s hs => ?_
  obtain ⟨s', hsave, hs'⟩ := hs.saveCandidate hoptional
  obtain ⟨c', column', hquoted, hc'⟩ := readQuoted_form hform hs'.before hrest
  have hread : s.readToken x = s.readQuotedScalar := by
    have hmark : s.cursor.atDocumentMark = false :=
      not_atDocumentMark hs.before (by rcases hx with rfl | rfl <;> decide)
    rcases hx with rfl | rfl <;> simp [TokenState.readToken, hmark]
  refine ⟨((s'.allowKey false).push (.scalar u false)).moveTo c', ?_, ?_, ?_⟩
  · rw [hread]
    unfold TokenState.readQuotedScalar
    rw [hsave]
    dsimp only [bind, Except.bind]
    rw [hquoted]
    rfl
  · show c'.left < s.cursor.left
    rw [hc'.left_eq, hs.before.left_eq]
    simp only [List.length_append, List.length_cons]
    omega
  · exact h column' _ (((hs'.allowKey false).push _).moveTo hc')

/-- A plain scalar between brackets. -/
theorem Yields.of_plain_inside {least : Nat} {t tail : List Char}
    (hform : PlainForm true least t (x :: tail)) (hstarts : StartsPlain true x tail)
    (hleast : 0 < least) (hrest : ∃ y ∈ [',', ']', '\x7d'], rest.head? = some y)
    (hcolumn : column ≠ 0)
    (h : ∀ column', Gives ⟨rest, column' + 1, flow + 1, false, b.push (.scalar (.ofChars t) true)⟩
      ts) : Yields ⟨x :: (tail ++ rest), column, flow + 1, allowed, b⟩ ts := by
  have hflow : flow + 1 ≠ 0 := Nat.succ_ne_zero _
  have hinside : decide (flow + 1 ≠ 0) = true := decide_eq_true hflow
  have hsolid : StartsSolid rest := by
    obtain ⟨y, hy, hhead⟩ := hrest
    rintro z hz
    obtain rfl : y = z := by simpa [hhead] using hz
    have all : ∀ y ∈ [',', ']', '\x7d'], IsPrint y ∧ y ≠ ' ' := by decide
    exact all y hy
  have hword : plainWord true rest = [] := by
    obtain ⟨y, hy, hhead⟩ := hrest
    obtain ⟨rest, rfl⟩ : ∃ u, rest = y :: u := by
      cases rest with
      | nil => simp at hhead
      | cons z u => exact ⟨u, by rw [Option.some.inj hhead]⟩
    simp only [List.mem_cons, List.not_mem_nil, or_false] at hy
    rcases hy with rfl | rfl | rfl <;> simp [plainWord, isBreak]
  refine .of_step rfl (.inl hflow) fun s hs => ?_
  have hsplit : x :: (tail ++ rest) = (x :: tail) ++ rest := rfl
  obtain ⟨s', c', column', hs', hc', hread⟩ := readPlainScalar_eq (t := t) hs (hinside ▸ hform)
    hsplit hleast (.inl hflow) (.inl hflow) (hinside ▸ hword) fun c' column' hc' => by
      unfold EndsPlain
      rw [plainGap_none hc' hsolid]
      rfl
  rw [plainGap_none hc' hsolid] at hread
  refine ⟨_, (readToken_plain hs rfl (hinside ▸ hstarts.append rest) (.inl hcolumn)).trans hread,
    ?_, h column' _ (((hs'.allowKey false).push _).moveTo hc')⟩
  show c'.left < s.cursor.left
  rw [hc'.left_eq, hs.before.left_eq]
  simp only [List.length_append, List.length_cons]
  omega

/-- A plain scalar at the end of a line. -/
theorem Yields.of_plain_line {least k : Nat} {t tail : List Char}
    (hform : PlainForm false least t (x :: tail)) (hstarts : StartsPlain false x tail)
    (hleast : 0 < least) (hrest : StartsLine rest) (hindent : b.indent < least)
    (hcolumn : b.indent < column) (hpos : column ≠ 0) (hk : k ≤ b.indent)
    (h : Yields ⟨rest, k, 0, true, b.push (.scalar (.ofChars t) true)⟩ ts) :
    Yields ⟨x :: (tail ++ '\n' :: (spaces k ++ rest)), column, 0, allowed, b⟩ ts := by
  have hgap : ∀ {c' column'}, Before c' ('\n' :: (spaces k ++ rest)) column' →
      ∃ c'', plainGap c' = ([' '], c'', true) ∧ c''.Before rest k := by
    intro c' column' hc'
    refine plainGap_lineFeed k hc' (fun c'' hc'' => ?_) fun y hy =>
      ⟨(hrest.token y hy).1, (hrest.token y hy).2.1⟩
    cases k with
    | zero => exact hrest.unmarked hc''
    | succ k => exact not_atDocumentMark_spaces (Nat.succ_pos k) hc''
  refine .of_step rfl (.inr (Int.le_of_lt hcolumn)) fun s hs => ?_
  have hsplit : x :: (tail ++ '\n' :: (spaces k ++ rest)) =
      (x :: tail) ++ '\n' :: (spaces k ++ rest) := rfl
  obtain ⟨s', c', column', hs', hc', hread⟩ := readPlainScalar_eq (t := t) hs hform hsplit hleast
    (.inr hindent) (.inr hcolumn) (plainWord_lineFeed false _) fun c' column' hc' => by
      obtain ⟨c'', heq, hc''⟩ := hgap hc'
      have hless : (k : Int) < b.indent + 1 := by omega
      unfold EndsPlain
      rw [heq, hc''.column_eq]
      simp [hless]
  obtain ⟨c'', heq, hc''⟩ := hgap hc'
  rw [heq] at hread
  have hnext := ((hs'.allowKey true).push (.scalar (.ofChars t) true)).moveTo hc''
  refine ⟨_, (readToken_plain hs rfl (hstarts.append _) (.inl hpos)).trans hread, ?_,
    h _ (hnext.comes (.spaces 0 hrest.token))⟩
  show c''.left < s.cursor.left
  rw [hc''.left_eq, hs.before.left_eq]
  simp only [List.length_append, List.length_cons]
  omega

/-! ## Keys -/

/-- The most characters that a key may have. -/
def keyReach : Nat := 1024

/-- The colon behind a candidate that is not too far back. -/
theorem readTokens_colon {s : TokenState} {k : KeyCandidate}
    {candidates : List (Nat × KeyCandidate)} {scalar : Token} {tokens : List Token}
    (hs : s.cursor.Before (':' :: rest) column) (hrest : endsIndicator rest.head? = true)
    (hcandidates : s.candidates = (s.flow, k) :: candidates)
    (hoptional : ∀ k ∈ candidates, k.2.required = false) (hfresh : s.isStale k = false)
    (htokens : s.tokens = scalar :: tokens) (hcount : s.count = k.position + 1)
    (hposition : k.position = tokens.length) (hsettled : s.flow ≠ 0 ∨ s.indent ≤ column)
    (h : Gives ⟨rest, column + 1, s.flow, false,
      (Blocks.keyed s.flow k.column ⟨s.indent, s.outer, tokens⟩).pushAll
        [.key, scalar, .value]⟩ ts) :
    s.readTokens = ts := by
  have htoken : StartsToken (':' :: rest) := by
    rintro _ ⟨⟩
    decide
  have hdrop : s.toNextToken.dropStale = .ok { s with
      candidates := (s.flow, k) :: candidates.filter fun c => !s.isStale c.2 } := by
    rw [toNextToken_self hs htoken]
    unfold TokenState.dropStale
    rw [hcandidates, if_neg, List.filter_cons_of_pos (by simp [hfresh])]
    simp only [List.any_cons, hfresh, Bool.false_and, Bool.false_or, List.any_eq_true,
      Bool.and_eq_true, not_exists, not_and]
    intro k' hk' _
    simp [hoptional k' hk']
  obtain ⟨next, hvalue, hnext⟩ := readValue_eq (s := { s with
    candidates := (s.flow, k) :: candidates.filter fun c => !s.isStale c.2 }) hs rfl
    (fun k' hk' => hoptional k' (List.mem_filter.mp hk').1) htokens hcount hposition
  have hread : s.readNext = .ok (.inr next) := by
    have hmark : s.cursor.atDocumentMark = false :=
      not_atDocumentMark hs (by decide)
    have hpeek : s.cursor.peek = some ':' := hs.peek_eq
    have hends : endsIndicator (s.cursor.peekAt 1) = true := by
      rw [hs.peekAt_eq]
      show endsIndicator rest[0]? = true
      rwa [← List.head?_eq_getElem?]
    unfold TokenState.readNext
    rw [hdrop]
    dsimp only [bind, Except.bind]
    rw [unwind_self (by rw [hs.column_eq]; exact hsettled)]
    dsimp only
    rw [hpeek]
    dsimp only
    have hcolon : TokenState.readToken { s with
        candidates := (s.flow, k) :: candidates.filter fun c => !s.isStale c.2 } ':' =
        TokenState.readValue { s with
          candidates := (s.flow, k) :: candidates.filter fun c => !s.isStale c.2 } := by
      simp [TokenState.readToken, hmark, hends]
    rw [hcolon, hvalue]
    rfl
  have hless : next.cursor.left < s.cursor.left := by
    rw [hnext.before.left_eq, hs.left_eq]
    exact Nat.lt_succ_self _
  rw [TokenState.readTokens, hread]
  dsimp only
  rw [if_pos hless, h next hnext]

/-- A key and its colon. -/
theorem Yields.of_key {tail : List Char} (hword : IsWord (flow ≠ 0) (x :: tail))
    (hstarts : StartsPlain (flow ≠ 0) x tail) (hlength : (x :: tail).length ≤ keyReach)
    (hmark : column ≠ 0 ∨ x ≠ '-' ∧ x ≠ '.') (hsettled : flow ≠ 0 ∨ b.indent ≤ column)
    (hrest : rest.head? = some ' ' ∨ rest.head? = some '\n')
    (h : Gives ⟨rest, column + (x :: tail).length + 1, flow, false,
      (b.keyed flow column).pushAll [.key, .scalar (.ofChars (x :: tail)) true, .value]⟩ ts) :
    Yields ⟨x :: (tail ++ ':' :: rest), column, flow, true, b⟩ ts := by
  refine .of_step rfl hsettled fun s hs => ?_
  have hends : endsIndicator rest.head? = true := by
    rcases hrest with hrest | hrest <;> rw [hrest] <;> rfl
  have hbefore : s.cursor.Before ((x :: tail) ++ ':' :: rest) column := hs.before
  obtain ⟨hafter, hfurther⟩ := hbefore.advanceBy hword.print
  have hsolid : StartsSolid (':' :: rest) := .cons (by decide) (by decide) rest
  have hplain : plainFrom (flow ≠ 0) (b.indent + 1) [] false s.cursor =
      (x :: tail, s.cursor.advanceBy (x :: tail).length, false) :=
    plainFrom_last hword hbefore (by simp [plainWord, hends, isBreak]) (plainGap_none hafter hsolid)
      rfl
  obtain ⟨candidates, hsave, hoptional⟩ := hs.saveCandidate_eq rfl
  refine ⟨⟨s.cursor.advanceBy (x :: tail).length, s.flow, s.indent, s.outer, false,
    (s.flow, ⟨s.count, s.flow = 0 && s.indent == s.cursor.column, s.cursor.index, s.cursor.line,
      s.cursor.column⟩) :: candidates, .scalar (.ofChars (x :: tail)) true :: s.tokens,
    s.count + 1⟩, ?_, ?_, ?_⟩
  · rw [readToken_plain hs rfl (hstarts.append _) hmark]
    unfold TokenState.readPlainScalar
    rw [hsave]
    dsimp only [bind, Except.bind]
    rw [hs.flow_eq, hs.indent_eq, hplain]
    rfl
  · show (s.cursor.advanceBy (x :: tail).length).left < s.cursor.left
    rw [hafter.left_eq, hbefore.left_eq]
    simp only [List.length_append, List.length_cons]
    omega
  · -- The candidate is still fresh at the colon, because its line has not ended.
    refine readTokens_colon hafter hends rfl hoptional ?_ rfl rfl hs.count_eq ?_ ?_
    · have hreach : ¬1024 < s.cursor.index + (x :: tail).length - s.cursor.index := by
        unfold keyReach at hlength
        omega
      unfold TokenState.isStale
      rw [hfurther.line_eq, hfurther.index_eq]
      exact Bool.or_eq_false_iff.mpr ⟨by simp, decide_eq_false hreach⟩
    · refine hsettled.imp (fun h => hs.flow_eq ▸ h) fun h => ?_
      show s.indent ≤ _
      rw [hs.indent_eq]
      exact Int.le_trans h (by push_cast; omega)
    · have hblocks : (⟨s.indent, s.outer, s.tokens⟩ : Blocks) = b := hs.blocks_eq
      dsimp only
      rwa [hblocks, hs.flow_eq, hs.before.column_eq]

end Config

end Treewalk.Yaml
