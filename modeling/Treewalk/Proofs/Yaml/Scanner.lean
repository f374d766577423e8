import Treewalk.Proofs.Yaml.Double
import Treewalk.Yaml.Tokens

/-!
# Scanning

What the tokens of a text depend on is little of the state that reads them (`Config`): what is left
of the text, the column, how many brackets are open, whether a key may start, the open block
collections and the tokens so far. `c.Gives ts` says that every state at a configuration ends with
the tokens `ts`. `c.Yields ts` says the same where blanks may still stand in front of the
configuration and block collections to the right of it may still be open; these end before the next
token is read, and so their ends may be counted early (`Config.Yields.pop`).

The steps are stated backwards: if the configuration behind a token gives certain tokens, then so
does the one in front of it.
-/

namespace Treewalk.Yaml

open Cursor

/-! ## Block collections -/

/-- The open block collections, and the tokens so far with the last one first. -/
structure Blocks where
  indent : Int
  outer : List Int
  tokens : List Token

namespace Blocks

/-- Adds a token. -/
def push (b : Blocks) (t : Token) : Blocks := { b with tokens := t :: b.tokens }

/-- Adds tokens. -/
def pushAll (b : Blocks) (ts : List Token) : Blocks := { b with tokens := ts.reverse ++ b.tokens }

/-- Ends the block collections to the right of a column; the last argument is `outer`. -/
def unwindFrom (column : Int) (indent : Int) (tokens : List Token) : List Int → Blocks
  | [] => ⟨indent, [], tokens⟩
  | o :: outer =>
    if column < indent then unwindFrom column o (.blockEnd :: tokens) outer
    else ⟨indent, o :: outer, tokens⟩

/-- Ends the block collections to the right of a column. -/
def unwind (column : Int) (b : Blocks) : Blocks := unwindFrom column b.indent b.tokens b.outer

/-- The blocks at a key. Outside brackets, a key to the right of the block around it begins a
mapping. -/
def keyed (flow column : Nat) (b : Blocks) : Blocks :=
  if flow = 0 ∧ b.indent < column then ⟨column, b.indent :: b.outer, .blockMap :: b.tokens⟩ else b

theorem unwind_of_le {column : Int} {b : Blocks} (h : b.indent ≤ column) : b.unwind column = b := by
  obtain ⟨indent, outer, tokens⟩ := b
  cases outer with
  | nil => rfl
  | cons o outer => exact if_neg (Int.not_lt.mpr h)

theorem unwind_pop {column indent o : Int} {outer : List Int} {tokens : List Token}
    (h : column < indent) : unwind column ⟨indent, o :: outer, tokens⟩ =
      unwind column ⟨o, outer, .blockEnd :: tokens⟩ :=
  if_pos h

theorem pushAll_pushAll (b : Blocks) (ts us : List Token) :
    (b.pushAll ts).pushAll us = b.pushAll (ts ++ us) := by
  simp [pushAll]

theorem push_eq (b : Blocks) (t : Token) : b.push t = b.pushAll [t] := rfl

end Blocks

/-! ## Configurations -/

/-- What the tokens depend on. -/
structure Config where
  rest : List Char
  column : Nat
  /-- The number of open brackets. -/
  flow : Nat
  keyAllowed : Bool
  blocks : Blocks

/-- The block collections that are still open at a token. Brackets keep all of them open. -/
def Config.settled (c : Config) : Config :=
  if c.flow = 0 then { c with blocks := c.blocks.unwind c.column } else c

namespace TokenState

/-- The open block collections and the tokens of a state. -/
def blocks (s : TokenState) : Blocks := ⟨s.indent, s.outer, s.tokens⟩

/-- Whether a state is at a configuration. No candidate may be left that has to become a key. -/
structure At (s : TokenState) (c : Config) : Prop where
  before : s.cursor.Before c.rest c.column
  flow_eq : s.flow = c.flow
  keyAllowed_eq : s.keyAllowed = c.keyAllowed
  blocks_eq : s.blocks = c.blocks
  count_eq : s.count = s.tokens.length
  optional : ∀ k ∈ s.candidates, k.2.required = false

variable {s : TokenState} {c : Config}

namespace At

theorem indent_eq (h : s.At c) : s.indent = c.blocks.indent := congrArg Blocks.indent h.blocks_eq

theorem tokens_eq (h : s.At c) : s.tokens = c.blocks.tokens := congrArg Blocks.tokens h.blocks_eq

theorem push (h : s.At c) (t : Token) : (s.push t).At { c with blocks := c.blocks.push t } where
  before := h.before
  flow_eq := h.flow_eq
  keyAllowed_eq := h.keyAllowed_eq
  blocks_eq := by rw [← h.blocks_eq]; rfl
  count_eq := congrArg (· + 1) h.count_eq
  optional := h.optional

theorem moveTo (h : s.At c) {cursor : Cursor} {rest : List Char} {column : Nat}
    (hc : cursor.Before rest column) :
    (s.moveTo cursor).At { c with rest := rest, column := column } where
  before := hc
  flow_eq := h.flow_eq
  keyAllowed_eq := h.keyAllowed_eq
  blocks_eq := h.blocks_eq
  count_eq := h.count_eq
  optional := h.optional

theorem allowKey (h : s.At c) (allowed : Bool) :
    (s.allowKey allowed).At { c with keyAllowed := allowed } where
  before := h.before
  flow_eq := h.flow_eq
  keyAllowed_eq := rfl
  blocks_eq := h.blocks_eq
  count_eq := h.count_eq
  optional := h.optional

/-- The candidates of a state do not matter, as long as none has to become a key. -/
theorem withCandidates (h : s.At c) {candidates : List (Nat × KeyCandidate)}
    (hcandidates : ∀ k ∈ candidates, k.2.required = false) :
    At { s with candidates := candidates } c where
  before := h.before
  flow_eq := h.flow_eq
  keyAllowed_eq := h.keyAllowed_eq
  blocks_eq := h.blocks_eq
  count_eq := h.count_eq
  optional := hcandidates

theorem filter (h : s.At c) (p : Nat × KeyCandidate → Bool) :
    At { s with candidates := s.candidates.filter p } c :=
  h.withCandidates fun k hk => h.optional k (List.mem_filter.mp hk).1

/-- Giving a candidate up changes nothing but the candidates. -/
theorem dropCandidate_eq (h : s.At c) :
    ∃ candidates, s.dropCandidate = .ok { s with candidates := candidates } ∧
      ∀ k ∈ candidates, k.2.required = false := by
  unfold TokenState.dropCandidate
  cases hlookup : s.candidates.lookup s.flow with
  | none => exact ⟨s.candidates, rfl, h.optional⟩
  | some k =>
    obtain ⟨before, after, heq, -⟩ := List.lookup_eq_some_iff.mp hlookup
    have hk : k.required = false := h.optional (s.flow, k) (by rw [heq]; simp)
    refine ⟨_, by dsimp only; rw [hk, if_neg Bool.false_ne_true], (h.filter _).optional⟩

theorem dropCandidate (h : s.At c) : ∃ s', s.dropCandidate = .ok s' ∧ s'.At c := by
  obtain ⟨candidates, hdrop, hcandidates⟩ := h.dropCandidate_eq
  exact ⟨_, hdrop, h.withCandidates hcandidates⟩

theorem dropStale (h : s.At c) :
    s.dropStale =
        .ok { s with candidates := s.candidates.filter fun (_, k) => !s.isStale k } ∧
      At { s with candidates := s.candidates.filter fun (_, k) => !s.isStale k } c := by
  refine ⟨?_, h.filter _⟩
  unfold TokenState.dropStale
  rw [if_neg]
  simp only [List.any_eq_true, Bool.and_eq_true, not_exists, not_and]
  intro k hk _
  simp [h.optional k hk]

/-- Where a key may start, the place becomes a candidate. -/
theorem saveCandidate_eq (h : s.At c) (hallowed : c.keyAllowed = true) :
    ∃ candidates, s.saveCandidate = .ok
        { s with candidates := (s.flow, ⟨s.count, s.flow = 0 && s.indent == s.cursor.column,
            s.cursor.index, s.cursor.line, s.cursor.column⟩) :: candidates } ∧
      ∀ k ∈ candidates, k.2.required = false := by
  obtain ⟨candidates, hdrop, hcandidates⟩ := h.dropCandidate_eq
  refine ⟨candidates, ?_, hcandidates⟩
  unfold TokenState.saveCandidate
  rw [if_pos (h.keyAllowed_eq.trans hallowed)]
  dsimp only
  rw [hdrop]
  rfl

/-- A candidate that does not have to become a key. -/
theorem saveCandidate (h : s.At c)
    (hoptional : c.keyAllowed = false ∨ c.flow ≠ 0 ∨ c.blocks.indent ≠ c.column) :
    ∃ s', s.saveCandidate = .ok s' ∧ s'.At c := by
  cases hallowed : c.keyAllowed with
  | false =>
    refine ⟨s, ?_, h⟩
    unfold TokenState.saveCandidate
    rw [h.keyAllowed_eq, hallowed, if_neg Bool.false_ne_true]
  | true =>
    obtain ⟨candidates, hsave, hcandidates⟩ := h.saveCandidate_eq hallowed
    have hrequired : (s.flow = 0 && s.indent == (s.cursor.column : Int)) = false := by
      rw [h.flow_eq, h.indent_eq, h.before.column_eq]
      rcases hoptional with hoptional | hoptional | hoptional
      · simp [hallowed] at hoptional
      · simp [hoptional]
      · simp [hoptional]
    exact ⟨_, hsave, h.withCandidates (List.forall_mem_cons.mpr ⟨hrequired, hcandidates⟩)⟩

theorem withBlocks (h : s.At c) (indent : Int) (outer : List Int) :
    At { s with indent := indent, outer := outer }
      { c with blocks := ⟨indent, outer, c.blocks.tokens⟩ } where
  before := h.before
  flow_eq := h.flow_eq
  keyAllowed_eq := h.keyAllowed_eq
  blocks_eq := by rw [← h.tokens_eq]; rfl
  count_eq := h.count_eq
  optional := h.optional

theorem unwind_go (h : s.At c) (column : Int) (outer : List Int) :
    (TokenState.unwind.go column s outer).At
      { c with blocks := Blocks.unwindFrom column c.blocks.indent c.blocks.tokens outer } := by
  induction outer generalizing s c with
  | nil =>
    rw [Blocks.unwindFrom, ← h.indent_eq]
    exact h.withBlocks _ _
  | cons o outer ih =>
    rw [TokenState.unwind.go, Blocks.unwindFrom, h.indent_eq]
    split
    · exact ih ((h.push .blockEnd).withBlocks o _)
    · rw [← h.indent_eq]
      exact h.withBlocks _ _

/-- Outside brackets, the block collections to the right of a column are ended. -/
theorem unwindTo (h : s.At c) (hflow : c.flow = 0) (column : Int) :
    (s.unwind column).At { c with blocks := c.blocks.unwind column } := by
  have houter : s.outer = c.blocks.outer := congrArg Blocks.outer h.blocks_eq
  unfold TokenState.unwind
  rw [if_neg (not_not_intro (h.flow_eq.trans hflow)), houter]
  exact h.unwind_go _ _

/-- The block collections to the right of a token end in front of it. -/
theorem unwind (h : s.At c) : (s.unwind s.cursor.column).At c.settled := by
  unfold Config.settled
  by_cases hflow : c.flow = 0
  · rw [if_pos hflow, h.before.column_eq]
    exact h.unwindTo hflow _
  · unfold TokenState.unwind
    rw [if_neg hflow, if_pos (h.flow_eq ▸ hflow)]
    exact h

end At

end TokenState

/-! ## Blanks -/

/-- Whether some characters start with a token, or there are none. -/
def StartsToken (cs : List Char) : Prop := ∀ x ∈ cs.head?, IsPrint x ∧ x ≠ ' ' ∧ x ≠ '#'

/-- Whether nothing but blanks stands between two configurations. -/
inductive Config.Skips : Config → Config → Prop where
  | spaces {rest column flow keyAllowed blocks} (n : Nat) : StartsToken rest →
    Skips ⟨Yaml.spaces n ++ rest, column, flow, keyAllowed, blocks⟩
      ⟨rest, column + n, flow, keyAllowed, blocks⟩
  | line {rest column flow keyAllowed blocks} (n : Nat) : StartsToken rest →
    Skips ⟨'\n' :: (Yaml.spaces n ++ rest), column, flow, keyAllowed, blocks⟩
      ⟨rest, n, flow, keyAllowed || flow = 0, blocks⟩

namespace TokenState

variable {s : TokenState} {c r : Config} {rest : List Char} {column : Nat}

theorem skipSpaces_before {cursor : Cursor} (n : Nat)
    (h : cursor.Before (spaces n ++ rest) column) (hrest : ∀ x ∈ rest.head?, x ≠ ' ') :
    cursor.skipSpaces.Before rest (column + n) := by
  have hspan : cursor.span (· == ' ') = (spaces n, cursor.advanceBy (spaces n).length) := by
    refine span_eq h.rest_eq (fun x hx => ?_) fun x hx => by simp [hrest x hx]
    simp [List.eq_of_mem_replicate hx]
  obtain ⟨hafter, -⟩ := h.advanceBy Pen.isPrint_spaces
  unfold skipSpaces skip
  rw [hspan]
  simpa using hafter

/-- Spaces in front of a token. -/
theorem toNextToken_spaces (n : Nat) (h : s.cursor.Before (spaces n ++ rest) column)
    (hrest : StartsToken rest) :
    ∃ c', s.toNextToken = s.moveTo c' ∧ c'.Before rest (column + n) := by
  have hskip := skipSpaces_before n h fun x hx => (hrest x hx).2.1
  have hpeek : s.cursor.skipSpaces.peek ≠ some '#' := by
    rw [hskip.peek_eq]
    exact fun hx => (hrest '#' hx).2.2 rfl
  have hbreak := hskip.lineBreak?_eq_none fun x hx => (hrest x hx).1
  refine ⟨s.cursor.skipSpaces, ?_, hskip⟩
  rw [toNextToken]
  unfold skipComment
  rw [if_neg hpeek, hbreak]

/-- The end of a line, and the spaces in front of a token on the next one. -/
theorem toNextToken_line (n : Nat) (h : s.cursor.Before ('\n' :: (spaces n ++ rest)) column)
    (hrest : StartsToken rest) :
    ∃ c', s.toNextToken = (s.allowKey (s.keyAllowed || s.flow = 0)).moveTo c' ∧
      c'.Before rest n := by
  have hskip : s.cursor.skipSpaces.Before ('\n' :: (spaces n ++ rest)) column :=
    skipSpaces_before 0 h (by simp)
  have hpeek : s.cursor.skipSpaces.peek ≠ some '#' := by
    rw [hskip.peek_eq]
    simp
  have hnext := hskip.advance_lineFeed
  have hless : s.cursor.skipSpaces.advance.left < s.cursor.left := by
    rw [hnext.left_eq, h.left_eq]
    exact Nat.lt_succ_self _
  obtain ⟨c', heq, hc'⟩ := toNextToken_spaces (s :=
    { s with cursor := s.cursor.skipSpaces.advance, keyAllowed := s.keyAllowed || s.flow = 0 })
    n hnext hrest
  refine ⟨c', ?_, by simpa using hc'⟩
  rw [toNextToken]
  unfold skipComment
  rw [if_neg hpeek, hskip.lineBreak?_lineFeed]
  dsimp only
  rw [if_pos hless, heq]
  rfl

theorem At.toNextToken (h : s.At r) (hskips : r.Skips c) :
    s.toNextToken.At c ∧ s.toNextToken.cursor.left ≤ s.cursor.left := by
  cases hskips with
  | spaces n hrest =>
    obtain ⟨c', heq, hc'⟩ := toNextToken_spaces n h.before hrest
    rw [heq]
    refine ⟨h.moveTo hc', ?_⟩
    show c'.left ≤ s.cursor.left
    rw [hc'.left_eq, h.before.left_eq]
    simp
  | line n hrest =>
    obtain ⟨c', heq, hc'⟩ := toNextToken_line n h.before hrest
    rw [heq, h.keyAllowed_eq, h.flow_eq]
    refine ⟨(h.allowKey _).moveTo hc', ?_⟩
    show c'.left ≤ s.cursor.left
    rw [hc'.left_eq, h.before.left_eq]
    simp only [List.length_append, List.length_cons]
    omega

/-- Whether a state is in front of a configuration: what is left is to skip blanks, and to end the
block collections to the right of it. -/
def Comes (s : TokenState) (c : Config) : Prop :=
  ∃ s', s.toNextToken.dropStale = .ok s' ∧ (s'.unwind s'.cursor.column).At c.settled ∧
    (s'.unwind s'.cursor.column).cursor.left ≤ s.cursor.left

theorem At.comes (h : s.At r) (hskips : r.Skips c) : s.Comes c := by
  obtain ⟨hnext, hleft⟩ := h.toNextToken hskips
  obtain ⟨hdrop, hdropped⟩ := hnext.dropStale
  refine ⟨_, hdrop, hdropped.unwind, ?_⟩
  rw [hdropped.unwind.before.left_eq]
  rw [hnext.before.left_eq] at hleft
  unfold Config.settled
  split <;> exact hleft

end TokenState

namespace Config

/-- Whether all states at a configuration end with certain tokens. -/
def Gives (r : Config) (ts : List Token) : Prop := ∀ s : TokenState, s.At r → s.readTokens = ts

/-- Whether all states in front of a configuration end with certain tokens. -/
def Yields (c : Config) (ts : List Token) : Prop :=
  ∀ s : TokenState, s.Comes c → s.readTokens = ts

variable {c r : Config} {ts : List Token}

theorem Yields.gives (h : c.Yields ts) (hskips : r.Skips c) : r.Gives ts :=
  fun s hs => h s (hs.comes hskips)

/-- The end of a block collection to the right may be counted early. -/
theorem Yields.pop {rest : List Char} {column : Nat} {allowed : Bool} {indent o : Int}
    {outer : List Int} {tokens : List Token} (hcolumn : column < indent)
    (h : Yields ⟨rest, column, 0, allowed, o, outer, .blockEnd :: tokens⟩ ts) :
    Yields ⟨rest, column, 0, allowed, indent, o :: outer, tokens⟩ ts := by
  intro s hs
  refine h s ?_
  unfold TokenState.Comes settled at hs ⊢
  rwa [if_pos rfl, Blocks.unwind_pop hcolumn] at hs

/-- Where no block collection ends, a configuration is read on from itself. -/
theorem settled_eq (h : c.flow ≠ 0 ∨ c.blocks.indent ≤ c.column) : c.settled = c := by
  unfold settled
  rcases h with h | h
  · rw [if_neg h]
  · rw [Blocks.unwind_of_le h]
    split <;> rfl

/-- One token, or several of them. -/
theorem Yields.of_step {x : Char} {tail : List Char} (hrest : c.rest = x :: tail)
    (hsettled : c.flow ≠ 0 ∨ c.blocks.indent ≤ c.column)
    (h : ∀ s : TokenState, s.At c → ∃ next, s.readToken x = .ok next ∧
      next.cursor.left < s.cursor.left ∧ next.readTokens = ts) : c.Yields ts := by
  rintro s ⟨s', hdrop, hat, hleft⟩
  rw [settled_eq hsettled] at hat
  obtain ⟨next, hread, hless, htokens⟩ := h _ hat
  have hpeek : (s'.unwind s'.cursor.column).cursor.peek = some x := by
    rw [hat.before.peek_eq, hrest]
    rfl
  have hnext : s.readNext = .ok (.inr next) := by
    unfold TokenState.readNext
    rw [hdrop]
    dsimp only [bind, Except.bind]
    rw [hpeek]
    dsimp only
    rw [hread]
    rfl
  rw [TokenState.readTokens, hnext]
  dsimp only
  rw [if_pos (Nat.lt_of_lt_of_le hless hleft), htokens]

/-- One token. -/
theorem Gives.of_token {x : Char} {tail : List Char} (hr : r.Gives ts) (hrest : c.rest = x :: tail)
    (hsettled : c.flow ≠ 0 ∨ c.blocks.indent ≤ c.column) (hless : r.rest.length < c.rest.length)
    (h : ∀ s : TokenState, s.At c → ∃ next, s.readToken x = .ok next ∧ next.At r) :
    c.Yields ts := by
  refine .of_step hrest hsettled fun s hs => ?_
  obtain ⟨next, hread, hnext⟩ := h s hs
  refine ⟨next, hread, ?_, hr next hnext⟩
  rw [hnext.before.left_eq, hs.before.left_eq]
  exact hless

/-- The end of the text. -/
theorem Yields.finish {column : Nat} {allowed : Bool} {b : Blocks} (hb : b.indent ≤ column) :
    Yields ⟨[], column, 0, allowed, b⟩ (Token.finish :: (b.unwind (-1)).tokens).reverse := by
  rintro s ⟨s', hdrop, hat, -⟩
  rw [settled_eq (.inr hb)] at hat
  obtain ⟨last, hlast, hend⟩ := (hat.unwindTo rfl (-1)).dropCandidate
  have hpeek : (s'.unwind s'.cursor.column).cursor.peek = none := hat.before.peek_eq
  have hnext : s.readNext = .ok (.inl (last.allowKey false)) := by
    unfold TokenState.readNext TokenState.leaveBlocks
    rw [hdrop]
    dsimp only [bind, Except.bind]
    rw [hpeek]
    dsimp only
    rw [hlast]
    rfl
  rw [TokenState.readTokens, hnext]
  exact congrArg (fun tokens => (Token.finish :: tokens).reverse) hend.tokens_eq

end Config

end Treewalk.Yaml
