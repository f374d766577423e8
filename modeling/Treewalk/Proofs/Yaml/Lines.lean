import Treewalk.Proofs.Yaml.Inside

/-!
# Collections on lines of their own

What is written of a collection line by line is scanned as its tokens. The entries of a mapping
start at one column, and what belongs to a value stands further to the right; only a list that is a
value has its dashes at the column of its key. Where the next line starts further to the left, the
mapping ends.

The text of a whole outline is scanned as the tokens of the outline (`tokensOf_writeOutline`).
-/

namespace Treewalk.Yaml

open Text Outline

/-! ## What is read of a line -/

/-- Whether characters at the end of a line are scanned as tokens, where the block around them
stands at a column further to the left. -/
def ReadsLine (c : Nat) (cs : List Char) (us : List Token) : Prop :=
  ∀ {rest : List Char} {column k : Nat} {allowed : Bool} {b : Blocks} {ts : List Token},
    StartsLine rest → b.indent = c → c < column → k ≤ c →
    Config.Yields ⟨rest, k, 0, true, b.pushAll us⟩ ts →
    Config.Yields ⟨cs ++ '\n' :: (spaces k ++ rest), column, 0, allowed, b⟩ ts

/-- Whether characters behind the colon of a key at a column are scanned as tokens. -/
def ReadsValue (c : Nat) (cs : List Char) (us : List Token) : Prop :=
  ∀ {rest : List Char} {column k : Nat} {b : Blocks} {ts : List Token},
    StartsLine rest → b.indent = c → c < column → k ≤ c →
    Config.Yields ⟨rest, k, 0, true, b.pushAll us⟩ ts →
    Config.Gives ⟨cs ++ '\n' :: (spaces k ++ rest), column, 0, false, b⟩ ts

/-- Whether characters behind a dash at a column and a space are scanned as tokens. -/
def ReadsItem (c : Nat) (cs : List Char) (us : List Token) : Prop :=
  ∀ {rest : List Char} {k : Nat} {b : Blocks} {ts : List Token},
    StartsLine rest → b.indent = c → k ≤ c →
    Config.Yields ⟨rest, k, 0, true, b.pushAll us⟩ ts →
    Config.Yields ⟨cs ++ '\n' :: (spaces k ++ rest), c + 2, 0, true, b⟩ ts

/-- Whether the characters of entries at a column are scanned as tokens; the first of them may begin
a mapping. -/
def ReadsEntries (c : Nat) (cs : List Char) (us : List Token) : Prop :=
  ∀ {rest : List Char} {k : Nat} {b : Blocks} {ts : List Token},
    StartsLine rest → b.indent ≤ c → k ≤ c →
    Config.Yields ⟨rest, k, 0, true, (b.keyed 0 c).pushAll us⟩ ts →
    Config.Yields ⟨cs ++ '\n' :: (spaces k ++ rest), c, 0, true, b⟩ ts

/-- Whether the characters of items at the column of the mapping around them are scanned as tokens.
-/
def ReadsItems (c : Nat) (cs : List Char) (us : List Token) : Prop :=
  ∀ {rest : List Char} {k : Nat} {b : Blocks} {ts : List Token},
    StartsLine rest → b.indent = c → k ≤ c →
    Config.Yields ⟨rest, k, 0, true, b.pushAll us⟩ ts →
    Config.Yields ⟨cs ++ '\n' :: (spaces k ++ rest), c, 0, true, b⟩ ts

variable {c : Nat} {cs ds : List Char} {us vs : List Token}

theorem ReadsClosed.line (h : ReadsClosed cs us) (c : Nat) : ReadsLine c cs us := by
  intro rest column k allowed b ts hrest hindent hcolumn hk hyields
  have hless : b.indent < column := hindent ▸ Int.ofNat_lt.mpr hcolumn
  refine h (.inr (Int.le_of_lt hless)) (.inr (.inr (Int.ne_of_lt hless))) fun column' => ?_
  exact hyields.gives (.line k hrest.token)

theorem ScalarForm.readsLine {t : Text} {plain : Bool}
    (h : ScalarForm false (Place.deeper (some c)) t plain cs) :
    ReadsLine c cs [.scalar t plain] := by
  intro rest column k allowed b ts hrest hindent hcolumn hk hyields
  refine .of_scalar_line h (deeper_pos _) hrest ?_ (hindent ▸ Int.ofNat_lt.mpr hcolumn)
    (by omega) (hindent ▸ Int.ofNat_le.mpr hk) hyields
  rw [hindent]
  exact Int.ofNat_lt.mpr (show c < c + 2 by omega)

theorem ReadsLine.item (h : ReadsLine c cs us) : ReadsItem c cs us :=
  fun hrest hindent hk hyields => h hrest hindent (by omega) hk hyields

theorem ReadsLine.value (h : ReadsLine c cs us) (hstarts : ∀ rest, StartsToken (cs ++ rest)) :
    ReadsValue c (' ' :: cs) us := by
  intro rest column k b ts hrest hindent hcolumn hk hyields
  have hline : Config.Yields ⟨cs ++ '\n' :: (spaces k ++ rest), column + 1, 0, false, b⟩ ts :=
    h hrest hindent (Nat.lt_succ_of_lt hcolumn) hk hyields
  exact hline.gives (.spaces 1 (hstarts _))

/-! ## Mappings -/

/-- A key stands at the column of its mapping. -/
theorem Blocks.keyed_indent (b : Blocks) (h : b.indent ≤ c) : (b.keyed 0 c).indent = c := by
  unfold Blocks.keyed
  split
  · rfl
  · next hnot =>
    have hless : ¬b.indent < c := fun hless => hnot ⟨rfl, hless⟩
    omega

/-- The entries of a mapping at a column to the right, which ends in front of the next token. -/
theorem ReadsEntries.pop {column : Nat} (h : ReadsEntries column cs us) {rest : List Char} {k : Nat}
    {b : Blocks} {ts : List Token} (hrest : StartsLine rest) (hindent : b.indent < column)
    (hk : k < column)
    (hyields : Config.Yields ⟨rest, k, 0, true, b.pushAll (.blockMap :: (us ++ [.blockEnd]))⟩ ts) :
    Config.Yields ⟨cs ++ '\n' :: (spaces k ++ rest), column, 0, true, b⟩ ts := by
  refine h hrest (Int.le_of_lt hindent) (Nat.le_of_lt hk) ?_
  unfold Blocks.keyed
  rw [if_pos ⟨rfl, hindent⟩]
  refine .pop (Int.ofNat_lt.mpr hk) ?_
  have hblocks : b.pushAll (.blockMap :: (us ++ [.blockEnd])) =
      ⟨b.indent, b.outer, .blockEnd :: (us.reverse ++ .blockMap :: b.tokens)⟩ := by
    simp [Blocks.pushAll]
  rwa [hblocks] at hyields

theorem ReadsEntries.item (h : ReadsEntries (c + 2) cs us) :
    ReadsItem c cs (.blockMap :: (us ++ [.blockEnd])) := by
  intro rest k b ts hrest hindent hk hyields
  refine h.pop hrest ?_ (by omega) hyields
  rw [hindent]
  exact Int.ofNat_lt.mpr (by omega)

theorem ReadsEntries.value (h : ReadsEntries (c + 2) cs us)
    (hstarts : ∀ rest, StartsLine (cs ++ rest)) :
    ReadsValue c ('\n' :: (spaces (c + 2) ++ cs)) (.blockMap :: (us ++ [.blockEnd])) := by
  intro rest column k b ts hrest hindent hcolumn hk hyields
  have hitem := h.item hrest hindent hk hyields
  have hskips := hitem.gives (r := ⟨'\n' :: (spaces (c + 2) ++ (cs ++ '\n' :: (spaces k ++ rest))),
    column, 0, false, b⟩) (.line (c + 2) (hstarts _).token)
  simpa using hskips

/-- One entry. -/
theorem ReadsValue.entry {w : List Char} (hw : IsKeyWord w) (h : ReadsValue c cs us)
    (hcs : cs.head? = some ' ' ∨ cs.head? = some '\n') :
    ReadsEntries c (w ++ ':' :: cs) (.key :: .scalar (ofChars w) true :: .value :: us) := by
  intro rest k b ts hrest hindent hk hyields
  obtain ⟨x, tail, rfl, hstarts, hmark⟩ := hw.exists_cons false
  have hkeyed := b.keyed_indent hindent
  have hvalue : Config.Gives ⟨cs ++ '\n' :: (spaces k ++ rest), c + (x :: tail).length + 1, 0,
      false, (b.keyed 0 c).pushAll [.key, .scalar (ofChars (x :: tail)) true, .value]⟩ ts :=
    h hrest hkeyed (by omega) hk (by rw [Blocks.pushAll_pushAll]; exact hyields)
  have hhead : (cs ++ '\n' :: (spaces k ++ rest)).head? = some ' ' ∨
      (cs ++ '\n' :: (spaces k ++ rest)).head? = some '\n' := by
    rw [List.head?_append]
    exact hcs.imp (fun h => by rw [h]; rfl) fun h => by rw [h]; rfl
  have hlength : (x :: tail).length ≤ Config.keyReach := Nat.le_trans hw.length_le (by decide)
  have hkey : Config.Yields
      ⟨x :: (tail ++ ':' :: (cs ++ '\n' :: (spaces k ++ rest))), c, 0, true, b⟩ ts :=
    .of_key (hw.isWord false) hstarts hlength (.inr hmark) (.inr hindent) hhead hvalue
  simpa using hkey

/-- Entries behind others. -/
theorem ReadsEntries.append (h : ReadsEntries c cs us) (h' : ReadsEntries c ds vs)
    (hstarts : ∀ rest, StartsLine (ds ++ rest)) :
    ReadsEntries c (cs ++ '\n' :: (spaces c ++ ds)) (us ++ vs) := by
  intro rest k b ts hrest hindent hk hyields
  have hkeyed : ((b.keyed 0 c).pushAll us).indent = c := b.keyed_indent hindent
  have hsame : ((b.keyed 0 c).pushAll us).keyed 0 c = (b.keyed 0 c).pushAll us :=
    if_neg fun hless => by
      rw [hkeyed] at hless
      exact Int.lt_irrefl _ hless.2
  have hlast : Config.Yields ⟨ds ++ '\n' :: (spaces k ++ rest), c, 0, true,
      (b.keyed 0 c).pushAll us⟩ ts :=
    h' hrest (Int.le_of_eq hkeyed) hk (by rw [hsame, Blocks.pushAll_pushAll]; exact hyields)
  have hall := h (hstarts _) hindent (Nat.le_refl c) hlast
  simpa using hall

/-! ## Lists -/

/-- One item. -/
theorem ReadsItem.items (h : ReadsItem c cs us) (hstarts : ∀ rest, StartsToken (cs ++ rest)) :
    ReadsItems c ('-' :: ' ' :: cs) (.dash :: us) := by
  intro rest k b ts hrest hindent hk hyields
  have hitem : Config.Yields ⟨cs ++ '\n' :: (spaces k ++ rest), c + 2, 0, true, b.push .dash⟩ ts :=
    h hrest hindent hk (by rw [Blocks.push_eq, Blocks.pushAll_pushAll]; exact hyields)
  exact .of_dash hindent (hitem.gives (.spaces 1 (hstarts _)))

theorem startsLine_dash (rest : List Char) : StartsLine ('-' :: ' ' :: rest) := by
  refine ⟨?_, fun hc => ?_⟩
  · rintro _ ⟨⟩
    decide
  · unfold Cursor.atDocumentMark
    rw [hc.rest_eq]
    rfl

/-- Items behind others. -/
theorem ReadsItems.append (h : ReadsItems c cs us) (h' : ReadsItems c ds vs)
    (hstarts : ∀ rest, StartsLine (ds ++ rest)) :
    ReadsItems c (cs ++ '\n' :: (spaces c ++ ds)) (us ++ vs) := by
  intro rest k b ts hrest hindent hk hyields
  have hlast : Config.Yields ⟨ds ++ '\n' :: (spaces k ++ rest), c, 0, true, b.pushAll us⟩ ts :=
    h' hrest hindent hk (by rw [Blocks.pushAll_pushAll]; exact hyields)
  have hall := h (hstarts _) hindent (Nat.le_refl c) hlast
  simpa using hall

/-- A list that is a value stands at the column of its key. -/
theorem ReadsItems.value (h : ReadsItems c cs us) (hstarts : ∀ rest, StartsLine (cs ++ rest)) :
    ReadsValue c ('\n' :: (spaces c ++ cs)) us := by
  intro rest column k b ts hrest hindent hcolumn hk hyields
  have hitems := h hrest hindent hk hyields
  have hskips := hitems.gives (r := ⟨'\n' :: (spaces c ++ (cs ++ '\n' :: (spaces k ++ rest))),
    column, 0, false, b⟩) (.line c (hstarts _).token)
  simpa using hskips

/-! ## Writing -/

/-- Whether a pen behind the colon of a key has written tokens. -/
def WritesValue (c : Nat) (us : List Token) (p p' : Pen) : Prop :=
  ∃ cs, p.Adds cs p' ∧ p'.Rests ∧ ReadsValue c cs us ∧
    (cs.head? = some ' ' ∨ cs.head? = some '\n')

/-- Whether a pen behind a dash has written tokens. -/
def WritesItem (c : Nat) (us : List Token) (p p' : Pen) : Prop :=
  ∃ cs, p.Adds (' ' :: cs) p' ∧ p'.Rests ∧ ReadsItem c cs us ∧ ∀ rest, StartsToken (cs ++ rest)

/-- Whether a pen at a column has written the tokens of entries. -/
def WritesEntries (c : Nat) (us : List Token) (p p' : Pen) : Prop :=
  ∃ cs, p.Adds cs p' ∧ p'.Rests ∧ ReadsEntries c cs us ∧ ∀ rest, StartsLine (cs ++ rest)

/-- Whether a pen at a column has written the tokens of items. -/
def WritesItems (c : Nat) (us : List Token) (p p' : Pen) : Prop :=
  ∃ cs, p.Adds cs p' ∧ p'.Rests ∧ ReadsItems c cs us ∧ ∀ rest, StartsLine (cs ++ rest)

theorem WritesClosed.value {p p' : Pen} (h : WritesClosed us p p') (hp : p.Rests) :
    WritesValue c us p p' := by
  obtain ⟨cs, hadds, hrests, hreads, hstarts⟩ := h
  rw [hp.gap_eq] at hadds
  exact ⟨' ' :: cs, hadds, hrests, ReadsLine.value (hreads.line c) hstarts, .inl rfl⟩

theorem WritesClosed.item {p p' : Pen} (h : WritesClosed us p p') (hp : p.spaced = false) :
    WritesItem c us p p' := by
  obtain ⟨cs, hadds, hrests, hreads, hstarts⟩ := h
  rw [Pen.gap_of_not_spaced hp] at hadds
  exact ⟨cs, hadds, hrests, ReadsLine.item (hreads.line c), hstarts⟩

theorem WritesEntries.value {p p' : Pen} (h : WritesEntries (c + 2) us (p.indent (c + 2)) p')
    (hp : p.Rests) : WritesValue c (.blockMap :: (us ++ [.blockEnd])) p p' := by
  obtain ⟨cs, hadds, hrests, hreads, hstarts⟩ := h
  obtain ⟨hline, -⟩ := Pen.indent_of_new_line (c + 2) (.inl hp.indenting_eq)
  exact ⟨_, hline.trans hadds, hrests, ReadsEntries.value hreads hstarts, .inr rfl⟩

theorem WritesItems.value {p p' : Pen} (h : WritesItems c us (p.indent c) p') (hp : p.Rests) :
    WritesValue c us p p' := by
  obtain ⟨cs, hadds, hrests, hreads, hstarts⟩ := h
  obtain ⟨hline, -⟩ := Pen.indent_of_new_line c (.inl hp.indenting_eq)
  exact ⟨_, hline.trans hadds, hrests, ReadsItems.value hreads hstarts, .inr rfl⟩

/-- Whether a pen stands behind a dash at a column. -/
structure Pen.Dashed (c : Nat) (p : Pen) : Prop where
  column_eq : p.column = c + 1
  spaced_eq : p.spaced = false
  indenting_eq : p.indenting = true

theorem Pen.Dashed.gap_eq {p : Pen} (h : p.Dashed c) : p.gap = [' '] :=
  Pen.gap_of_not_spaced h.spaced_eq

theorem WritesEntries.item {p p' : Pen} (h : WritesEntries (c + 2) us (p.indent (c + 2)) p')
    (hp : p.Dashed c) : WritesItem c (.blockMap :: (us ++ [.blockEnd])) p p' := by
  obtain ⟨cs, hadds, hrests, hreads, hstarts⟩ := h
  obtain ⟨hline, -⟩ := Pen.indent_of_same_line (c + 2) hp.indenting_eq
    (by rw [hp.column_eq]; omega) fun h => by rw [hp.column_eq] at h; omega
  rw [hp.column_eq, show c + 2 - (c + 1) = 1 by omega] at hline
  exact ⟨cs, hline.trans hadds, hrests, ReadsEntries.item hreads, fun rest => (hstarts rest).token⟩

/-- A pen goes to a column behind a dash or behind what has been written on the line before. -/
theorem indents_of_dashed {p : Pen} (hp : p.Dashed c) : (p.indent (c + 2)).Indents (c + 2) :=
  (Pen.indent_of_same_line (c + 2) hp.indenting_eq (by rw [hp.column_eq]; omega)
    fun h => by rw [hp.column_eq] at h; omega).2

theorem indents_of_rests {p : Pen} (hp : p.Rests) (column : Nat) :
    (p.indent column).Indents column :=
  (Pen.indent_of_new_line column (.inl hp.indenting_eq)).2

theorem bullet_dashed {p : Pen} (hp : p.Indents c) :
    (p.bullet ['-']).Dashed c ∧ p.Adds ['-'] (p.bullet ['-']) := by
  have hmark : p.Adds (p.gap ++ ['-']) (p.mark ['-']) := Pen.adds_mark p (by decide)
  have hadds := hmark.flags false p.indenting
  rw [hp.gap_eq] at hadds
  refine ⟨⟨?_, rfl, hp.indenting_eq⟩, hadds⟩
  show p.column + (if p.spaced then ['-'] else [' ', '-']).length = c + 1
  rw [hp.spaced_eq, hp.column_eq]
  rfl

/-- An item, and the items behind it. -/
theorem WritesItem.items {p q p' : Pen} (hp : p.Indents c) (h : WritesItem c us (p.bullet ['-']) q)
    (hrest : vs = [] ∧ q = p' ∨ WritesItems c vs (q.indent c) p') :
    WritesItems c (.dash :: (us ++ vs)) p p' := by
  obtain ⟨cs, hadds, hrests, hreads, hstarts⟩ := h
  obtain ⟨-, hbullet⟩ := bullet_dashed hp
  have hitems : ReadsItems c ('-' :: ' ' :: cs) (.dash :: us) := ReadsItem.items hreads hstarts
  rcases hrest with ⟨rfl, rfl⟩ | ⟨ds, hadds', hrests', hreads', hstarts'⟩
  · rw [List.append_nil]
    exact ⟨_, hbullet.trans hadds, hrests, hitems, fun rest => startsLine_dash _⟩
  · obtain ⟨hline, -⟩ := Pen.indent_of_new_line c (.inl hrests.indenting_eq)
    exact ⟨_, (((hbullet.trans hadds).trans hline).trans hadds').cast (by simp), hrests',
      ReadsItems.append hitems hreads' hstarts', fun rest => startsLine_dash _⟩

/-- An entry, and the entries behind it. -/
theorem WritesValue.entries {w : List Char} (hw : IsKeyWord w) {p p₁ q p' : Pen} (hp : p.Indents c)
    (hkey : p.Adds (p.gap ++ w ++ [':']) p₁) (h : WritesValue c us p₁ q)
    (hrest : vs = [] ∧ q = p' ∨ WritesEntries c vs (q.indent c) p') :
    WritesEntries c (.key :: .scalar (ofChars w) true :: .value :: (us ++ vs)) p p' := by
  obtain ⟨cs, hadds, hrests, hreads, hhead⟩ := h
  rw [hp.gap_eq, List.nil_append] at hkey
  have hentry : ReadsEntries c (w ++ ':' :: cs)
      (.key :: .scalar (ofChars w) true :: .value :: us) := ReadsValue.entry hw hreads hhead
  rcases hrest with ⟨rfl, rfl⟩ | ⟨ds, hadds', hrests', hreads', hstarts'⟩
  · rw [List.append_nil]
    refine ⟨w ++ ':' :: cs, (hkey.trans hadds).cast (by simp), hrests, hentry, fun rest => ?_⟩
    rw [List.append_assoc]
    exact hw.startsLine _
  · obtain ⟨hline, -⟩ := Pen.indent_of_new_line c (.inl hrests.indenting_eq)
    refine ⟨w ++ ':' :: cs ++ '\n' :: (spaces c ++ ds),
      (((hkey.trans hadds).trans hline).trans hadds').cast (by simp), hrests',
      ReadsEntries.append hentry hreads' hstarts', fun rest => ?_⟩
    rw [List.append_assoc, List.append_assoc]
    exact hw.startsLine _

mutual

/-- What is written for an ordinary outline behind a colon is scanned as its tokens. -/
theorem writeNode_value : ∀ (n : Outline), n.Ordinary → ∀ {column},
    n.isKept ⟨some column, false, true, false⟩ = true → ∀ p : Pen, p.Rests →
    WritesValue column (n.tokens false) p (writeNode ⟨some column, false, true, false⟩ n p)
  | .scalar tag t, hn, column, hkept, p, hp => by
    obtain ⟨cs, hform, hadds, hrests⟩ := writeScalar_adds hn hkept p
    rw [hp.gap_eq] at hadds
    exact ⟨' ' :: cs, hadds, hrests, ReadsLine.value hform.readsLine hform.startsToken, .inl rfl⟩
  | .list inside items, hn, column, hkept, p, hp => by
    rw [isKept] at hkept
    rw [writeNode, tokens]
    dsimp only at hkept ⊢
    split
    · next hinside =>
      rw [if_pos hinside] at hkept
      exact ((writeFlowItems_inside items hn (deeper_pos (some column)) true hkept
        (p.openingMark ['[']) rfl).closed (.inl ⟨rfl, rfl⟩) (.inl ⟨rfl, rfl⟩)).value hp
    · next hinside =>
      rw [if_neg hinside] at hkept
      rw [hp.indenting_eq]
      have hne : items ≠ [] := by
        rintro rfl
        simp at hinside
      exact (writeBlockItems_lines items hn hne hkept p (indents_of_rests hp column)).value hp
  | .map tag inside entries, hn, column, hkept, p, hp => by
    obtain ⟨rfl, hn⟩ := hn
    rw [isKept] at hkept
    rw [writeNode, tokens]
    dsimp only at hkept ⊢
    rw [if_pos rfl]
    split
    · next hinside =>
      rw [if_pos hinside] at hkept
      exact (writeFlowEntries_closed hn (some column) hkept p).value hp
    · next hinside =>
      rw [if_neg hinside] at hkept
      have hne : entries ≠ [] := by
        rintro rfl
        simp at hinside
      exact (writeBlockEntries_lines entries hn hne hkept p (indents_of_rests hp _)).value hp

/-- What is written for an ordinary outline behind a dash is scanned as its tokens. -/
theorem writeNode_item : ∀ (n : Outline), n.Ordinary → n.isList = false → ∀ {column},
    n.isKept ⟨some column, false, false, false⟩ = true → ∀ p : Pen, p.Dashed column →
    WritesItem column (n.tokens false) p (writeNode ⟨some column, false, false, false⟩ n p)
  | .scalar tag t, hn, _, column, hkept, p, hp => by
    obtain ⟨cs, hform, hadds, hrests⟩ := writeScalar_adds hn hkept p
    rw [hp.gap_eq] at hadds
    exact ⟨cs, hadds, hrests, ReadsLine.item hform.readsLine, hform.startsToken⟩
  | .list inside items, _, hlist, _, _, _, _ => by cases hlist
  | .map tag inside entries, hn, _, column, hkept, p, hp => by
    obtain ⟨rfl, hn⟩ := hn
    rw [isKept] at hkept
    rw [writeNode, tokens]
    dsimp only at hkept ⊢
    rw [if_pos rfl]
    split
    · next hinside =>
      rw [if_pos hinside] at hkept
      exact (writeFlowEntries_closed hn (some column) hkept p).item hp.spaced_eq
    · next hinside =>
      rw [if_neg hinside] at hkept
      have hne : entries ≠ [] := by
        rintro rfl
        simp at hinside
      exact (writeBlockEntries_lines entries hn hne hkept p (indents_of_dashed hp)).item hp

/-- What is written for items line by line is scanned as their tokens. -/
theorem writeBlockItems_lines : ∀ items : List Outline, OrdinaryItems items → items ≠ [] →
    ∀ {column}, areItemsKept ⟨some column, false, false, false⟩ items = true → ∀ p : Pen,
    (p.indent column).Indents column →
    WritesItems column (itemTokens items) (p.indent column) (writeBlockItems column items p)
  | [], _, hne, _, _, _, _ => absurd rfl hne
  | n :: rest, hn, _, column, hkept, p, hp => by
    rw [areItemsKept, Bool.and_eq_true] at hkept
    have hitem := writeNode_item n hn.2.1 hn.1 hkept.1 _ (bullet_dashed hp).1
    refine hitem.items hp ?_
    cases rest with
    | nil => exact .inl ⟨rfl, rfl⟩
    | cons n' rest =>
      obtain ⟨-, -, hrests, -⟩ := hitem
      exact .inr (writeBlockItems_lines (n' :: rest) hn.2.2 (List.cons_ne_nil _ _) hkept.2 _
        (indents_of_rests hrests column))

/-- What is written for entries line by line is scanned as their tokens. -/
theorem writeBlockEntries_lines : ∀ entries : List (Outline × Outline), OrdinaryEntries entries →
    entries ≠ [] → ∀ {column}, areEntriesKept ⟨some column, false, true, false⟩ entries = true →
    ∀ p : Pen, (p.indent column).Indents column → WritesEntries column (entryTokens entries)
      (p.indent column) (writeBlockEntries column entries p)
  | [], _, hne, _, _, _, _ => absurd rfl hne
  | (key, value) :: rest, hn, _, column, hkept, p, hp => by
    rw [areEntriesKept, Bool.and_eq_true] at hkept
    obtain ⟨⟨w, hw, rfl⟩, hvalue, hrest⟩ := hn
    have hwritten := writeNode_value value hvalue hkept.1
      ((writeNode ⟨some column, false, true, true⟩ (.scalar .str (ofChars w))
        (p.indent column)).closingMark [':']) (Pen.rests_closingMark _ _)
    rw [writeBlockEntries, hw.isShortKey, if_pos rfl, entryTokens, tokens_key hw]
    refine WritesValue.entries hw hp (hw.writeNode_adds _ _) hwritten ?_
    cases rest with
    | nil => exact .inl ⟨rfl, rfl⟩
    | cons entry rest =>
      obtain ⟨-, -, hrests, -⟩ := hwritten
      exact .inr (writeBlockEntries_lines (entry :: rest) hrest (List.cons_ne_nil _ _) hkept.2 _
        (indents_of_rests hrests column))

end

/-! ## Whole texts -/

/-- The configuration in front of a text. -/
def Config.start (cs : List Char) : Config := ⟨cs, 0, 0, true, -1, [], []⟩

theorem TokenState.start_at (cs : List Char) : (TokenState.start cs).At (Config.start cs) where
  before := ⟨rfl, rfl, rfl⟩
  flow_eq := rfl
  keyAllowed_eq := rfl
  blocks_eq := rfl
  count_eq := rfl
  optional := nofun

/-- The characters that a pen adds may all stand in a text. -/
theorem isAllowed_of_isCommon {x : Char} (h : isCommon x = true) :
    isAllowed x = true ∧ x ≠ byteOrderMark := by
  rcases Bool.or_eq_true_iff.mp h with h | h
  · obtain rfl := of_decide_eq_true h
    decide
  · rw [Bool.and_eq_true, decide_eq_true_eq, decide_eq_true_eq] at h
    have hprint : IsPrint x := h
    refine ⟨?_, hprint.ne (by decide)⟩
    have hlow : 0x20 ≤ x.toNat := h.1
    have hhigh : x.toNat ≤ 0x7E := h.2
    simp [isAllowed, hlow, hhigh]

theorem tokensOf_eq {ts : List Token} (hcommon : ∀ x ∈ cs, isCommon x)
    (h : (Config.start cs).Gives ts) : tokensOf cs = ts := by
  have hallowed : cs.all isAllowed = true :=
    List.all_eq_true.mpr fun x hx => (isAllowed_of_isCommon (hcommon x hx)).1
  have hmark : (TokenState.start cs).cursor.peek ≠ some byteOrderMark := by
    rw [(TokenState.start_at cs).before.peek_eq]
    exact fun hx => (isAllowed_of_isCommon (hcommon _ (List.mem_of_head? hx))).2 rfl
  unfold tokensOf
  rw [hallowed]
  dsimp only
  rw [if_neg (by simp), if_neg hmark]
  exact h _ (TokenState.start_at cs)

/-- What a pen has written from the start on, with the end of the last line. -/
theorem tokensOf_text {p : Pen} {ts : List Token} (hadds : Pen.start.Adds cs p) (hrests : p.Rests)
    (h : (Config.start (cs ++ ['\n'])).Gives ts) : tokensOf (p.indent 0).text = ts := by
  obtain ⟨hline, -⟩ := Pen.indent_of_new_line 0 (.inl hrests.indenting_eq)
  have hall : Pen.start.Adds (cs ++ ['\n']) (p.indent 0) := hadds.trans hline
  have htext : (p.indent 0).text = cs ++ ['\n'] := hall.text_eq
  rw [htext]
  exact tokensOf_eq hall.common h

theorem indents_start : (Pen.start.indent 0).Indents 0 := ⟨rfl, rfl, rfl⟩

/-- A collection between brackets, alone in a text. -/
theorem ReadsClosed.alone (h : ReadsClosed cs us) (hstarts : ∀ rest, StartsToken (cs ++ rest)) :
    (Config.start (cs ++ ['\n'])).Gives (us ++ [.finish]) := by
  have hend : Config.Yields ⟨[], 0, 0, true, -1, [], us.reverse⟩ (us ++ [.finish]) := by
    have hunwind : (Token.finish :: (Blocks.unwind (-1) ⟨-1, [], us.reverse⟩).tokens).reverse =
        us ++ [.finish] := by
      show (Token.finish :: us.reverse).reverse = _
      rw [List.reverse_cons, List.reverse_reverse]
    have hindent : (-1 : Int) ≤ (0 : Nat) := by decide
    exact hunwind ▸ Config.Yields.finish hindent
  have hpush : Blocks.pushAll ⟨-1, [], []⟩ us = ⟨-1, [], us.reverse⟩ := by simp [Blocks.pushAll]
  have hafter (column : Nat) : Config.Gives
      ⟨['\n'], column + 1, 0, false, Blocks.pushAll ⟨-1, [], []⟩ us⟩ (us ++ [.finish]) := by
    have hskips : Config.Skips ⟨['\n'], column + 1, 0, false, ⟨-1, [], us.reverse⟩⟩
        ⟨[], 0, 0, true, ⟨-1, [], us.reverse⟩⟩ := .line 0 (by rintro _ ⟨⟩)
    rw [hpush]
    exact hend.gives hskips
  have hclosed : Config.Yields ⟨cs ++ ['\n'], 0, 0, true, -1, [], []⟩ (us ++ [.finish]) :=
    h (.inr (by decide)) (.inr (.inr (by decide))) hafter
  exact hclosed.gives (.spaces 0 (hstarts _))

/-- Entries on lines of their own, alone in a text. -/
theorem ReadsEntries.alone (h : ReadsEntries 0 cs us) (hstarts : ∀ rest, StartsLine (cs ++ rest)) :
    (Config.start (cs ++ ['\n'])).Gives (.blockMap :: (us ++ [.blockEnd, .finish])) := by
  have hend : Config.Yields ⟨[], 0, 0, true, 0, [-1], us.reverse ++ [.blockMap]⟩
      (.blockMap :: (us ++ [.blockEnd, .finish])) := by
    have hunwind : (Token.finish ::
        (Blocks.unwind (-1) ⟨0, [-1], us.reverse ++ [.blockMap]⟩).tokens).reverse =
        .blockMap :: (us ++ [.blockEnd, .finish]) := by
      show (Token.finish :: .blockEnd :: (us.reverse ++ [.blockMap])).reverse = _
      simp
    have hindent : (0 : Int) ≤ (0 : Nat) := by decide
    exact hunwind ▸ Config.Yields.finish hindent
  have hempty : StartsLine [] := ⟨nofun, fun hc => by
    unfold Cursor.atDocumentMark
    rw [hc.rest_eq]⟩
  have hblocks : (Blocks.keyed 0 0 ⟨-1, [], []⟩).pushAll us =
      ⟨0, [-1], us.reverse ++ [.blockMap]⟩ := rfl
  have hentries := h hempty (by decide) (Nat.le_refl 0) (hblocks ▸ hend)
  exact hentries.gives (.spaces 0 (hstarts _).token)

/-- **The text of a mapping is scanned as its tokens.** -/
theorem tokensOf_writeOutline {inside : Bool} {entries : List (Outline × Outline)}
    (hn : (Outline.map .map inside entries).Ordinary)
    (hkept : (Outline.map .map inside entries).isKept .root = true) :
    tokensOf (writeOutline (.map .map inside entries)) =
      (Outline.map .map inside entries).tokens false ++ [.finish] := by
  have hwrite : writeOutline (.map .map inside entries) =
      ((writeNode .root (.map .map inside entries) .start).indent 0).text := rfl
  rw [isKept] at hkept
  rw [hwrite, writeNode, if_pos rfl, tokens]
  have hflow : Place.root.inFlow = false := rfl
  rw [hflow] at hkept ⊢
  split
  · next hinside =>
    rw [if_pos hinside] at hkept
    obtain ⟨cs, hadds, hrests, hreads, hstarts⟩ :=
      writeFlowEntries_closed hn.2 none hkept Pen.start
    exact tokensOf_text hadds hrests (hreads.alone hstarts)
  · next hinside =>
    rw [if_neg hinside] at hkept
    have hne : entries ≠ [] := by
      rintro rfl
      simp at hinside
    obtain ⟨cs, hadds, hrests, hreads, hstarts⟩ :=
      writeBlockEntries_lines entries hn.2 hne hkept .start indents_start
    rw [List.cons_append, List.append_assoc]
    exact tokensOf_text hadds hrests (hreads.alone hstarts)

end Treewalk.Yaml
