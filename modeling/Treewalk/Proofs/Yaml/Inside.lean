import Treewalk.Proofs.Yaml.KeyWords

/-!
# Collections between brackets

What is written of a collection between brackets is scanned as its tokens, wherever lines end inside
of it. An ordinary outline is one that comes from the document of an expression: its keys are key
words, and the items of its lists are no lists.
-/

namespace Treewalk.Yaml

open Text

namespace Outline

/-- Whether an outline is a list. -/
def isList : Outline → Bool
  | list .. => true
  | _ => false

/-- Whether an outline is a key word. -/
def IsKey (n : Outline) : Prop := ∃ w, IsKeyWord w ∧ n = scalar .str (ofChars w)

mutual

/-- Whether an outline has the form of those that come from expressions. -/
def Ordinary : Outline → Prop
  | scalar tag t => IsOrdinaryScalar tag t
  | list _ items => OrdinaryItems items
  | map tag _ entries => tag = .map ∧ OrdinaryEntries entries

/-- The same of the items of a list. -/
def OrdinaryItems : List Outline → Prop
  | [] => True
  | n :: rest => n.isList = false ∧ n.Ordinary ∧ OrdinaryItems rest

/-- The same of the entries of a mapping. -/
def OrdinaryEntries : List (Outline × Outline) → Prop
  | [] => True
  | (key, value) :: rest => key.IsKey ∧ value.Ordinary ∧ OrdinaryEntries rest

end

/-! ## Tokens -/

mutual

/-- The tokens of an outline. -/
def tokens (inFlow : Bool) : Outline → List Token
  | scalar tag t => [.scalar t (ScalarStyle.choose inFlow false tag t = .plain)]
  | list inside items =>
    if inFlow || inside || items.isEmpty then .listOpen :: (memberTokens true items ++ [.listClose])
    else itemTokens items
  | map _ inside entries =>
    if inFlow || inside || entries.isEmpty then .mapOpen :: (pairTokens true entries ++ [.mapClose])
    else .blockMap :: (entryTokens entries ++ [.blockEnd])

/-- The tokens of items between brackets. -/
def memberTokens (isFirst : Bool) : List Outline → List Token
  | [] => []
  | n :: rest => (if isFirst then [] else [.comma]) ++ (n.tokens true ++ memberTokens false rest)

/-- The tokens of entries between brackets. -/
def pairTokens (isFirst : Bool) : List (Outline × Outline) → List Token
  | [] => []
  | (key, value) :: rest =>
    (if isFirst then [] else [.comma]) ++
      (.key :: (key.tokens true ++ .value :: (value.tokens true ++ pairTokens false rest)))

/-- The tokens of items on lines of their own. -/
def itemTokens : List Outline → List Token
  | [] => []
  | n :: rest => .dash :: (n.tokens false ++ itemTokens rest)

/-- The tokens of entries on lines of their own. -/
def entryTokens : List (Outline × Outline) → List Token
  | [] => []
  | (key, value) :: rest =>
    .key :: (key.tokens false ++ .value :: (value.tokens false ++ entryTokens rest))

end

theorem tokens_key {w : List Char} (h : IsKeyWord w) (inFlow : Bool) :
    (scalar .str (ofChars w)).tokens inFlow = [.scalar (ofChars w) true] := by
  simp [tokens, h.choose_eq]

/-! ## Places -/

mutual

/-- Whether all scalars of an outline are read back from their places. -/
def isKept (place : Place) : Outline → Bool
  | scalar tag t => place.keeps tag t
  | list inside items =>
    if place.inFlow || inside || items.isEmpty then
      areItemsKept ⟨some (Place.deeper place.column), true, false, false⟩ items
    else
      -- a list that is a value is not indented any further than its key
      areItemsKept ⟨if place.inMap then place.column else some (Place.blockColumn place.column),
        false, false, false⟩ items
  | map _ inside entries =>
    if place.inFlow || inside || entries.isEmpty then
      areEntriesKept ⟨some (Place.deeper place.column), true, true, false⟩ entries
    else areEntriesKept ⟨some (Place.blockColumn place.column), false, true, false⟩ entries

/-- The same of the items of a list, at one place. -/
def areItemsKept (place : Place) : List Outline → Bool
  | [] => true
  | n :: rest => n.isKept place && areItemsKept place rest

/-- The same of the values of a mapping, at one place. -/
def areEntriesKept (place : Place) : List (Outline × Outline) → Bool
  | [] => true
  | (_, value) :: rest => value.isKept place && areEntriesKept place rest

end

end Outline

/-! ## What is read of a part -/

/-- Whether characters between brackets are scanned as tokens. -/
def ReadsInside (cs : List Char) (us : List Token) : Prop :=
  ∀ {rest : List Char} {column flow : Nat} {allowed : Bool} {b : Blocks} {ts : List Token},
    (∃ y ∈ [',', ']', '\x7d'], rest.head? = some y) → column ≠ 0 →
    (∀ column', Config.Gives ⟨rest, column' + 1, flow + 1, false, b.pushAll us⟩ ts) →
    Config.Yields ⟨cs ++ rest, column, flow + 1, allowed, b⟩ ts

/-- Whether the characters of a collection between brackets are scanned as tokens. -/
def ReadsClosed (cs : List Char) (us : List Token) : Prop :=
  ∀ {rest : List Char} {column flow : Nat} {allowed : Bool} {b : Blocks} {ts : List Token},
    (flow ≠ 0 ∨ b.indent ≤ column) →
    (allowed = false ∨ flow ≠ 0 ∨ b.indent ≠ column) →
    (∀ column', Config.Gives ⟨rest, column' + 1, flow, false, b.pushAll us⟩ ts) →
    Config.Yields ⟨cs ++ rest, column, flow, allowed, b⟩ ts

/-- Whether the characters of members between brackets are scanned as tokens. -/
def ReadsMembers (isFirst : Bool) (cs : List Char) (us : List Token) : Prop :=
  ∀ {rest : List Char} {column flow : Nat} {allowed : Bool} {b : Blocks} {ts : List Token},
    (∃ y ∈ [']', '\x7d'], rest.head? = some y) → column ≠ 0 →
    (isFirst = true → allowed = true) →
    (∀ column' allowed', Config.Gives ⟨rest, column' + 1, flow + 1, allowed', b.pushAll us⟩ ts) →
    Config.Gives ⟨cs ++ rest, column, flow + 1, allowed, b⟩ ts

theorem ReadsClosed.inside {cs : List Char} {us : List Token} (h : ReadsClosed cs us) :
    ReadsInside cs us :=
  fun _ _ hgives => h (.inl (Nat.succ_ne_zero _)) (.inr (.inl (Nat.succ_ne_zero _))) hgives

/-! ## The ends of lines -/

/-- Whether blanks between brackets may be skipped. -/
def SkipsInside (g : List Char) : Prop :=
  ∀ {rest : List Char} {column flow : Nat} {allowed : Bool} {b : Blocks} {ts : List Token},
    StartsToken rest → column ≠ 0 →
    (∀ column', Config.Yields ⟨rest, column' + 1, flow + 1, allowed, b⟩ ts) →
    Config.Gives ⟨g ++ rest, column, flow + 1, allowed, b⟩ ts

theorem skipsInside_spaces (n : Nat) : SkipsInside (spaces n) := by
  intro rest column flow allowed b ts hrest hcolumn h
  have hyields := h (column - 1 + n)
  rw [show column - 1 + n + 1 = column + n by omega] at hyields
  exact hyields.gives (.spaces n hrest)

theorem skipsInside_line {n : Nat} (hn : 0 < n) : SkipsInside ('\n' :: spaces n) := by
  intro rest column flow allowed b ts hrest hcolumn h
  have hskips : Config.Skips ⟨'\n' :: (spaces n ++ rest), column, flow + 1, allowed, b⟩
      ⟨rest, n, flow + 1, allowed || flow + 1 = 0, b⟩ := .line n hrest
  have hyields := h (n - 1)
  rw [show n - 1 + 1 = n by omega] at hyields
  refine Config.Yields.gives ?_ hskips
  simpa using hyields

/-- The end of a line between brackets, if the line is full, and the blank in front of a mark. -/
theorem breakLine_adds {column : Nat} (hcolumn : 0 < column) {p : Pen} (hp : p.indenting = false) :
    ∃ g, p.Adds g (p.breakLine column) ∧ SkipsInside (g ++ (p.breakLine column).gap) := by
  unfold Pen.breakLine
  split
  · obtain ⟨hline, hindents⟩ := Pen.indent_of_new_line column (.inl hp)
    refine ⟨_, hline, ?_⟩
    rw [hindents.gap_eq, List.append_nil]
    exact skipsInside_line hcolumn
  · refine ⟨[], .refl p, ?_⟩
    unfold Pen.gap
    split
    · exact skipsInside_spaces 0
    · exact skipsInside_spaces 1

/-! ## Members -/

variable {g cs ds : List Char} {us vs : List Token}

/-- Whether characters between brackets are scanned as tokens where a key may start. -/
def ReadsMember (cs : List Char) (us : List Token) : Prop :=
  ∀ {rest : List Char} {column flow : Nat} {b : Blocks} {ts : List Token},
    (∃ y ∈ [',', ']', '\x7d'], rest.head? = some y) → column ≠ 0 →
    (∀ column', Config.Gives ⟨rest, column' + 1, flow + 1, false, b.pushAll us⟩ ts) →
    Config.Yields ⟨cs ++ rest, column, flow + 1, true, b⟩ ts

theorem ReadsInside.member (h : ReadsInside cs us) : ReadsMember cs us :=
  fun hrest hcolumn hgives => h hrest hcolumn hgives

theorem ReadsMembers.nil (isFirst : Bool) : ReadsMembers isFirst [] [] := by
  intro rest column flow allowed b ts _ hcolumn _ h
  have hgives := h (column - 1) allowed
  rw [show column - 1 + 1 = column by omega] at hgives
  exact hgives

/-- The characters behind a member start with a comma, unless there are no more members. -/
def StartsComma (cs : List Char) : Prop := cs = [] ∨ cs.head? = some ','

theorem ReadsMembers.cons (isFirst : Bool) (hg : SkipsInside g) (hcs : ReadsMember cs us)
    (hstarts : ∀ rest, StartsToken (cs ++ rest)) (hds : ReadsMembers false ds vs)
    (hcomma : StartsComma ds) :
    ReadsMembers isFirst ((if isFirst then [] else [',']) ++ (g ++ (cs ++ ds)))
      ((if isFirst then [] else [.comma]) ++ (us ++ vs)) := by
  intro rest column flow allowed b ts hrest hcolumn hallowed h
  have hends : ∃ y ∈ [',', ']', '\x7d'], (ds ++ rest).head? = some y := by
    rcases hcomma with rfl | hcomma
    · obtain ⟨y, hy, hhead⟩ := hrest
      exact ⟨y, List.mem_cons_of_mem _ hy, hhead⟩
    · exact ⟨',', List.mem_cons_self, by rw [List.head?_append, hcomma]; rfl⟩
  -- From the first blank in front of the member on.
  have hmember {column : Nat} {b' : Blocks} (hcolumn : column ≠ 0)
      (h : ∀ column' allowed', Config.Gives ⟨rest, column' + 1, flow + 1, allowed',
        b'.pushAll (us ++ vs)⟩ ts) :
      Config.Gives ⟨g ++ (cs ++ (ds ++ rest)), column, flow + 1, true, b'⟩ ts := by
    refine hg (hstarts _) hcolumn fun column₁ => hcs hends (Nat.succ_ne_zero _) fun column₂ => ?_
    refine hds hrest (Nat.succ_ne_zero _) nofun fun column₃ allowed₃ => ?_
    rw [Blocks.pushAll_pushAll]
    exact h column₃ allowed₃
  cases isFirst with
  | true =>
    obtain rfl := hallowed rfl
    simpa only [if_true, List.nil_append, List.append_assoc] using hmember hcolumn h
  | false =>
    have hcommaStarts : StartsToken (',' :: (g ++ (cs ++ (ds ++ rest)))) := by
      rintro _ ⟨⟩
      decide
    have hyields : Config.Yields ⟨',' :: (g ++ (cs ++ (ds ++ rest))), column, flow + 1, allowed, b⟩
        ts := by
      refine .of_comma (hmember (Nat.succ_ne_zero _) fun column' allowed' => ?_)
      rw [Blocks.push_eq, Blocks.pushAll_pushAll]
      exact h column' allowed'
    have hgives := hyields.gives (.spaces 0 hcommaStarts)
    simpa using hgives

/-- A key, its colon and a value. -/
theorem ReadsMember.pair {w : List Char} (hw : IsKeyWord w) (hcs : ReadsInside cs us)
    (hstarts : ∀ rest, StartsToken (cs ++ rest)) :
    ReadsMember (w ++ ':' :: ' ' :: cs) (.key :: .scalar (ofChars w) true :: .value :: us) := by
  intro rest column flow b ts hrest hcolumn h
  obtain ⟨x, tail, rfl, hplain, -⟩ := hw.exists_cons true
  have hflow : decide (flow + 1 ≠ 0) = true := decide_eq_true (Nat.succ_ne_zero _)
  have hlength : (x :: tail).length ≤ Config.keyReach :=
    Nat.le_trans hw.length_le (by decide)
  have hkeyed : b.keyed (flow + 1) column = b := by
    unfold Blocks.keyed
    rw [if_neg fun h => Nat.succ_ne_zero _ h.1]
  have hvalue : Config.Gives ⟨' ' :: (cs ++ rest), column + (x :: tail).length + 1, flow + 1, false,
      b.pushAll [.key, .scalar (ofChars (x :: tail)) true, .value]⟩ ts := by
    refine skipsInside_spaces 1 (hstarts rest) (Nat.succ_ne_zero _) fun column' =>
      hcs hrest (Nat.succ_ne_zero _) fun column'' => ?_
    rw [Blocks.pushAll_pushAll]
    exact h column''
  have hkey := Config.Yields.of_key (x := x) (hflow ▸ hw.isWord true) (hflow ▸ hplain) hlength
    (.inl hcolumn) (.inl (Nat.succ_ne_zero _)) (.inl rfl) (hkeyed.symm ▸ hvalue)
  simpa using hkey

/-- The brackets around members. -/
theorem ReadsMembers.closed {x y : Char} {t t' : Token}
    (hx : x = '[' ∧ t = .listOpen ∨ x = '\x7b' ∧ t = .mapOpen)
    (hy : y = ']' ∧ t' = .listClose ∨ y = '\x7d' ∧ t' = .mapClose)
    (h : ReadsMembers true cs us) : ReadsClosed (x :: (cs ++ [y])) (t :: (us ++ [t'])) := by
  intro rest column flow allowed b ts hsettled hoptional hgives
  have hclose : ∃ z ∈ [']', '\x7d'], (y :: rest).head? = some z := by
    rcases hy with ⟨rfl, -⟩ | ⟨rfl, -⟩
    · exact ⟨']', by decide, rfl⟩
    · exact ⟨'\x7d', by decide, rfl⟩
  have hstarts : StartsToken (y :: rest) := by
    rcases hy with ⟨rfl, -⟩ | ⟨rfl, -⟩ <;> rintro _ ⟨⟩ <;> decide
  have hopen : Config.Yields ⟨x :: (cs ++ y :: rest), column, flow, allowed, b⟩ ts := by
    refine .of_open hx hsettled hoptional (h hclose (Nat.succ_ne_zero _) (fun _ => rfl) ?_)
    intro column' allowed'
    refine Config.Yields.gives ?_ (.spaces 0 hstarts)
    refine .of_close hy ?_
    have hall : ((b.push t).pushAll us).push t' = b.pushAll (t :: (us ++ [t'])) := by
      rw [Blocks.push_eq, Blocks.push_eq, Blocks.pushAll_pushAll, Blocks.pushAll_pushAll]
      simp
    rw [hall]
    exact hgives (column' + 1)
  simpa using hopen

/-! ## Writing -/

/-- Whether a pen has written tokens between brackets. -/
def WritesInside (us : List Token) (p p' : Pen) : Prop :=
  ∃ cs, p.Adds (p.gap ++ cs) p' ∧ p'.Rests ∧ ReadsInside cs us ∧ ∀ rest, StartsToken (cs ++ rest)

/-- Whether a pen has written the tokens of a collection between brackets. -/
def WritesClosed (us : List Token) (p p' : Pen) : Prop :=
  ∃ cs, p.Adds (p.gap ++ cs) p' ∧ p'.Rests ∧ ReadsClosed cs us ∧ ∀ rest, StartsToken (cs ++ rest)

theorem WritesClosed.inside {p p' : Pen} (h : WritesClosed us p p') : WritesInside us p p' := by
  obtain ⟨cs, hadds, hrests, hreads, hstarts⟩ := h
  exact ⟨cs, hadds, hrests, hreads.inside, hstarts⟩

/-- Whether a pen has written the tokens of members between brackets. -/
def WritesMembers (isFirst : Bool) (us : List Token) (p p' : Pen) : Prop :=
  ∃ cs, p.Adds cs p' ∧ ReadsMembers isFirst cs us ∧ (isFirst = false → StartsComma cs)

theorem WritesMembers.closed {x y : Char} {t t' : Token} {p p' : Pen}
    (hx : x = '[' ∧ t = .listOpen ∨ x = '\x7b' ∧ t = .mapOpen)
    (hy : y = ']' ∧ t' = .listClose ∨ y = '\x7d' ∧ t' = .mapClose)
    (h : WritesMembers true us (p.openingMark [x]) p') :
    WritesClosed (t :: (us ++ [t'])) p (p'.closingMark [y]) := by
  obtain ⟨cs, hadds, hreads, -⟩ := h
  have hprint : IsPrint x ∧ IsPrint y := by
    constructor
    · rcases hx with ⟨rfl, -⟩ | ⟨rfl, -⟩ <;> decide
    · rcases hy with ⟨rfl, -⟩ | ⟨rfl, -⟩ <;> decide
  have hopen : p.Adds (p.gap ++ [x]) (p.openingMark [x]) :=
    (Pen.adds_mark p (by simpa using hprint.1)).flags true false
  have hclose : p'.Adds [y] (p'.closingMark [y]) :=
    Pen.adds_closingMark p' (by simpa using hprint.2)
  refine ⟨x :: (cs ++ [y]), ((hopen.trans hadds).trans hclose).cast (by simp),
    Pen.rests_closingMark _ _, hreads.closed hx hy, ?_⟩
  rcases hx with ⟨rfl, -⟩ | ⟨rfl, -⟩ <;> rintro _ _ ⟨⟩ <;> decide

theorem WritesMembers.nil (isFirst : Bool) (p : Pen) : WritesMembers isFirst [] p p :=
  ⟨[], .refl p, ReadsMembers.nil isFirst, fun _ => .inl rfl⟩

/-- Members behind a member. -/
theorem WritesMembers.cons {column : Nat} (hcolumn : 0 < column) {isFirst : Bool} {p q p' : Pen}
    (hp : p.indenting = false)
    (hmember : ∃ cs, ((if isFirst then p else p.closingMark [',']).breakLine column).Adds
      (((if isFirst then p else p.closingMark [',']).breakLine column).gap ++ cs) q ∧
      ReadsMember cs us ∧ ∀ rest, StartsToken (cs ++ rest))
    (hmembers : WritesMembers false vs q p') :
    WritesMembers isFirst ((if isFirst then [] else [.comma]) ++ (us ++ vs)) p p' := by
  obtain ⟨cs, hadds, hreads, hstarts⟩ := hmember
  obtain ⟨ds, hadds', hreads', hcomma⟩ := hmembers
  have hindenting : (if isFirst then p else p.closingMark [',']).indenting = false := by
    cases isFirst with
    | true => exact hp
    | false => rfl
  have hcommaAdds : p.Adds (if isFirst then [] else [','])
      (if isFirst then p else p.closingMark [',']) := by
    cases isFirst with
    | true => exact .refl p
    | false => exact Pen.adds_closingMark p (by decide)
  obtain ⟨g, hbreak, hskips⟩ := breakLine_adds hcolumn hindenting
  refine ⟨_, (((hcommaAdds.trans hbreak).trans hadds).trans hadds').cast ?_,
    ReadsMembers.cons isFirst hskips hreads hstarts hreads' (hcomma rfl), ?_⟩
  · simp
  · rintro rfl
    exact .inr rfl

open Outline

mutual

/-- What is written for an ordinary outline between brackets is scanned as its tokens. -/
theorem writeNode_inside : ∀ (n : Outline), n.Ordinary → ∀ {column inMap},
    n.isKept ⟨some column, true, inMap, false⟩ = true → ∀ p : Pen,
    WritesInside (n.tokens true) p (writeNode ⟨some column, true, inMap, false⟩ n p)
  | .scalar tag t, hn, column, inMap, hkept, p => by
    obtain ⟨cs, hform, hadds, hrests⟩ := writeScalar_adds hn hkept p
    refine ⟨cs, hadds, hrests, fun hrest hcolumn hgives => ?_, hform.startsToken⟩
    exact .of_scalar_inside hform (deeper_pos _) hrest hcolumn hgives
  | .list inside items, hn, column, inMap, hkept, p => by
    have hitems := writeFlowItems_inside items hn (deeper_pos (some column)) true hkept
      (p.openingMark ['[']) rfl
    exact (hitems.closed (.inl ⟨rfl, rfl⟩) (.inl ⟨rfl, rfl⟩)).inside
  | .map tag inside entries, hn, column, inMap, hkept, p => by
    obtain ⟨rfl, hn⟩ := hn
    have hentries := writeFlowEntries_inside entries hn (deeper_pos (some column)) true hkept
      (p.openingMark ['\x7b']) rfl
    exact (hentries.closed (.inr ⟨rfl, rfl⟩) (.inr ⟨rfl, rfl⟩)).inside

/-- What is written for items between brackets is scanned as their tokens. -/
theorem writeFlowItems_inside : ∀ items : List Outline, OrdinaryItems items → ∀ {column},
    0 < column → ∀ isFirst, areItemsKept ⟨some column, true, false, false⟩ items = true →
    ∀ p : Pen, p.indenting = false →
    WritesMembers isFirst (memberTokens isFirst items) p (writeFlowItems column isFirst items p)
  | [], _, _, _, isFirst, _, p, _ => .nil isFirst p
  | n :: rest, hn, column, hcolumn, isFirst, hkept, p, hp => by
    rw [areItemsKept, Bool.and_eq_true] at hkept
    obtain ⟨cs, hadds, hrests, hreads, hstarts⟩ := writeNode_inside n hn.2.1 hkept.1
      ((if isFirst then p else p.closingMark [',']).breakLine column)
    exact .cons hcolumn hp ⟨cs, hadds, hreads.member, hstarts⟩
      (writeFlowItems_inside rest hn.2.2 hcolumn false hkept.2 _ hrests.indenting_eq)

/-- What is written for entries between brackets is scanned as their tokens. -/
theorem writeFlowEntries_inside : ∀ entries : List (Outline × Outline), OrdinaryEntries entries →
    ∀ {column}, 0 < column → ∀ isFirst,
    areEntriesKept ⟨some column, true, true, false⟩ entries = true →
    ∀ p : Pen, p.indenting = false →
    WritesMembers isFirst (pairTokens isFirst entries) p (writeFlowEntries column isFirst entries p)
  | [], _, _, _, isFirst, _, p, _ => .nil isFirst p
  | (key, value) :: rest, hn, column, hcolumn, isFirst, hkept, p, hp => by
    rw [areEntriesKept, Bool.and_eq_true] at hkept
    obtain ⟨⟨w, hw, rfl⟩, hvalue, hrest⟩ := hn
    rw [writeFlowEntries, hw.isShortKey, if_pos rfl]
    have hkey := hw.writeNode_adds ⟨some column, true, true, true⟩
      ((if isFirst then p else p.closingMark [',']).breakLine column)
    obtain ⟨cs, hadds, hrests, hreads, hstarts⟩ := writeNode_inside value hvalue hkept.1
      ((writeNode ⟨some column, true, true, true⟩ (.scalar .str (ofChars w))
        ((if isFirst then p else p.closingMark [',']).breakLine column)).closingMark [':'])
    have htokens : pairTokens isFirst ((.scalar .str (ofChars w), value) :: rest) =
        (if isFirst then [] else [.comma]) ++
          ((.key :: .scalar (ofChars w) true :: .value :: value.tokens true) ++
            pairTokens false rest) := by
      rw [pairTokens, tokens_key hw]
      simp
    rw [htokens]
    refine .cons hcolumn hp ⟨w ++ ':' :: ' ' :: cs, ?_, ReadsMember.pair hw hreads hstarts, ?_⟩
      (writeFlowEntries_inside rest hrest hcolumn false hkept.2 _ hrests.indenting_eq)
    · exact (hkey.trans hadds).cast (by rw [(Pen.rests_closingMark _ _).gap_eq]; simp)
    · exact fun rest => (List.append_assoc w _ rest) ▸ (hw.startsLine _).token

end

/-- A mapping between brackets. -/
theorem writeFlowEntries_closed {entries : List (Outline × Outline)} (hn : OrdinaryEntries entries)
    (column? : Option Nat)
    (hkept : areEntriesKept ⟨some (Place.deeper column?), true, true, false⟩ entries = true)
    (p : Pen) :
    WritesClosed (.mapOpen :: (pairTokens true entries ++ [.mapClose])) p
      ((writeFlowEntries (Place.deeper column?) true entries
        (p.openingMark ['\x7b'])).closingMark ['\x7d']) :=
  (writeFlowEntries_inside entries hn (deeper_pos column?) true hkept _ rfl).closed
    (.inr ⟨rfl, rfl⟩) (.inr ⟨rfl, rfl⟩)

end Treewalk.Yaml
