import Treewalk.Proofs.Text.CodePoint
import Treewalk.Proofs.Yaml.Marks
import Treewalk.Yaml.Writer

/-!
# Scalars, written and scanned

What the writer adds for a scalar is one of its forms (`writeScalar_adds`), and a form is scanned as
the token of the scalar, between brackets and at the end of a line.
-/

namespace Treewalk.Yaml

open Text

/-! ## Forms -/

/-- The written forms of a scalar. The truth value says whether it is plain. -/
inductive ScalarForm (inFlow : Bool) (least : Nat) : Text → Bool → List Char → Prop where
  | plain {t x tail} : PlainForm inFlow least t (x :: tail) → StartsPlain inFlow x tail →
    ScalarForm inFlow least (ofChars t) true (x :: tail)
  | quoted {t cs} : QuotedForm t cs → ScalarForm inFlow least t false cs

variable {inFlow : Bool} {least column flow : Nat} {allowed : Bool} {b : Blocks} {ts : List Token}
  {t : Text} {cs rest : List Char}

theorem ScalarForm.startsToken {plain : Bool} (h : ScalarForm inFlow least t plain cs)
    (rest : List Char) : StartsToken (cs ++ rest) := by
  cases h with
  | plain _ hstarts =>
    rintro _ ⟨⟩
    refine ⟨hstarts.print, hstarts.ne_space, ?_⟩
    rintro rfl
    exact hstarts.not_opening (by decide)
  | quoted h =>
    cases h <;> rintro _ ⟨⟩ <;> decide

namespace Config

/-- A scalar between brackets. -/
theorem Yields.of_scalar_inside {plain : Bool} (hform : ScalarForm true least t plain cs)
    (hleast : 0 < least) (hrest : ∃ y ∈ [',', ']', '\x7d'], rest.head? = some y)
    (hcolumn : column ≠ 0)
    (h : ∀ column', Gives ⟨rest, column' + 1, flow + 1, false, b.push (.scalar t plain)⟩ ts) :
    Yields ⟨cs ++ rest, column, flow + 1, allowed, b⟩ ts := by
  cases hform with
  | plain hform hstarts => exact .of_plain_inside hform hstarts hleast hrest hcolumn h
  | quoted hform =>
    refine .of_quoted hform ?_ (.inl (Nat.succ_ne_zero _)) (.inr (.inl (Nat.succ_ne_zero _))) h
    obtain ⟨y, hy, hhead⟩ := hrest
    rw [hhead]
    rintro ⟨⟩
    revert hy
    decide

/-- A scalar at the end of a line. -/
theorem Yields.of_scalar_line {plain : Bool} {k : Nat} (hform : ScalarForm false least t plain cs)
    (hleast : 0 < least) (hrest : StartsLine rest) (hindent : b.indent < least)
    (hcolumn : b.indent < column) (hpos : column ≠ 0) (hk : k ≤ b.indent)
    (h : Yields ⟨rest, k, 0, true, b.push (.scalar t plain)⟩ ts) :
    Yields ⟨cs ++ '\n' :: (spaces k ++ rest), column, 0, allowed, b⟩ ts := by
  cases hform with
  | plain hform hstarts =>
    exact .of_plain_line hform hstarts hleast hrest hindent hcolumn hpos hk h
  | quoted hform =>
    refine .of_quoted hform (by simp) (.inr (Int.le_of_lt hcolumn))
      (.inr (.inr (Int.ne_of_lt hcolumn))) fun column' => ?_
    exact h.gives (.line k hrest.token)

end Config

/-! ## Plain texts -/

/-- A text and its form start with the same word, and a space or the end of a line ends it. -/
theorem PlainForm.exists_word {t cs : List Char} (h : PlainForm inFlow least t cs) :
    ∃ w u v, IsWord inFlow w ∧ t = w ++ u ∧ cs = w ++ v ∧ ∀ y ∈ u.head?, y = ' ' := by
  cases h with
  | word hw => exact ⟨_, [], [], hw, (List.append_nil _).symm, (List.append_nil _).symm, nofun⟩
  | spaces n hw | fold n hw =>
    refine ⟨_, _, _, hw, rfl, rfl, ?_⟩
    rintro y ⟨⟩
    rfl

/-- What is written of a plain text starts as the text does. -/
theorem startsPlain_of_allows {t : List Char} (hne : t ≠ []) (hallows : allowsPlain inFlow t = true)
    (h : PlainForm inFlow least t cs) : ∃ x tail, cs = x :: tail ∧ StartsPlain inFlow x tail := by
  obtain ⟨w, u, v, hw, rfl, rfl, hu⟩ := h.exists_word
  obtain ⟨x, w, rfl, hprint, hspace, -⟩ := hw.exists_cons
  simp only [allowsPlain, List.cons_append, List.isEmpty_cons, Bool.false_eq_true, if_false,
    Bool.and_eq_true, Bool.not_eq_true', indicates, Bool.or_eq_false_iff,
    indicatesAtStart] at hallows
  obtain ⟨-, ⟨-, ⟨hopening, hmark⟩, hdash⟩, -⟩ := hallows
  -- Where nothing or a space follows the indicator, it would be taken for one.
  have hfollows (hends : endsHere (w ++ u) = false) :
      ∃ y, w.head? = some y ∧ IsPrint y ∧ y ≠ ' ' := by
    cases w with
    | nil =>
      cases u with
      | nil => simp [endsHere] at hends
      | cons y u =>
        obtain rfl := hu y rfl
        simp [endsHere, separates] at hends
    | cons y w =>
      have hy : y ∈ x :: y :: w := List.mem_cons_of_mem _ List.mem_cons_self
      exact ⟨y, rfl, hw.print y hy, hw.no_space y hy⟩
  refine ⟨x, w ++ v, rfl, ⟨hprint, hspace, fun hx => ?_, fun hx => ?_, fun hx => ?_⟩⟩
  · rw [List.contains_eq_mem] at hopening
    simp [hx] at hopening
  · obtain ⟨y, hy, hgoes⟩ := hfollows (by
      rcases hx with rfl | rfl | rfl
      · simpa using hdash
      · simp only [decide_true, Bool.true_or, Bool.true_and, Bool.or_eq_false_iff] at hmark
        exact hmark.2
      · simp only [decide_true, Bool.or_true, Bool.true_and, Bool.or_eq_false_iff] at hmark
        exact hmark.2)
    exact ⟨y, by rw [List.head?_append, hy]; rfl, hgoes⟩
  · cases inFlow with
    | false => rfl
    | true => rcases hx with rfl | rfl <;> simp at hmark

/-! ## Styles -/

/-- Whether a scalar is a text, or has a tag that is told by its text in plain style. -/
def IsOrdinaryScalar (tag : Tag) (t : Text) : Prop :=
  tag = .str ∨ ∃ cs, t = ofChars cs ∧ cs ≠ [] ∧ tag ≠ .binary ∧ Tag.ofChars cs = tag ∧
    allowsPlain true cs = true ∧ allowsPlain false cs = true

variable {isKey : Bool} {tag : Tag}

theorem IsOrdinaryScalar.ne_binary (h : IsOrdinaryScalar tag t) : tag ≠ .binary := by
  rcases h with rfl | ⟨_, _, _, htag, _⟩
  · decide
  · exact htag

/-- The three styles in which an ordinary scalar is written, and what the first two of them take. -/
theorem choose_cases (hs : IsOrdinaryScalar tag t) (inFlow isKey : Bool) :
    (ScalarStyle.choose inFlow isKey tag t = .plain ∧ ∃ cs, t = ofChars cs ∧ cs ≠ [] ∧
      Tag.ofChars cs = tag ∧ allowsPlain inFlow cs = true) ∨
    (ScalarStyle.choose inFlow isKey tag t = .single ∧ ∃ cs, t = ofChars cs ∧
      allowsSingle cs = true) ∨
    ScalarStyle.choose inFlow isKey tag t = .double := by
  unfold ScalarStyle.choose
  split
  · exact .inr (.inr rfl)
  · next cs hcs =>
    rw [if_neg hs.ne_binary]
    obtain rfl := eq_ofChars_of_toChars? hcs
    split
    · next hplain =>
      refine .inl ⟨rfl, cs, rfl, ?_, hplain.1, hplain.2.1⟩
      rintro rfl
      rcases hs with rfl | ⟨ds, hds, hne, -⟩
      · exact absurd hplain.1 (by decide)
      · exact hne (ofChars_inj.mp hds).symm
    · split
      · next hsingle => exact .inr (.inl ⟨rfl, cs, rfl, hsingle.1⟩)
      · exact .inr (.inr rfl)

/-- A scalar whose tag is told by its text is written plain. -/
theorem choose_of_ne_str (hs : IsOrdinaryScalar tag t) (htag : tag ≠ .str) :
    ScalarStyle.choose inFlow isKey tag t = .plain := by
  obtain rfl | ⟨cs, rfl, hne, hbinary, htag, hinside, houtside⟩ := hs
  · exact absurd rfl htag
  · have hallows : allowsPlain inFlow cs = true := by
      cases inFlow with
      | true => exact hinside
      | false => exact houtside
    have hempty : ¬(isKey ∧ cs.isEmpty) := by simp [hne]
    unfold ScalarStyle.choose
    rw [toChars?_ofChars]
    dsimp only
    rw [if_neg hbinary, if_pos ⟨htag, hallows, hempty⟩]

theorem writtenTag_eq_nil (hs : IsOrdinaryScalar tag t) :
    writtenTag (ScalarStyle.choose inFlow isKey tag t) tag = [] := by
  unfold writtenTag
  by_cases htag : tag = .str
  · rw [if_pos (.inr htag)]
  · rw [if_pos (.inl (choose_of_ne_str hs htag))]

/-! ## Writing -/

/-- Whether a scalar is read back from a place: lines that start past the last column must not end
where a space is protected. -/
def Place.keeps (place : Place) (tag : Tag) (t : Text) : Bool :=
  ScalarStyle.choose place.inFlow place.isKey tag t ≠ .double ||
    Place.deeper place.column < lastColumn || !hasGuardedSpace t.tail

theorem writePlain_cons (column : Nat) (fold : Bool) {c : Char} (hc : c ≠ ' ') (rest : List Char)
    (previous : Char) (p : Pen) :
    writePlain column fold previous (c :: rest) p = writePlain column fold c rest (p.put [c]) := by
  rw [writePlain]
  simp [hc]

/-- Whether a pen has written one of the forms of a scalar. -/
def WritesScalar (inFlow : Bool) (least : Nat) (t : Text) (plain : Bool) (p p' : Pen) : Prop :=
  ∃ cs, ScalarForm inFlow least t plain cs ∧ p.Adds (p.gap ++ cs) p' ∧ p'.Rests

section

variable (fold : Bool) (p : Pen)

theorem writesScalar_plain {t : List Char} (hne : t ≠ []) (hallows : allowsPlain inFlow t = true) :
    WritesScalar inFlow column (ofChars t) true p
      (writeScalarText .plain column fold (ofChars t) p) := by
  obtain ⟨c, v, rfl⟩ := List.exists_cons_of_ne_nil hne
  have hplain := plainText_of_allows hne hallows
  obtain ⟨_, _, heq, -, hc⟩ := hplain.exists_cons
  obtain ⟨rfl, rfl⟩ := List.cons.inj heq
  obtain ⟨cs, hform, hadds, hrests⟩ := writePlain_adds column fold hplain c (p.rests_mark [])
  obtain ⟨x, tail, rfl, hstarts⟩ := startsPlain_of_allows hne hallows hform
  have hwritten : writeScalarText .plain column fold (ofChars (c :: v)) p =
      writePlain column fold c (c :: v) (p.mark []) := by
    rw [writePlain_cons _ _ hc, ← Pen.mark_eq]
    unfold writeScalarText
    rw [toChars_ofChars]
  have hmark : p.Adds (p.gap ++ []) (p.mark []) := Pen.adds_mark p nofun
  rw [hwritten]
  exact ⟨x :: tail, .plain hform hstarts, (hmark.trans hadds).cast (by simp), hrests⟩

theorem writesScalar_single {t : List Char} (hcolumn : 0 < column)
    (hallows : allowsSingle t = true) :
    WritesScalar inFlow column (ofChars t) false p
      (writeScalarText .single column fold (ofChars t) p) := by
  simp only [allowsSingle, Bool.and_eq_true, Bool.not_eq_true', List.all_eq_true] at hallows
  obtain ⟨body, hform, hadds, -⟩ := writeSingle_adds fold hcolumn none nofun nofun
    hallows.1.1 hallows.1.2 hallows.2 (p := p.mark ['\'']) nofun
  have hwritten : writeScalarText .single column fold (ofChars t) p =
      (writeSingle column fold none t (p.mark ['\''])).closingMark ['\''] := by
    unfold writeScalarText
    rw [toChars_ofChars]
  rw [hwritten]
  refine ⟨'\'' :: (body ++ ['\'']), .quoted (.single hform), ?_, Pen.rests_closingMark _ _⟩
  exact (((Pen.adds_mark p (by decide)).trans hadds).trans
    (Pen.adds_closingMark _ (by decide))).cast (by simp)

theorem writesScalar_double (hcolumn : 0 < column)
    (hkept : column < lastColumn ∨ hasGuardedSpace t.tail = false) :
    WritesScalar inFlow column t false p (writeScalarText .double column fold t p) := by
  obtain ⟨body, hform, hadds⟩ := writeDouble_adds fold hcolumn true false hkept (p.mark ['"']) rfl
  refine ⟨'"' :: (body ++ ['"']), .quoted (.double hform), ?_, Pen.rests_closingMark _ _⟩
  exact (((Pen.adds_mark p (by decide)).trans hadds).trans
    (Pen.adds_closingMark _ (by decide))).cast (by simp)

end

theorem deeper_pos (column? : Option Nat) : 0 < Place.deeper column? := by
  unfold Place.deeper Place.step
  split <;> omega

/-- **What the writer adds for a scalar is one of its forms.** -/
theorem writeScalar_adds {place : Place} (hs : IsOrdinaryScalar tag t)
    (hkept : place.keeps tag t = true) (p : Pen) :
    WritesScalar place.inFlow (Place.deeper place.column) t
      (ScalarStyle.choose place.inFlow place.isKey tag t = .plain) p
      (writeScalar place tag t p) := by
  have hwrite : writeScalar place tag t p =
      writeScalarText (ScalarStyle.choose place.inFlow place.isKey tag t)
        (Place.deeper place.column) (!place.isKey) t p := by
    unfold writeScalar
    dsimp only
    rw [writtenTag_eq_nil hs]
  rw [hwrite]
  rcases choose_cases hs place.inFlow place.isKey with
    ⟨hstyle, cs, rfl, hne, -, hallows⟩ | ⟨hstyle, cs, rfl, hallows⟩ | hstyle
  · rw [hstyle]
    exact writesScalar_plain _ p hne hallows
  · rw [hstyle]
    exact writesScalar_single _ p (deeper_pos _) hallows
  · have hkept : Place.deeper place.column < lastColumn ∨ hasGuardedSpace t.tail = false := by
      simpa [Place.keeps, hstyle] using hkept
    rw [hstyle]
    exact writesScalar_double _ p (deeper_pos _) hkept

end Treewalk.Yaml
