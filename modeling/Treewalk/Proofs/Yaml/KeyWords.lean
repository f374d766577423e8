import Treewalk.Proofs.Yaml.Scalars

/-!
# Words without indicators

Most characters have no meaning of their own wherever they stand (`IsHarmless`), and a text of them
can be written plain. The keys of written mappings are short words in small letters: a key word is
always written plain, on one line with its value, and is read as a key.
-/

namespace Treewalk.Yaml

open Text

/-! ## Harmless characters -/

/-- Whether a character is printable and no indicator, wherever it stands. -/
structure IsHarmless (c : Char) : Prop where
  print : IsPrint c
  ne_space : c ≠ ' '
  not_opening : c ∉ openingIndicators
  ne_dash : c ≠ '-'
  ne_mark : c ≠ '?'
  ne_colon : c ≠ ':'
  ne_point : c ≠ '.'

/-- The characters that are not harmless. -/
def indicators : List Char := ' ' :: '-' :: '?' :: ':' :: '.' :: openingIndicators

/-- The characters of a range that holds no indicator. -/
theorem isHarmless_of_range {c first last : Char} (h : first ≤ c ∧ c ≤ last)
    (hprint : ' ' ≤ first ∧ last ≤ '~') (hrange : ∀ d ∈ indicators, ¬(first ≤ d ∧ d ≤ last)) :
    IsHarmless c := by
  have hne {d : Char} (hd : d ∈ indicators) : c ≠ d := by
    rintro rfl
    exact hrange c hd h
  refine ⟨⟨Char.le_trans hprint.1 h.1, Char.le_trans h.2 hprint.2⟩, hne (by decide), fun hc => ?_,
    hne (by decide), hne (by decide), hne (by decide), hne (by decide)⟩
  have hopening : ∀ d ∈ openingIndicators, d ∈ indicators := by decide
  exact hne (hopening c hc) rfl

theorem isHarmless_of_letter {c : Char} (h : 'a' ≤ c ∧ c ≤ 'z') : IsHarmless c :=
  isHarmless_of_range h (by decide) (by decide)

theorem isHarmless_of_digit {c : Char} (h : c.isDigit = true) : IsHarmless c := by
  rw [Char.isDigit, Bool.and_eq_true, decide_eq_true_eq, decide_eq_true_eq] at h
  have hrange : '0' ≤ c ∧ c ≤ '9' := h
  exact isHarmless_of_range hrange (by decide) (by decide)

theorem indicatesWithin_eq {w : List Char} (hw : ∀ c ∈ w, IsHarmless c) (inFlow : Bool)
    (previous : Char) : indicatesWithin inFlow previous w = false := by
  induction w generalizing previous with
  | nil => rfl
  | cons x w ih =>
    obtain ⟨hx, hw⟩ := List.forall_mem_cons.mp hw
    have hopening := hx.not_opening
    simp only [openingIndicators, List.mem_cons, List.not_mem_nil, or_false, not_or] at hopening
    simp [indicatesWithin, hopening, hx.ne_mark, hx.ne_colon, ih hw]

/-- A harmless character neither ends a text nor separates what stands around it. -/
theorem endsHere_cons {c : Char} (hc : IsHarmless c) (rest : List Char) :
    endsHere (c :: rest) = false := by
  simp [endsHere, separates, hc.ne_space, hc.print.ne_tab, hc.print.isBreak_eq,
    hc.print.ne (by decide : ¬IsPrint '\x00')]

/-- A text without indicators can be written plain; a dash may stand in front of it. -/
theorem allowsPlain_of_harmless {x : Char} {tail : List Char}
    (hx : IsHarmless x ∨ x = '-' ∧ tail ≠ []) (htail : ∀ c ∈ tail, IsHarmless c) (inFlow : Bool) :
    allowsPlain inFlow (x :: tail) = true := by
  have hsolid : ∀ c ∈ x :: tail, IsPrint c ∧ c ≠ ' ' := by
    refine List.forall_mem_cons.mpr ⟨?_, fun c hc => ⟨(htail c hc).print, (htail c hc).ne_space⟩⟩
    rcases hx with hx | ⟨rfl, -⟩
    · exact ⟨hx.print, hx.ne_space⟩
    · decide
  have hprint : (x :: tail).all (fun c => ' ' ≤ c && c ≤ '~') = true := by
    rw [List.all_eq_true]
    intro c hc
    simpa [IsPrint] using (hsolid c hc).1
  have hends : ∀ c ∈ x :: tail, (decide (c = ' ') || decide (c = '\n')) = false := by
    intro c hc
    simp [(hsolid c hc).2, (hsolid c hc).1.ne (by decide : ¬IsPrint '\n')]
  have hloose : hasLooseEnd (x :: tail) = false := by
    unfold hasLooseEnd
    rw [List.head?_cons, Option.any_some, hends x List.mem_cons_self, Bool.false_or,
      List.getLast?_eq_some_getLast (List.cons_ne_nil x tail), Option.any_some]
    exact hends _ (List.getLast_mem _)
  have hwithin := indicatesWithin_eq htail inFlow x
  have hindicates : indicates inFlow (x :: tail) = false := by
    rcases hx with hx | ⟨rfl, hne⟩
    · have hstart : startsWithMark (x :: tail) = false := by
        simp [startsWithMark, List.isPrefixOf, Ne.symm hx.ne_dash, Ne.symm hx.ne_point]
      simp [indicates, hstart, indicatesAtStart, hx.not_opening, hx.ne_dash, hx.ne_mark,
        hx.ne_colon, hwithin]
    · obtain ⟨y, rest, rfl⟩ := List.exists_cons_of_ne_nil hne
      have hy := htail y List.mem_cons_self
      have hstart : startsWithMark ('-' :: y :: rest) = false := by
        simp [startsWithMark, List.isPrefixOf, Ne.symm hy.ne_dash]
      simp [indicates, hstart, indicatesAtStart, openingIndicators, endsHere_cons hy rest, hwithin]
  unfold Yaml.allowsPlain
  rw [List.isEmpty_cons, if_neg Bool.false_ne_true, hprint, hloose, hindicates]
  rfl

/-! ## Key words -/

/-- The most letters of a key word. -/
def wordReach : Nat := 100

/-- Whether a word in small letters can be a key: it is short and does not stand for anything but
itself. -/
structure IsKeyWord (w : List Char) : Prop where
  ne_nil : w ≠ []
  letters : ∀ c ∈ w, 'a' ≤ c ∧ c ≤ 'z'
  length_le : w.length ≤ wordReach
  tag_eq : Tag.ofChars w = .str

namespace IsKeyWord

variable {w rest : List Char}

theorem harmless (h : IsKeyWord w) : ∀ c ∈ w, IsHarmless c :=
  fun c hc => isHarmless_of_letter (h.letters c hc)

theorem plainWord_append (hw : ∀ c ∈ w, IsHarmless c) {flow : Bool}
    (hrest : plainWord flow rest = []) : plainWord flow (w ++ rest) = w := by
  induction w with
  | nil => exact hrest
  | cons x w ih =>
    obtain ⟨hx, hw⟩ := List.forall_mem_cons.mp hw
    have hopening := hx.not_opening
    simp only [openingIndicators, List.mem_cons, List.not_mem_nil, or_false, not_or] at hopening
    rw [List.cons_append, plainWord,
      if_neg (by simp [hx.ne_space, hx.print.ne_tab, hx.print.isBreak_eq]),
      if_neg (by simp [hx.ne_colon]), if_neg (by simp [hopening, hx.ne_mark]), ih hw]

theorem isWord (h : IsKeyWord w) (flow : Bool) : IsWord flow w where
  ne_nil := h.ne_nil
  print c hc := (h.harmless c hc).print
  no_space c hc := (h.harmless c hc).ne_space
  no_comment := by
    obtain ⟨x, v, rfl⟩ := List.exists_cons_of_ne_nil h.ne_nil
    rintro ⟨⟩
    exact absurd (h.letters '#' List.mem_cons_self) (by decide)
  read _ hrest := plainWord_append h.harmless hrest

/-- A key word starts like a plain scalar, and not like a mark between documents. -/
theorem exists_cons (h : IsKeyWord w) (inFlow : Bool) :
    ∃ x tail, w = x :: tail ∧ StartsPlain inFlow x tail ∧ x ≠ '-' ∧ x ≠ '.' := by
  obtain ⟨x, tail, rfl⟩ := List.exists_cons_of_ne_nil h.ne_nil
  have hx := h.harmless x List.mem_cons_self
  refine ⟨x, tail, rfl, ⟨hx.print, hx.ne_space, hx.not_opening, fun heq => ?_, fun heq => ?_⟩,
    hx.ne_dash, hx.ne_point⟩
  · exact absurd heq (by simp [hx.ne_dash, hx.ne_mark, hx.ne_colon])
  · exact absurd heq (by simp [hx.ne_mark, hx.ne_colon])

theorem startsLine (h : IsKeyWord w) (rest : List Char) : StartsLine (w ++ rest) := by
  obtain ⟨x, tail, rfl, hstarts, hmark⟩ := h.exists_cons true
  refine ⟨?_, fun hc => TokenState.not_atDocumentMark hc hmark⟩
  rintro _ ⟨⟩
  refine ⟨hstarts.print, hstarts.ne_space, ?_⟩
  rintro rfl
  exact hstarts.not_opening (by decide)

theorem allowsPlain (h : IsKeyWord w) (inFlow : Bool) : allowsPlain inFlow w = true := by
  obtain ⟨x, tail, rfl⟩ := List.exists_cons_of_ne_nil h.ne_nil
  obtain ⟨hx, htail⟩ := List.forall_mem_cons.mp h.harmless
  exact allowsPlain_of_harmless (.inl hx) htail inFlow

/-- A key word is written plain, be it a key or not. -/
theorem choose_eq (h : IsKeyWord w) (inFlow isKey : Bool) :
    ScalarStyle.choose inFlow isKey .str (ofChars w) = .plain := by
  have hempty : ¬(isKey ∧ w.isEmpty) := by simp [h.ne_nil]
  unfold ScalarStyle.choose
  rw [toChars?_ofChars]
  dsimp only
  rw [if_neg (by decide), if_pos ⟨h.tag_eq, h.allowsPlain inFlow, hempty⟩]

/-- A key word stands on one line with its value. -/
theorem isShortKey (h : IsKeyWord w) : (Outline.scalar .str (ofChars w)).isShortKey = true := by
  have hne : (ofChars w).isEmpty = false := by
    obtain ⟨x, tail, rfl⟩ := List.exists_cons_of_ne_nil h.ne_nil
    rfl
  have hbreak : (ofChars w).any (·.isCharWith fun c => isBreak c && c ≠ '\r') = false := by
    rw [List.any_eq_false]
    intro p hp
    obtain ⟨c, hc, rfl⟩ := List.mem_map.mp hp
    simp [CodePoint.isCharWith, (h.harmless c hc).print.isBreak_eq]
  have hlength : (Tag.shortName .str).length + (ofChars w).length ≤ keyLimit := by
    have hle := h.length_le
    have hw : (ofChars w).length = w.length := List.length_map _
    have htag : (Tag.shortName .str).length = 5 := rfl
    unfold wordReach at hle
    unfold keyLimit
    omega
  show (!(ofChars w).isEmpty && !(ofChars w).any (·.isCharWith fun c => isBreak c && c ≠ '\r') &&
    decide _) = true
  rw [hne, hbreak, decide_eq_true hlength]
  rfl

/-- What is written for a key word as a key. -/
theorem writeNode_adds (h : IsKeyWord w) (place : Place) (p : Pen) :
    p.Adds (p.gap ++ w ++ [':'])
      ((writeNode place (.scalar .str (ofChars w)) p).closingMark [':']) := by
  obtain ⟨x, tail, rfl⟩ := List.exists_cons_of_ne_nil h.ne_nil
  have hprint : ∀ c ∈ x :: tail, IsPrint c := fun c hc => (h.harmless c hc).print
  have hspace : ∀ c ∈ tail, c ≠ ' ' := fun c hc =>
    (h.harmless c (List.mem_cons_of_mem _ hc)).ne_space
  have hwrite : writeNode place (.scalar .str (ofChars (x :: tail))) p =
      (p.mark [x]).put tail := by
    obtain ⟨last, heq⟩ :=
      writePlain_word (Place.deeper place.column) (!place.isKey) hspace [] x (p.mark [x])
    rw [List.append_nil] at heq
    unfold writeNode writeScalar
    rw [h.choose_eq]
    show writeScalarText .plain _ _ _ _ = _
    unfold writeScalarText
    rw [toChars_ofChars]
    exact heq
  rw [hwrite]
  have hmark : p.Adds (p.gap ++ [x]) (p.mark [x]) :=
    Pen.adds_mark p (by simpa using hprint x List.mem_cons_self)
  have hput := Pen.adds_put (p.mark [x]) (List.forall_mem_cons.mp hprint).2
  exact ((hmark.trans hput).trans (Pen.adds_closingMark _ (by decide))).cast (by simp)

end IsKeyWord

end Treewalk.Yaml
