import Mathlib.Data.List.TakeWhile
import Treewalk.Proofs.Source.Reader

/-!
# How the reader takes the forms of source

For each form of expression: if its parts are read as they should be, then so is the whole. What
stands behind a text matters. Behind a head or a callee no word may go on, and neither ` = ` nor
` else ` may follow (`EndsHead`). Behind an operand no argument list may follow, either
(`EndsOperand`).
-/

namespace Treewalk.Source

open Number Treewalk.Expr

variable {s s' t : Text} {e e' : Expr}

/-! ## Pieces of text -/

@[simp]
theorem after?_append (p t : Text) : after? p (p ++ t) = some t := by
  induction p with
  | nil => rfl
  | cons p ps ih => rw [List.cons_append, after?, if_pos rfl, ih]

@[simp]
theorem readOp_symbol (op : Op) (t : Text) :
    readOp (" " ++ (op.symbol ++ (" " ++ t))) = some (op, t) := by
  cases op <;> rfl

/-- Whether a text starts with a character of a word. -/
def startsWord (t : Text) : Bool := t.head?.any (·.isCharWith isWordChar)

theorem takeWord_append (hs : ∀ p ∈ s, p.isCharWith isWordChar = true)
    (ht : startsWord t = false) : takeWord (s ++ t) = (s, t) := by
  rw [takeWord, List.takeWhile_append_of_pos hs, List.dropWhile_append_of_pos hs]
  cases t with
  | nil => simp
  | cons q t =>
    have hq : ¬q.isCharWith isWordChar = true := Bool.eq_false_iff.mp ht
    rw [List.takeWhile_cons_of_neg hq, List.dropWhile_cons_of_neg hq, List.append_nil]

/-- Whether a text starts like an expression: with a word or a bracket. -/
def startsExpr (t : Text) : Bool := t.head?.any (·.isCharWith fun c => isWordChar c || c = '(')

theorem exists_char_of_startsExpr (h : startsExpr s = true) :
    ∃ c rest, s = .char c :: rest ∧ c ≠ ')' ∧ c ≠ '}' ∧ c ≠ ' ' := by
  cases s with
  | nil => cases h
  | cons p s =>
    cases p with
    | surrogate n => cases h
    | char c =>
      refine ⟨c, s, rfl, ?_, ?_, ?_⟩ <;>
      · rintro rfl
        exact Bool.false_ne_true h

theorem startsExpr_append (h : startsExpr s = true) (t : Text) : startsExpr (s ++ t) = true := by
  obtain ⟨c, rest, rfl, -⟩ := exists_char_of_startsExpr h
  exact h

/-- An expression does not start with the bracket that closes a list of arguments. -/
theorem after?_bracket_of_startsExpr (h : startsExpr s = true) (t : Text) :
    after? ")" (s ++ t) = none := by
  obtain ⟨c, rest, rfl, hc, -⟩ := exists_char_of_startsExpr h
  exact if_neg fun heq => hc (CodePoint.char.inj heq).symm

/-- An expression does not start with the brace that closes a block. -/
theorem after?_brace_of_startsExpr (h : startsExpr s = true) (t : Text) :
    after? "\x7d" (s ++ t) = none := by
  obtain ⟨c, rest, rfl, -, hc, -⟩ := exists_char_of_startsExpr h
  exact if_neg fun heq => hc (CodePoint.char.inj heq).symm

theorem skipSpaces_margin (width level : Int) (t : Text) :
    skipSpaces (margin width level ++ t) = skipSpaces t :=
  List.dropWhile_append_of_pos fun _ hp => decide_eq_true (List.mem_replicate.mp hp).2

theorem skipSpaces_of_startsExpr (h : startsExpr s = true) (t : Text) :
    skipSpaces (s ++ t) = s ++ t := by
  obtain ⟨c, rest, rfl, -, -, hc⟩ := exists_char_of_startsExpr h
  exact List.dropWhile_cons_of_neg (by simpa using hc)

/-! ## What may follow -/

/-- A text that may stand behind a head or a callee. -/
structure EndsHead (t : Text) : Prop where
  word : startsWord t = false
  assign : after? " = " t = none
  els : after? " else " t = none

/-- A text that may stand behind an operand. -/
structure EndsOperand (t : Text) : Prop extends EndsHead t where
  call : after? "(" t = none

theorem endsHead_args (t : Text) : EndsHead ("(" ++ t) := ⟨rfl, rfl, rfl⟩

theorem endsOperand_nil : EndsOperand [] := ⟨⟨rfl, rfl, rfl⟩, rfl⟩

theorem endsOperand_bracket (t : Text) : EndsOperand (")" ++ t) := ⟨⟨rfl, rfl, rfl⟩, rfl⟩

theorem endsOperand_test (t : Text) : EndsOperand (") " ++ t) := ⟨⟨rfl, rfl, rfl⟩, rfl⟩

theorem endsOperand_comma (t : Text) : EndsOperand (", " ++ t) := ⟨⟨rfl, rfl, rfl⟩, rfl⟩

theorem endsOperand_semicolon (t : Text) : EndsOperand (";" ++ t) := ⟨⟨rfl, rfl, rfl⟩, rfl⟩

theorem endsOperand_op (op : Op) (t : Text) : EndsOperand (" " ++ (op.symbol ++ (" " ++ t))) := by
  cases op <;> exact ⟨⟨rfl, rfl, rfl⟩, rfl⟩

/-! ## Texts and what they are read as -/

/-- Whether a text is read as a head, whatever may stand behind it. -/
structure ReadsHead (s : Text) (e : Expr) : Prop where
  starts : startsExpr s = true
  read : ∀ {t}, EndsHead t → Gives (readHead · (s ++ t)) (e, t)

/-- Whether a text is read as an expression that may be called: what follows is read on as the
argument lists of its calls. -/
structure ReadsCallee (s : Text) (e : Expr) : Prop where
  starts : startsExpr s = true
  read : ∀ {t r}, EndsHead t → Gives (readCalls · e t) r → Gives (readExpr · (s ++ t)) r

/-- Whether a text is read as an expression behind which no argument list stands. -/
structure ReadsOperand (s : Text) (e : Expr) : Prop where
  starts : startsExpr s = true
  read : ∀ {t}, EndsOperand t → Gives (readExpr · (s ++ t)) (e, t)

/-- Whether a text is read as a chain of statements, behind those that are already read: what
follows is read on as further statements. -/
structure ReadsChain (s : Text) (e : Expr) : Prop where
  starts : startsExpr s = true
  read : ∀ before {t r}, EndsOperand t → Gives (readMore · (behind before e) t) r →
    Gives (readStatements · before (s ++ t)) r

/-- Whether a text is read as a block. -/
def ReadsBlock (s : Text) (b : Option Expr) : Prop := ∀ t, Gives (readBlock · (s ++ t)) (b, t)

/-- Whether a text is read as arguments. -/
def ReadsArgs (s : Text) (args : List Expr) : Prop :=
  ∀ t, Gives (readArgs · (s ++ (")" ++ t))) (args, t)

/-- No argument list is read where none stands. -/
theorem readCalls_of_endsOperand (ht : EndsOperand t) (e : Expr) :
    Gives (readCalls · e t) (e, t) :=
  .of_call fun fuel => by rw [readCalls, ht.call]

/-- Behind a head, the calls are read. -/
theorem readExpr_of_readHead {r : Expr × Text} (h : Gives (readHead · s) (e, t))
    (hcalls : Gives (readCalls · e t) r) : Gives (readExpr · s) r :=
  .of_calls (h.holds.and hcalls.holds) fun fuel ⟨hhead, hcalls⟩ => by
    rw [readExpr, hhead]
    exact hcalls

theorem ReadsHead.callee (h : ReadsHead s e) : ReadsCallee s e where
  starts := h.starts
  read ht hcalls := readExpr_of_readHead (h.read ht) hcalls

theorem ReadsCallee.operand (h : ReadsCallee s e) : ReadsOperand s e where
  starts := h.starts
  read ht := h.read ht.toEndsHead (readCalls_of_endsOperand ht e)

theorem ReadsOperand.chain (h : ReadsOperand s e) : ReadsChain s e where
  starts := h.starts
  read _ _ _ ht hmore := .of_calls ((h.read ht).holds.and hmore.holds) fun fuel ⟨hread, hmore⟩ => by
    rw [readStatements, hread]
    exact hmore

/-! ## Brackets -/

/-- An expression in brackets is a head. -/
theorem ReadsOperand.brackets (h : ReadsOperand s e) : ReadsHead ("(" ++ s ++ ")") e where
  starts := rfl
  read {t} _ := by
    simp only [List.append_assoc]
    refine .of_calls (h.read (endsOperand_bracket t)).holds fun fuel hread => ?_
    rw [readHead, after?_append]
    simp [hread]

theorem ReadsOperand.binop (h : ReadsOperand s e) (h' : ReadsOperand s' e') (op : Op) :
    ReadsHead ("(" ++ s ++ " " ++ op.symbol ++ " " ++ s' ++ ")") (.binop op e e') where
  starts := rfl
  read {t} _ := by
    have hop (t : Text) : after? ")" (" " ++ t) = none := rfl
    simp only [List.append_assoc]
    have hleft := h.read (endsOperand_op op (s' ++ (")" ++ t)))
    have hright := h'.read (endsOperand_bracket t)
    refine .of_calls (hleft.holds.and hright.holds) fun fuel ⟨hleft, hright⟩ => ?_
    rw [readHead, after?_append]
    simp [hleft, hop, hright]

/-! ## Calls -/

theorem readsArgs_nil : ReadsArgs [] [] := fun t => .of_call fun fuel => by
  rw [List.nil_append, readArgs, after?_append]

/-- Arguments with commas between them are read one by one. -/
theorem readSomeArgs_join {ss : List Text} {es : List Expr}
    (h : List.Forall₂ ReadsOperand (s :: ss) (e :: es)) (t : Text) :
    Gives (readSomeArgs · (Text.join ", " (s :: ss) ++ (")" ++ t))) (e :: es, t) := by
  induction ss generalizing s e es with
  | nil =>
    obtain ⟨hs, hrest⟩ := List.forall₂_cons.mp h
    cases hrest
    have hcomma : after? ", " (")" ++ t) = none := rfl
    have hjoin : Text.join ", " [s] = s := by simp [Text.join, List.intercalate]
    refine .of_calls (hs.read (endsOperand_bracket t)).holds fun fuel hread => ?_
    rw [hjoin, readSomeArgs, hread]
    simp [hcomma]
  | cons s' ss ih =>
    obtain ⟨hs, hrest⟩ := List.forall₂_cons.mp h
    cases hrest with
    | cons hs' hss =>
      have hjoin : Text.join ", " (s :: s' :: ss) ++ (")" ++ t) =
          s ++ (", " ++ (Text.join ", " (s' :: ss) ++ (")" ++ t))) := by
        simp [Text.join, List.intercalate]
      have hfirst := hs.read (endsOperand_comma (Text.join ", " (s' :: ss) ++ (")" ++ t)))
      refine .of_calls (hfirst.holds.and (ih (.cons hs' hss)).holds) fun fuel h => ?_
      obtain ⟨hread, hreads⟩ := h
      rw [hjoin, readSomeArgs, hread]
      simp [hreads]

/-- Operands with commas between them are read as arguments. -/
theorem readsArgs_join {ss : List Text} {es : List Expr} (h : List.Forall₂ ReadsOperand ss es) :
    ReadsArgs (Text.join ", " ss) es := by
  cases h with
  | nil => exact readsArgs_nil
  | @cons s e ss es hs hss =>
    intro t
    -- The bracket that would end an empty list does not come first.
    have hstarts : startsExpr (Text.join ", " (s :: ss)) = true := by
      cases ss with
      | nil => simpa [Text.join, List.intercalate] using hs.starts
      | cons s' ss => simpa [Text.join, List.intercalate] using startsExpr_append hs.starts _
    refine .of_calls (readSomeArgs_join (.cons hs hss) t).holds fun fuel hreads => ?_
    rw [readArgs, after?_bracket_of_startsExpr hstarts, ← hreads]

/-- A callee with a list of arguments is a callee again. -/
theorem ReadsCallee.call {args : List Expr} (h : ReadsCallee s e) (hargs : ReadsArgs s' args) :
    ReadsCallee (s ++ "(" ++ s' ++ ")") (.call e args) where
  starts := startsExpr_append (startsExpr_append (startsExpr_append h.starts _) _) _
  read {t r} _ hcalls := by
    simp only [List.append_assoc]
    refine h.read (endsHead_args _) (.of_calls ((hargs t).holds.and hcalls.holds) ?_)
    rintro fuel ⟨hargs, hcalls⟩
    rw [readCalls, after?_append]
    simp [hargs, hcalls]

/-! ## Chains and blocks -/

variable {width level : Int}

/-- Behind a line break, the next statement is read. -/
theorem readMore_newLine (hs : startsExpr s = true) {r : Expr × Text}
    (h : Gives (readStatements · (some e) (s ++ t)) r) :
    Gives (readMore · e (";" ++ (newLine width level ++ (s ++ t)))) r := by
  have hsplit : after? ";\n" (";" ++ (newLine width level ++ (s ++ t))) =
      some (margin width level ++ (s ++ t)) := after?_append ";\n" _
  refine .of_calls h.holds fun fuel hread => ?_
  rw [readMore, hsplit]
  simp only [skipSpaces_margin, skipSpaces_of_startsExpr hs, after?_brace_of_startsExpr hs, hread]

/-- At the brace behind a line break, the chain ends. -/
theorem readMore_brace :
    Gives (readMore · e (";" ++ (newLine width level ++ ("\x7d" ++ t)))) (e, "\x7d" ++ t) := by
  have hsplit : after? ";\n" (";" ++ (newLine width level ++ ("\x7d" ++ t))) =
      some (margin width level ++ ("\x7d" ++ t)) := after?_append ";\n" _
  have hspaces : skipSpaces ("\x7d" ++ t) = "\x7d" ++ t := rfl
  refine .of_call fun fuel => ?_
  rw [readMore, hsplit]
  simp only [skipSpaces_margin, hspaces, after?_append]

theorem behind_followedBy (before : Option Expr) (e e' : Expr) :
    (behind before e).followedBy e' = behind before (e.followedBy e') := by
  cases before with
  | none => rfl
  | some before => exact followedBy_assoc before e e'

/-- Statements on lines of their own are read as one chain. -/
theorem ReadsChain.seq (h : ReadsChain s e) (h' : ReadsChain s' e') :
    ReadsChain (s ++ ";" ++ newLine width level ++ s') (e.followedBy e') where
  starts := startsExpr_append (startsExpr_append (startsExpr_append h.starts _) _) _
  read before t r ht hmore := by
    -- What the first chain reads is already read when the second one comes.
    rw [← behind_followedBy] at hmore
    simp only [List.append_assoc]
    refine h.read before (endsOperand_semicolon _) (readMore_newLine h'.starts ?_)
    exact h'.read (some (behind before e)) ht hmore

theorem readsBlock_none : ReadsBlock "\x7b\x7d" none := fun t => .of_call fun fuel => by
  rw [readBlock, after?_append]

/-- A chain between braces is a block. -/
theorem ReadsChain.block (h : ReadsChain s e) {inner : Int} :
    ReadsBlock ("\x7b" ++ newLine width inner ++ s ++ ";" ++ newLine width level ++ "\x7d")
      (some e) := by
  intro t
  simp only [List.append_assoc]
  have hempty (t : Text) : after? "\x7b\x7d" ("\x7b" ++ (newLine width inner ++ t)) = none := rfl
  have hopen (t : Text) : after? "\x7b\n" ("\x7b" ++ (newLine width inner ++ t)) =
      some (margin width inner ++ t) := after?_append "\x7b\n" _
  have hchain := h.read none (endsOperand_semicolon (newLine width level ++ ("\x7d" ++ t)))
    readMore_brace
  refine .of_calls hchain.holds fun fuel hread => ?_
  rw [readBlock, hempty, hopen]
  simp only [skipSpaces_margin, skipSpaces_of_startsExpr h.starts, hread, after?_append,
    Option.bind_eq_bind, Option.bind_some, Option.pure_def, behind]

/-! ## Words -/

/-- A text of one or more characters of words. -/
structure IsWord (w : Text) : Prop where
  ne_nil : w ≠ []
  chars : ∀ p ∈ w, p.isCharWith isWordChar = true

instance (w : Text) : Decidable (IsWord w) :=
  decidable_of_iff (w ≠ [] ∧ ∀ p ∈ w, p.isCharWith isWordChar = true)
    ⟨fun h => ⟨h.1, h.2⟩, fun h => ⟨h.ne_nil, h.chars⟩⟩

variable {w : Text}

theorem IsWord.starts (hw : IsWord w) : startsExpr w = true := by
  obtain ⟨p, rest, rfl⟩ := List.exists_cons_of_ne_nil hw.ne_nil
  have hp := hw.chars p List.mem_cons_self
  cases p with
  | surrogate n => cases hp
  | char c => exact (Bool.or_eq_true _ _).mpr (.inl hp)

/-- What starts with a word is read by the word. -/
theorem IsWord.readHead (hw : IsWord w) (ht : startsWord t = false) {r : Expr × Text}
    (h : Gives (readWord · w t) r) : Gives (readHead · (w ++ t)) r := by
  have hbracket : after? "(" (w ++ t) = none := by
    obtain ⟨p, rest, rfl⟩ := List.exists_cons_of_ne_nil hw.ne_nil
    refine if_neg ?_
    rintro rfl
    exact absurd (hw.chars _ List.mem_cons_self) (by decide)
  refine .of_calls h.holds fun fuel hread => ?_
  rw [Source.readHead, hbracket]
  simp only [takeWord_append hw.chars ht, hread]

/-- What starts with a word is a head if the word reads the rest of it. -/
theorem IsWord.readsHead (hw : IsWord w) (hs : ∀ t, EndsHead t → startsWord (s ++ t) = false)
    (h : ∀ t, EndsHead t → Gives (readWord · w (s ++ t)) (e, t)) : ReadsHead (w ++ s) e where
  starts := startsExpr_append hw.starts s
  read {t} ht := by
    rw [List.append_assoc]
    exact hw.readHead (hs t ht) (h t ht)

/-- A word that stands for itself is a head. -/
theorem IsWord.readsHead_self (hw : IsWord w)
    (h : ∀ t, EndsHead t → ∀ fuel, readWord (fuel + 1) w t = some (e, t)) : ReadsHead w e := by
  rw [← List.append_nil w]
  exact hw.readsHead (fun t ht => ht.word) fun t ht => .of_call (h t ht)

/-! ## Literals -/

theorem readsHead_bool (b : Bool) : ReadsHead (Value.bool b).text (.literal (.bool b)) := by
  cases b <;>
    exact IsWord.readsHead_self (by decide) fun t _ fuel => by simp [Value.text, readWord]

theorem readsHead_null : ReadsHead Value.null.text (.literal .null) :=
  IsWord.readsHead_self (by decide) fun t _ fuel => by simp [Value.text, readWord]

/-- A word without a meaning of its own is a name or a numeral. -/
theorem readWord_of_not_reserved (hw : w ∉ reserved) (fuel : Nat) (t : Text) :
    readWord (fuel + 1) w t =
      if startsName w then
        match after? " = " t with
        | none => some (.var w, t)
        | some t => do
          let (rhs, t) ← readExpr fuel t
          return (.assign w rhs, t)
      else do
        let n ← number? w
        return (.literal (.int n), t) := by
  rw [readWord]
  split
  case h_9 => rfl
  all_goals
    next heq =>
      rw [Text.eq_ofString_of_toString? heq] at hw
      exact absurd (by decide) hw

theorem number?_renderInt {n : Int} (h : hasFewDigits n = true) :
    number? (.ofChars (renderInt n)) = some n := by
  rw [number?, Text.toChars?_ofChars]
  simp only [Option.bind_eq_bind, Option.bind_some, readInt_renderInt h]
  rfl

theorem isNameStart_of_isDigit {c : Char} (h : c.isDigit = true) : isNameStart c = false := by
  obtain ⟨hlow, hhigh, -⟩ := digit_spec h
  have all : ∀ n ∈ List.range 58, 48 ≤ n → isNameStart (Char.ofNat n) = false := by decide
  exact Char.ofNat_toNat c ▸ all c.toNat (List.mem_range.mpr (by omega)) hlow

/-- A written integer does not start like a name. -/
theorem startsName_renderInt (n : Int) : startsName (.ofChars (renderInt n)) = false := by
  obtain ⟨c, rest, heq, hc, -⟩ := exists_cons_numeral (isNumeral_toDigits n.natAbs) n
  rw [renderInt_eq, heq]
  obtain hc | ⟨rfl, -⟩ := hc
  · exact isNameStart_of_isDigit hc
  · rfl

/-- A written integer is a word. -/
theorem isWord_renderInt (n : Int) : IsWord (.ofChars (renderInt n)) := by
  obtain ⟨c, rest, heq, hc, hrest⟩ := exists_cons_numeral (isNumeral_toDigits n.natAbs) n
  have hdigit : ∀ {d : Char}, d.isDigit = true → isWordChar d = true := fun h => by
    simp [isWordChar, isNameChar, h]
  rw [renderInt_eq, heq]
  refine ⟨nofun, fun p hp => ?_⟩
  obtain ⟨d, hd, rfl⟩ := List.mem_map.mp hp
  obtain rfl | hd := List.mem_cons.mp hd
  · obtain hc | ⟨rfl, -⟩ := hc
    · exact hdigit hc
    · rfl
  · exact hdigit (hrest d hd)

theorem readsHead_int {n : Int} (h : hasFewDigits n = true) :
    ReadsHead (Value.int n).text (.literal (.int n)) := by
  have hstart := startsName_renderInt n
  have hreserved : Text.ofChars (renderInt n) ∉ reserved := by
    intro hmem
    -- All words with a meaning of their own start like names.
    have hnames : ∀ word ∈ reserved, startsName word = true := by decide
    rw [hnames _ hmem] at hstart
    cases hstart
  refine (isWord_renderInt n).readsHead_self fun t _ fuel => ?_
  rw [readWord_of_not_reserved hreserved, hstart, number?_renderInt h]
  rfl

/-! ## Names -/

theorem IsName.isWord (hw : IsName w) : IsWord w where
  ne_nil := by
    rintro rfl
    cases hw.start
  chars p hp := by
    have hp := hw.chars p hp
    cases p with
    | surrogate n => cases hp
    | char c => exact (Bool.or_eq_true _ _).mpr (.inl hp)

theorem IsName.readsHead (hw : IsName w) : ReadsHead w (.var w) := by
  refine hw.isWord.readsHead_self fun t ht fuel => ?_
  rw [readWord_of_not_reserved hw.not_reserved, if_pos hw.start, ht.assign]

theorem ReadsOperand.assign (h : ReadsOperand s e) (hw : IsName w) :
    ReadsOperand (w ++ " = " ++ s) (.assign w e) where
  starts := startsExpr_append (startsExpr_append hw.isWord.starts _) _
  read {t} ht := by
    simp only [List.append_assoc]
    refine readExpr_of_readHead (hw.isWord.readHead rfl ?_) (readCalls_of_endsOperand ht _)
    refine .of_calls (h.read ht).holds fun fuel hread => ?_
    rw [readWord_of_not_reserved hw.not_reserved, if_pos hw.start, after?_append]
    simp [hread]

theorem ReadsOperand.decl (h : ReadsOperand s e) (hw : IsName w) :
    ReadsOperand ("var " ++ w ++ " = " ++ s) (.decl w e) where
  starts := rfl
  read {t} ht := by
    have hsplit : "var " ++ w ++ " = " ++ s ++ t =
        "var" ++ (" " ++ (w ++ (" = " ++ (s ++ t)))) := by
      simp only [List.append_assoc]
      rfl
    have hname : takeWord (w ++ (" = " ++ (s ++ t))) = (w, " = " ++ (s ++ t)) :=
      takeWord_append hw.isWord.chars rfl
    rw [hsplit]
    refine readExpr_of_readHead (IsWord.readHead (by decide) rfl ?_)
      (readCalls_of_endsOperand ht _)
    refine .of_calls (h.read ht).holds fun fuel hread => ?_
    simp [readWord, hname, hread]

/-! ## Forms that start with a word of their own -/

theorem ReadsOperand.print (h : ReadsOperand s e) :
    ReadsHead ("print(" ++ s ++ ")") (.print e) := by
  have hword : ReadsHead ("print" ++ ("(" ++ s ++ ")")) (.print e) := by
    refine IsWord.readsHead (by decide) (fun _ _ => rfl) fun t _ => ?_
    refine .of_calls (h.read (endsOperand_bracket t)).holds fun fuel hread => ?_
    simp [readWord, hread]
  exact hword

variable {b b' : Option Expr}

theorem ReadsOperand.loop (h : ReadsOperand s e) (hb : ReadsBlock s' b) :
    ReadsHead ("while (" ++ s ++ ") " ++ s') (.loop e b) := by
  have hword : ReadsHead ("while" ++ (" (" ++ s ++ ") " ++ s')) (.loop e b) := by
    refine IsWord.readsHead (by decide) (fun _ _ => rfl) fun t _ => ?_
    have htest := h.read (endsOperand_test (s' ++ t))
    refine .of_calls (htest.holds.and (hb t).holds) fun fuel ⟨htest, hbody⟩ => ?_
    simp [readWord, htest, hbody]
  exact hword

/-- A choice without a second block, behind which no second one may stand. -/
theorem ReadsOperand.cond (h : ReadsOperand s e) (hb : ReadsBlock s' b) :
    ReadsHead ("if (" ++ s ++ ") " ++ s') (.cond e b none) := by
  have hword : ReadsHead ("if" ++ (" (" ++ s ++ ") " ++ s')) (.cond e b none) := by
    refine IsWord.readsHead (by decide) (fun _ _ => rfl) fun t ht => ?_
    have htest := h.read (endsOperand_test (s' ++ t))
    refine .of_calls (htest.holds.and (hb t).holds) fun fuel ⟨htest, hthn⟩ => ?_
    simp [readWord, htest, hthn, ht.els]
  exact hword

/-- A choice with a second block. -/
theorem ReadsOperand.condElse {u : Text} (h : ReadsOperand s e) (hb : ReadsBlock s' b)
    (hb' : ReadsBlock u b') :
    ReadsHead ("if (" ++ s ++ ") " ++ s' ++ (" else " ++ u)) (.cond e b b') := by
  have hword :
      ReadsHead ("if" ++ (" (" ++ s ++ ") " ++ s' ++ (" else " ++ u))) (.cond e b b') := by
    refine IsWord.readsHead (by decide) (fun _ _ => rfl) fun t _ => ?_
    have htest := h.read (endsOperand_test (s' ++ (" else " ++ (u ++ t))))
    have hthn := hb (" else " ++ (u ++ t))
    refine .of_calls ((htest.holds.and hthn.holds).and (hb' t).holds)
      fun fuel ⟨⟨htest, hthn⟩, hels⟩ => ?_
    simp [readWord, htest, hthn, hels]
  exact hword

@[simp]
theorem mapM_name?_var (names : List Text) : names.mapM (name? ∘ Expr.var) = some names := by
  induction names with
  | nil => rfl
  | cons name names ih => simp [name?, ih]

/-- Parameters are read like arguments. -/
theorem ReadsBlock.func {params : List Text} (hb : ReadsBlock s b)
    (hparams : ∀ p ∈ params, IsName p) :
    ReadsHead ("function(" ++ paramList params ++ ") " ++ s) (.func params b) := by
  have hargs : ReadsArgs (paramList params) (params.map .var) :=
    readsArgs_join (List.forall₂_map_right_iff.mpr
      (List.forall₂_same.mpr fun p hp => (hparams p hp).readsHead.callee.operand))
  have hword : ReadsHead ("function" ++ ("(" ++ paramList params ++ (")" ++ (" " ++ s))))
      (.func params b) := by
    refine IsWord.readsHead (by decide) (fun _ _ => rfl) fun t _ => ?_
    have hparams := hargs (" " ++ (s ++ t))
    refine .of_calls (hparams.holds.and (hb t).holds) fun fuel ⟨hparams, hbody⟩ => ?_
    simp [readWord, hparams, hbody]
  have hsplit : "function(" ++ paramList params ++ ") " ++ s =
      "function" ++ ("(" ++ paramList params ++ (")" ++ (" " ++ s))) := by
    simp only [List.append_assoc]
    rfl
  rwa [hsplit]

end Treewalk.Source
