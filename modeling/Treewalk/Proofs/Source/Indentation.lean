import Treewalk.Proofs.Source.Productions
import Treewalk.Proofs.Syntax.Within

/-!
# Source at deeper levels

The source of an expression at a deeper level is its source with more blanks behind each line break
(`indent_source`), if no line break stands in a name. What lies within an expression stands in its
source as it is or, if it is a block, one level deeper (`Within.source_infix`). So an expression is
laid out alike wherever it stands, but for the indentation.
-/

namespace Treewalk

namespace Text

variable {n : Nat} {t : Text}

/-! ## Indented texts -/

/-- Whether there is no line break in a text. -/
def IsOneLine (t : Text) : Prop := .char '\n' ∉ t

instance (t : Text) : Decidable t.IsOneLine := inferInstanceAs (Decidable (¬_))

/-- The text with `n` blanks behind each line break. -/
def indent (n : Nat) (t : Text) : Text :=
  t.flatMap fun p => if p = .char '\n' then p :: List.replicate n ' ' else [p]

theorem indent_append (n : Nat) (t t' : Text) : (t ++ t').indent n = t.indent n ++ t'.indent n :=
  List.flatMap_append

/-- Where there is no line break, there is nothing to indent. -/
theorem indent_of_isOneLine (h : t.IsOneLine) : t.indent n = t := by
  induction t with
  | nil => rfl
  | cons p t ih =>
    obtain ⟨hp, ht⟩ := not_or.mp (mt List.mem_cons.mpr h)
    rw [indent, List.flatMap_cons, if_neg (Ne.symm hp)]
    exact congrArg (p :: ·) (ih ht)

theorem join_cons_cons (separator t t' : Text) (texts : List Text) :
    join separator (t :: t' :: texts) = t ++ separator ++ join separator (t' :: texts) :=
  List.intercalate_cons_cons

/-- Joined texts are indented one by one. -/
theorem indent_join (n : Nat) (separator : Text) (texts : List Text) :
    (join separator texts).indent n = join (separator.indent n) (texts.map (indent n)) := by
  induction texts with
  | nil => rfl
  | cons t texts ih =>
    cases texts with
    | nil => simp [join, List.intercalate_singleton]
    | cons t' texts =>
      rw [join_cons_cons, indent_append, indent_append, ih, List.map_cons, List.map_cons,
        List.map_cons, join_cons_cons]

/-- Each of the joined texts stands in the whole. -/
theorem infix_join {separator : Text} {texts : List Text} (h : t ∈ texts) :
    t <:+: join separator texts := by
  induction texts with
  | nil => cases h
  | cons s texts ih =>
    cases texts with
    | nil =>
      simp only [List.mem_singleton.mp h, join, List.intercalate_singleton, List.infix_rfl]
    | cons s' texts =>
      rw [join_cons_cons]
      obtain rfl | h := List.mem_cons.mp h
      · exact ⟨[], separator ++ join separator (s' :: texts), by simp⟩
      · exact List.infix_append_of_infix_right (ih h)

end Text

namespace Expr

open Text

/-! ## Names -/

/-- Whether no line break stands in the names of a node. -/
def NamesOnOneLine : Expr → Prop
  | .var name | .decl name _ | .assign name _ => name.IsOneLine
  | .func params _ => ∀ p ∈ params, p.IsOneLine
  | _ => True

/-- Whether no line break stands in any name inside an expression. -/
def OneLineNames (e : Expr) : Prop := e.Everywhere NamesOnOneLine

theorem indent_paramList {n : Nat} {params : List Text} (h : ∀ p ∈ params, p.IsOneLine) :
    (paramList params).indent n = paramList params := by
  rw [paramList, indent_join, indent_of_isOneLine (by decide),
    List.map_congr_left fun p hp => indent_of_isOneLine (h p hp), List.map_id']

/-- The text of a literal has no line break. -/
theorem isOneLine_text {v : Value} (h : v.IsLiteral) : v.text.IsOneLine := by
  cases v with
  | int n => exact fun hmem => absurd ((Source.isWord_renderInt n).chars _ hmem) (by decide)
  | bool b => cases b <;> decide
  | null => decide
  | closure => cases h

theorem isOneLine_symbol (op : Op) : (op.symbol : Text).IsOneLine := by
  cases op <;> decide

/-! ## The margin -/

variable {width level extra : Int}

/-- The margin of a deeper level is wider. -/
theorem margin_add (hlevel : 0 ≤ level) (hextra : 0 ≤ extra) :
    margin width (level + extra) =
      List.replicate (extra * width).toNat (.char ' ') ++ margin width level := by
  have hwidth : (extra * width).toNat = width.toNat * extra.toNat := by
    obtain hw | hw := Int.le_total 0 width
    · rw [Int.toNat_mul hextra hw, Nat.mul_comm]
    · have hproduct : extra * width ≤ 0 := Int.mul_nonpos_of_nonneg_of_nonpos hextra hw
      rw [Int.toNat_of_nonpos hw, Int.toNat_of_nonpos hproduct, Nat.zero_mul]
  rw [margin, margin, List.replicate_append_replicate, hwidth, Int.toNat_add hlevel hextra,
    Nat.mul_add, Nat.add_comm]

theorem indent_newLine (hlevel : 0 ≤ level) (hextra : 0 ≤ extra) :
    (newLine width level).indent (extra * width).toNat = newLine width (level + extra) := by
  have hmargin : (margin width level).IsOneLine := fun hmem =>
    absurd (List.mem_replicate.mp hmem).2 (by decide)
  rw [newLine, newLine, margin_add hlevel hextra, indent, List.flatMap_cons, if_pos rfl]
  exact congrArg _ (indent_of_isOneLine hmargin)

/-! ## Callees -/

/-- The source of a callee: that of a function stands in brackets. -/
def inBrackets : Expr → Text → Text
  | .func .., head => "(" ++ head ++ ")"
  | _, head => head

theorem source_call (callee : Expr) (args : List Expr) :
    source width level (.call callee args) =
      callee.inBrackets (source width level callee) ++ "(" ++
        Text.join ", " (args.map (source width level)) ++ ")" := by
  rw [source.eq_def, ← argSources_eq_map]
  cases callee <;> rfl

theorem indent_inBrackets (n : Nat) (callee : Expr) (head : Text) :
    (callee.inBrackets head).indent n = callee.inBrackets (head.indent n) := by
  cases callee with
  | func params body =>
    simp (disch := decide) only [inBrackets, indent_append, indent_of_isOneLine]
  | _ => rfl

theorem infix_inBrackets (callee : Expr) (head : Text) : head <:+: callee.inBrackets head := by
  cases callee with
  | func params body => exact List.infix_append _ _ _
  | _ => exact List.infix_rfl

/-! ## Deeper levels -/

-- By induction on the expression. The level is free, because a block stands one level deeper. That
-- there is no line break in the words between the parts is decided.
mutual

/-- **Source at a deeper level is indented source.** -/
theorem indent_source (hextra : 0 ≤ extra) : ∀ {e : Expr}, e.WellFormed → e.OneLineNames →
    ∀ {level : Int}, 0 ≤ level →
      (source width level e).indent (extra * width).toNat = source width (level + extra) e
  | .literal _, hwf, _, _, _ => by
    rw [source, source, indent_of_isOneLine (isOneLine_text hwf.self)]
  | .var _, _, hname, _, _ => by
    rw [source, source, indent_of_isOneLine hname]
  | .print _, ⟨_, hwf⟩, ⟨_, hnames⟩, _, hlevel => by
    simp (disch := decide) only [source, indent_append, indent_of_isOneLine,
      indent_source hextra hwf hnames hlevel]
  | .binop op _ _, ⟨_, hwfl, hwfr⟩, ⟨_, hnamesl, hnamesr⟩, _, hlevel => by
    simp (disch := decide) only [source, indent_append, indent_of_isOneLine,
      indent_of_isOneLine (isOneLine_symbol op), indent_source hextra hwfl hnamesl hlevel,
      indent_source hextra hwfr hnamesr hlevel]
  | .cond _ _ none, ⟨_, hwf, hwfb, _⟩, ⟨_, hnames, hnamesb, _⟩, _, hlevel => by
    simp (disch := decide) only [source, elseSource, indent_append, indent_of_isOneLine,
      indent_source hextra hwf hnames hlevel, indent_blockSource hextra hwfb hnamesb hlevel]
  | .cond _ _ (some _), ⟨_, hwf, hwfb, hwfe⟩, ⟨_, hnames, hnamesb, hnamese⟩, _, hlevel => by
    simp (disch := decide) only [source, elseSource_some, indent_append, indent_of_isOneLine,
      indent_source hextra hwf hnames hlevel, indent_blockSource hextra hwfb hnamesb hlevel,
      indent_blockSource hextra hwfe hnamese hlevel]
  | .loop _ _, ⟨_, hwf, hwfb⟩, ⟨_, hnames, hnamesb⟩, _, hlevel => by
    simp (disch := decide) only [source, indent_append, indent_of_isOneLine,
      indent_source hextra hwf hnames hlevel, indent_blockSource hextra hwfb hnamesb hlevel]
  | .seq _ _, ⟨_, hwf, hwf'⟩, ⟨_, hnames, hnames'⟩, _, hlevel => by
    simp (disch := decide) only [source, indent_append, indent_of_isOneLine,
      indent_newLine hlevel hextra, indent_source hextra hwf hnames hlevel,
      indent_source hextra hwf' hnames' hlevel]
  | .decl _ _, ⟨_, hwf⟩, ⟨hname, hnames⟩, _, hlevel => by
    simp (disch := decide) only [source, indent_append, indent_of_isOneLine,
      indent_of_isOneLine hname, indent_source hextra hwf hnames hlevel]
  | .assign _ _, ⟨_, hwf⟩, ⟨hname, hnames⟩, _, hlevel => by
    simp (disch := decide) only [source, indent_append, indent_of_isOneLine,
      indent_of_isOneLine hname, indent_source hextra hwf hnames hlevel]
  | .func _ _, ⟨_, hwf⟩, ⟨hparams, hnames⟩, _, hlevel => by
    simp (disch := decide) only [source, indent_append, indent_of_isOneLine,
      indent_paramList hparams, indent_blockSource hextra hwf hnames hlevel]
  | .call _ _, ⟨_, hwf, hwfa⟩, ⟨_, hnames, hnamesa⟩, _, hlevel => by
    simp (disch := decide) only [source_call, indent_append, indent_inBrackets, indent_join,
      indent_of_isOneLine, List.map_map, indent_source hextra hwf hnames hlevel,
      indent_argSources hextra hwfa hnamesa hlevel]

theorem indent_blockSource (hextra : 0 ≤ extra) : ∀ {b : Option Expr}, EverywhereBlock NodeOk b →
    EverywhereBlock NamesOnOneLine b → ∀ {level : Int}, 0 ≤ level →
      (blockSource width level b).indent (extra * width).toNat =
        blockSource width (level + extra) b
  | none, _, _, _, _ => by rw [blockSource, blockSource, indent_of_isOneLine (by decide)]
  | some _, hwf, hnames, level, hlevel => by
    have hinner : 0 ≤ level + 1 := Int.le_add_one hlevel
    simp (disch := decide) only [blockSource, indent_append, indent_of_isOneLine,
      indent_newLine hlevel hextra, indent_newLine hinner hextra,
      indent_source hextra hwf hnames hinner, Int.add_right_comm level 1 extra]

theorem indent_argSources (hextra : 0 ≤ extra) : ∀ {args : List Expr}, EverywhereArgs NodeOk args →
    EverywhereArgs NamesOnOneLine args → ∀ {level : Int}, 0 ≤ level →
      args.map (Text.indent (extra * width).toNat ∘ source width level) =
        args.map (source width (level + extra))
  | [], _, _, _, _ => rfl
  | _ :: _, ⟨hwf, hwfs⟩, ⟨hnames, hnamess⟩, _, hlevel => by
    rw [List.map_cons, List.map_cons, indent_argSources hextra hwfs hnamess hlevel,
      Function.comp_apply, indent_source hextra hwf hnames hlevel]

end

/-! ## Nested expressions -/

variable {p e : Expr}

/-- The body of a block stands in its source, one level deeper. -/
theorem infix_blockSource (width level : Int) (body : Expr) :
    source width (level + 1) body <:+: blockSource width level (some body) := by
  rw [blockSource, List.append_assoc, List.append_assoc]
  exact List.infix_append _ _ _

/-- What lies directly within an expression stands in its source, as it is or as a block. -/
theorem Within.source_infix (h : p.Within e) (hwf : e.WellFormed) :
    (∀ width level, source width level p <:+: source width level e) ∨
      ∀ width level, blockSource width level (some p) <:+: source width level e := by
  cases h with
  | closure => exact absurd hwf.self id
  | body =>
    refine .inr fun width level => ?_
    rw [source]
    exact (List.suffix_append _ _).isInfix
  | child h =>
    cases h with
    | print | right =>
      refine .inl fun width level => ?_
      rw [source]
      exact List.infix_append _ _ _
    | left | choiceTest | loopTest =>
      refine .inl fun width level => ?_
      simp only [source, List.append_assoc]
      exact List.infix_append' _ _ _
    | first =>
      refine .inl fun width level => ?_
      rw [source, List.append_assoc, List.append_assoc]
      exact (List.prefix_append _ _).isInfix
    | second | init | rhs =>
      refine .inl fun width level => ?_
      rw [source]
      exact (List.suffix_append _ _).isInfix
    | thn =>
      refine .inr fun width level => ?_
      rw [source]
      exact List.infix_append _ _ _
    | els =>
      refine .inr fun width level => ?_
      rw [source, elseSource_some]
      exact List.infix_append_of_infix_right (List.suffix_append _ _).isInfix
    | body =>
      refine .inr fun width level => ?_
      rw [source]
      exact (List.suffix_append _ _).isInfix
    | callee =>
      refine .inl fun width level => ?_
      rw [source_call, List.append_assoc, List.append_assoc]
      exact List.infix_append_of_infix_left (infix_inBrackets _ _)
    | arg harg =>
      refine .inl fun width level => ?_
      rw [source_call]
      exact (infix_join (List.mem_map_of_mem harg)).trans (List.infix_append _ _ _)

/-- What lies inside an expression stands in its source, some levels deeper. How many depends
neither on the width nor on the level of the expression. -/
theorem Inside.exists_infix (h : p.Inside e) (hwf : e.WellFormed) :
    ∃ depth : Nat, ∀ width level,
      source width (level + depth) p <:+: source width level e := by
  induction h with
  | refl =>
    refine ⟨0, fun width level => ?_⟩
    simp only [Int.natCast_zero, Int.add_zero, List.infix_rfl]
  | tail _ h ih =>
    obtain ⟨depth, hdepth⟩ := ih (hereditary_everywhere _ h hwf)
    obtain hplain | hblock := h.source_infix hwf
    · exact ⟨depth, fun width level => (hdepth width level).trans (hplain width level)⟩
    · refine ⟨depth + 1, fun width level => ?_⟩
      rw [Int.natCast_add, Int.natCast_one, Int.add_comm (depth : Int), ← Int.add_assoc]
      exact ((hdepth width (level + 1)).trans (infix_blockSource width level _)).trans
        (hblock width level)

/-- **Source at a deeper level is indented source, and what lies inside an expression is laid out
there as at level zero, but for the indentation.** -/
theorem source_indented :
    (∀ e : Expr, e.WellFormed → e.OneLineNames → ∀ width level extra : Int, 0 ≤ level → 0 ≤ extra →
      source width (level + extra) e = (source width level e).indent (extra * width).toNat) ∧
    ∀ e p : Expr, e.WellFormed → e.OneLineNames → p.Inside e → ∃ depth : Nat,
      ∀ width level : Int, 0 ≤ level →
        (source width 0 p).indent ((level + depth) * width).toNat <:+: source width level e := by
  refine ⟨fun e hwf hnames width level extra hlevel hextra =>
    (indent_source hextra hwf hnames hlevel).symm, fun e p hwf hnames hp => ?_⟩
  have hwfp : p.WellFormed := Hereditary.inside (hereditary_everywhere _) hp hwf
  have hnamesp : p.OneLineNames := Hereditary.inside (hereditary_everywhere _) hp hnames
  obtain ⟨depth, hdepth⟩ := hp.exists_infix hwf
  refine ⟨depth, fun width level hlevel => ?_⟩
  have hdeeper : 0 ≤ level + depth := Int.add_nonneg hlevel (Int.natCast_nonneg depth)
  rw [indent_source hdeeper hwfp hnamesp (Int.le_refl 0), Int.zero_add]
  exact hdepth width level

/-- The source of a function at the first level and at the third one, and of a choice in it. -/
theorem source_indented_function :
    let p : Expr := .cond (.var "x") (some (.print (.var "y"))) none
    let e : Expr := .func ["x", "y"] (some (.seq p (.call (.func [] none) [.literal .null])))
    e.WellFormed ∧ e.OneLineNames ∧ p.Inside e ∧
      source 2 (1 + 2) e = (source 2 1 e).indent 4 ∧
      ∃ depth : Nat, (source 2 0 p).indent ((1 + depth : Int) * 2).toNat <:+: source 2 1 e := by
  intro p e
  have hwf : e.WellFormed := by
    simp [e, p, WellFormed, Everywhere, EverywhereBlock, EverywhereArgs, NodeOk,
      Value.IsLiteral, Value.Everywhere]
    decide
  have hnames : e.OneLineNames := by
    simp [e, p, OneLineNames, Everywhere, EverywhereBlock, EverywhereArgs, NamesOnOneLine,
      Value.Everywhere]
    decide
  have hp : p.Inside e := .head (.child .first) (.single .body)
  obtain ⟨depth, hdepth⟩ := source_indented.2 e p hwf hnames hp
  exact ⟨hwf, hnames, hp, source_indented.1 e hwf hnames 2 1 2 (by decide) (by decide),
    depth, hdepth 2 1 (by decide)⟩

-- A line break in a name is not followed by the margin of a deeper level.
example : source 2 (0 + 1) (.var "a\nb") ≠ (source 2 0 (.var "a\nb")).indent 2 := by decide

end Expr

end Treewalk
