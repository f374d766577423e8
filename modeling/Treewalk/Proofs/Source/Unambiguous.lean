import Treewalk.Proofs.Source.Productions

/-!
# Source tells expressions apart

The source of an expression that comes from source is read as the expression with its chains nested
to the left (`readStatements_source`). So two such expressions have the same source, at whatever
width and level, if and only if they are regrouped (`source_eq_iff_regrouped`).
-/

namespace Treewalk

namespace Source

open Number Treewalk.Expr

/-- What the reader makes of the text of an expression: a callee if it may be called, an operand if
it is no chain, and a chain in any case. -/
structure Reads (s : Text) (e e' : Expr) : Prop where
  callee : e.IsCallable → ReadsCallee s e'
  operand : e.IsSingle → ReadsOperand s e'
  chain : ReadsChain s e'

variable {s : Text} {e e' : Expr}

theorem ReadsCallee.reads (h : ReadsCallee s e') : Reads s e e' :=
  ⟨fun _ => h, fun _ => h.operand, h.operand.chain⟩

theorem ReadsHead.reads (h : ReadsHead s e') : Reads s e e' := h.callee.reads

theorem ReadsOperand.reads (h : ReadsOperand s e') (he : ¬e.IsCallable) : Reads s e e' :=
  ⟨fun hc => absurd hc he, fun _ => h, h.chain⟩

variable {width : Int}

/-- A callee is read in its brackets, or without any. -/
theorem Reads.call {level : Int} {args args' : List Expr}
    (h : Reads (source width level e) e e') (he : e.IsCallable)
    (hargs : List.Forall₂ ReadsOperand (argSources width level args) args') :
    ReadsCallee (source width level (.call e args)) (.call e' args') := by
  rw [source.eq_def]
  dsimp only
  -- Only a function stands in brackets.
  split
  · exact (h.operand he.isSingle).brackets.callee.call (readsArgs_join hargs)
  · exact (h.callee he).call (readsArgs_join hargs)

-- By induction on the expression. The level is free, because a block stands one level deeper.
mutual

/-- **The source of an expression is read as its left-nested form.** -/
theorem reads_source : ∀ {e : Expr}, e.WellFormed → e.FromSource → ∀ level,
    Reads (source width level e) e e.leftNested
  | .literal (.int _), hwf, _, _ => (readsHead_int (hasFewDigits_of_literal hwf.self)).reads
  | .literal (.bool b), _, _, _ => (readsHead_bool b).reads
  | .literal .null, _, _, _ => readsHead_null.reads
  | .literal (.closure ..), hwf, _, _ => absurd hwf.self id
  | .var _, _, hs, _ => (IsName.readsHead hs).reads
  | .print _, ⟨_, hwf⟩, ⟨harg, hs⟩, level => ((reads_source hwf hs level).operand harg).print.reads
  | .binop op _ _, ⟨_, hwfl, hwfr⟩, ⟨⟨hl, hr⟩, hsl, hsr⟩, level =>
    (((reads_source hwfl hsl level).operand hl).binop
      ((reads_source hwfr hsr level).operand hr) op).reads
  | .cond _ _ none, ⟨_, hwf, hwfb, _⟩, ⟨htest, hs, hsb, _⟩, level => by
    rw [source, elseSource, List.append_nil]
    exact (((reads_source hwf hs level).operand htest).cond
      (readsBlock_blockSource hwfb hsb level)).reads
  | .cond _ _ (some els), ⟨_, hwf, hwfb, hwfe⟩, ⟨htest, hs, hsb, hse⟩, level => by
    rw [source, elseSource_some]
    exact (((reads_source hwf hs level).operand htest).condElse
      (readsBlock_blockSource hwfb hsb level) (readsBlock_blockSource hwfe hse level)).reads
  | .loop _ _, ⟨_, hwf, hwfb⟩, ⟨htest, hs, hsb⟩, level =>
    (((reads_source hwf hs level).operand htest).loop
      (readsBlock_blockSource hwfb hsb level)).reads
  | .seq _ _, ⟨_, hwf, hwf'⟩, ⟨_, hs, hs'⟩, level =>
    ⟨nofun, nofun, (reads_source hwf hs level).chain.seq (reads_source hwf' hs' level).chain⟩
  | .decl _ _, ⟨_, hwf⟩, ⟨⟨hname, hinit⟩, hs⟩, level =>
    (((reads_source hwf hs level).operand hinit).decl hname).reads id
  | .assign _ _, ⟨_, hwf⟩, ⟨⟨hname, hrhs⟩, hs⟩, level =>
    (((reads_source hwf hs level).operand hrhs).assign hname).reads id
  | .func _ _, ⟨_, hwf⟩, ⟨hparams, hs⟩, level =>
    ((readsBlock_blockSource hwf hs level).func hparams).reads
  | .call _ _, ⟨_, hwf, hwfa⟩, ⟨⟨hcallee, hargs⟩, hs, hsa⟩, level =>
    ((reads_source hwf hs level).call hcallee
      (readsOperand_argSources hwfa hsa hargs level)).reads

theorem readsBlock_blockSource : ∀ {b : Option Expr}, EverywhereBlock NodeOk b →
    EverywhereBlock SourceNode b → ∀ level,
    ReadsBlock (blockSource width level b) (leftNestedBlock b)
  | none, _, _, _ => readsBlock_none
  | some _, hwf, hs, level => (reads_source hwf hs (level + 1)).chain.block

theorem readsOperand_argSources : ∀ {args : List Expr}, EverywhereArgs NodeOk args →
    EverywhereArgs SourceNode args → (∀ arg ∈ args, arg.IsSingle) → ∀ level,
    List.Forall₂ ReadsOperand (argSources width level args) (leftNestedArgs args)
  | [], _, _, _, _ => .nil
  | _ :: _, ⟨hwf, hwfs⟩, ⟨hs, hss⟩, hsingle, level =>
    have ⟨harg, hargs⟩ := List.forall_mem_cons.mp hsingle
    .cons ((reads_source hwf hs level).operand harg)
      (readsOperand_argSources hwfs hss hargs level)

end

/-- The source of an expression is read to its end. -/
theorem readStatements_source (hwf : e.WellFormed) (hs : e.FromSource) (width level : Int) :
    Gives (readStatements · none (source width level e)) (e.leftNested, []) := by
  have hreads : Reads (source width level e) e e.leftNested := reads_source hwf hs level
  have hend : Gives (readMore · e.leftNested []) (e.leftNested, []) := .of_call fun fuel => rfl
  have hchain := hreads.chain.read none endsOperand_nil hend
  rwa [List.append_nil] at hchain

end Source

namespace Expr

/-- **Regrouped expressions have the same source, and among expressions that come from source only
regrouped ones have.** -/
theorem source_eq_iff_regrouped :
    (∀ e e' : Expr, Regrouped e e' →
      ∀ width level, source width level e = source width level e') ∧
    ∀ e e' : Expr, e.WellFormed → e.FromSource → e'.WellFormed → e'.FromSource →
      ∀ width level, source width level e = source width level e' ↔ Regrouped e e' := by
  refine ⟨fun e e' h => h.source_eq, fun e e' hwf hs hwf' hs' width level =>
    ⟨fun heq => ?_, fun h => h.source_eq width level⟩⟩
  have hread := Source.readStatements_source hwf hs width level
  rw [heq] at hread
  have hsame := hread.unique (Source.readStatements_source hwf' hs' width level)
  exact leftNested_eq_iff.mp (congrArg Prod.fst hsame)

/-- Two loops over the statements `f(-1)`, `(function(x) {})()` and `y = (z == null)`. -/
theorem source_eq_iff_regrouped_loop :
    let first : Expr := .call (.var "f") [.literal (.int (-1))]
    let second : Expr := .call (.func ["x"] none) []
    let third : Expr := .assign "y" (.binop .eq (.var "z") (.literal .null))
    let e : Expr := .loop (.var "c") (some (.seq first (.seq second third)))
    let e' : Expr := .loop (.var "c") (some (.seq (.seq first second) third))
    e.WellFormed ∧ e.FromSource ∧ e'.WellFormed ∧ e'.FromSource ∧
      source 2 0 e = source 2 0 e' ∧ Regrouped e e' := by
  intro first second third e e'
  have hparts : first.WellFormed ∧ second.WellFormed ∧ third.WellFormed := by
    simp [first, second, third, WellFormed, Everywhere, EverywhereBlock, EverywhereArgs, NodeOk,
      Value.IsLiteral, Value.Everywhere]
    decide
  have hshapes : first.FromSource ∧ second.FromSource ∧ third.FromSource := by
    simp [first, second, third, FromSource, Everywhere, EverywhereBlock, EverywhereArgs, SourceNode,
      IsSingle, IsCallable, Value.Everywhere]
    decide
  have hname : Source.IsName "c" := by decide
  obtain ⟨hwf₁, hwf₂, hwf₃⟩ := hparts
  obtain ⟨hs₁, hs₂, hs₃⟩ := hshapes
  have hc : ("c" : Text) ≠ [] := by decide
  have hwf : e.WellFormed := ⟨trivial, hc, trivial, hwf₁, trivial, hwf₂, hwf₃⟩
  have hwf' : e'.WellFormed := ⟨trivial, hc, trivial, ⟨trivial, hwf₁, hwf₂⟩, hwf₃⟩
  have hs : e.FromSource := ⟨trivial, hname, trivial, hs₁, trivial, hs₂, hs₃⟩
  have hs' : e'.FromSource := ⟨trivial, hname, trivial, ⟨trivial, hs₁, hs₂⟩, hs₃⟩
  exact ⟨hwf, hs, hwf', hs', rfl,
    (source_eq_iff_regrouped.2 e e' hwf hs hwf' hs' 2 0).mp rfl⟩

-- Were a declaration called, its source would be that of the declaration of what the call gives.
example : source 2 0 (.call (.decl "x" (.var "f")) []) =
    source 2 0 (.decl "x" (.call (.var "f") [])) := rfl

end Expr

end Treewalk
