import Treewalk.Tree.Decode

/-!
# What the readers of a record accept

The decoder reads a record by readers of its fields, each with a reader of children as argument. For
each of them it is said once when it accepts, and with what result. A tag says which fields are
read, and what is made of them: `ReadsAs` has one rule for each tag, and a record is accepted
exactly where a rule applies (`tagged_eq_ok_iff`). So what follows from reading a record has one
case for each rule.
-/

namespace Treewalk.Tree

open Document

theorem bind_eq_ok {ε α β : Type} {x : Except ε α} {f : α → Except ε β} {b : β} :
    (x >>= f) = .ok b ↔ ∃ a, x = .ok a ∧ f a = .ok b := by
  cases x <;> simp [bind, Except.bind]

variable {table : Array Document} {child : Document → Decoded}
  {entries : List (Document × Document)} {tag field : String}

/-! ## Fields -/

theorem required_eq_ok_iff {d : Document} :
    required tag entries field = .ok d ↔ field? field entries = some d ∧ d ≠ .null := by
  unfold required
  split
  · next h => simp [h]
  · next h =>
    rw [h]
    constructor
    · intro h
      cases h
    · rintro ⟨h, hd⟩
      exact absurd (Option.some.inj h).symm hd
  · next d' hd' h =>
    rw [h]
    constructor
    · intro heq
      cases heq
      exact ⟨rfl, hd'⟩
    · rintro ⟨heq, -⟩
      rw [Option.some.inj heq]

theorem requiredName_eq_ok_iff {name : Text} :
    requiredName tag entries = .ok name ↔
      field? "name" entries = some (.text name) ∧ name ≠ [] := by
  constructor
  · intro h
    obtain ⟨d, hd, h⟩ := bind_eq_ok.mp h
    split at h
    · split at h
      · cases h
      · next hname =>
        cases h
        exact ⟨(required_eq_ok_iff.mp hd).1, by simpa using hname⟩
    · cases h
  · rintro ⟨hfield, hname⟩
    refine bind_eq_ok.mpr ⟨_, required_eq_ok_iff.mpr ⟨hfield, by simp⟩, ?_⟩
    dsimp only
    rw [if_neg (by simpa using hname)]
    rfl

theorem intLiteral_eq_ok_iff {d : Document} {e : Expr} :
    intLiteral table d = .ok e ↔
      ∃ n, d = .int n ∧ (Value.intMin ≤ n ∧ n ≤ Value.intMax) ∧ e = .literal (.int n) := by
  constructor
  · intro h
    unfold intLiteral at h
    split at h
    · split at h
      · next hn =>
        cases h
        exact ⟨_, rfl, hn, rfl⟩
      · cases h
    · cases h
  · rintro ⟨n, rfl, hn, rfl⟩
    exact if_pos hn

theorem paramNames_eq_ok_iff {items : List Document} {names : List Text} :
    paramNames items = .ok names ↔ items = names.map .text ∧ ∀ name ∈ names, name ≠ [] := by
  constructor
  · intro h
    induction items generalizing names with
    | nil =>
      cases h
      exact ⟨rfl, List.forall_mem_nil _⟩
    | cons d items ih =>
      cases d with
      | text t =>
        simp only [paramNames] at h
        split at h
        · cases h
        · next ht =>
          split at h
          · next hrest =>
            cases h
            obtain ⟨rfl, hnames⟩ := ih hrest
            exact ⟨rfl, List.forall_mem_cons.mpr ⟨by simpa using ht, hnames⟩⟩
          · cases h
      | _ => cases h
  · rintro ⟨rfl, hnames⟩
    induction names with
    | nil => rfl
    | cons name names ih =>
      obtain ⟨hname, hnames⟩ := List.forall_mem_cons.mp hnames
      have hempty : name.isEmpty = false := by simpa using hname
      simp [paramNames, hempty, ih hnames]

/-- A list field that is absent or counts as empty has no items; any other one has to be a list. -/
theorem listField_eq_ok_iff {fault : TreeFault} {items : List Document} :
    listField table fault entries field = .ok items ↔
      field? field entries = none ∧ items = [] ∨ ∃ d, field? field entries = some d ∧
        (d.isEmpty = true ∧ items = [] ∨
          d.isEmpty = false ∧ Data.follow table d = .list items) := by
  unfold listField
  split
  · next hfield =>
    rw [hfield]
    constructor
    · intro h
      cases h
      exact .inl ⟨rfl, rfl⟩
    · rintro (⟨-, rfl⟩ | ⟨d, h, -⟩)
      · rfl
      · cases h
  · next d hfield =>
    rw [hfield]
    constructor
    · intro h
      refine .inr ⟨d, rfl, ?_⟩
      split at h
      · next hempty =>
        cases h
        exact .inl ⟨hempty, rfl⟩
      · next hempty =>
        split at h
        · next hlist =>
          cases h
          exact .inr ⟨by simpa using hempty, hlist⟩
        · cases h
    · rintro (⟨h, -⟩ | ⟨d, ⟨⟩, ⟨hempty, rfl⟩ | ⟨hempty, hlist⟩⟩)
      · cases h
      · rw [if_pos hempty]
      · rw [if_neg (by simp [hempty]), hlist]

/-- A field that is a list is read as its items. -/
theorem listField_of_follow {fault : TreeFault} {d : Document} {items : List Document}
    (hfield : field? field entries = some d) (hlist : Data.follow table d = .list items) :
    listField table fault entries field = .ok items := by
  refine listField_eq_ok_iff.mpr (.inr ⟨d, hfield, ?_⟩)
  cases hempty : d.isEmpty with
  | false => exact .inr ⟨rfl, hlist⟩
  | true =>
    -- A link never counts as empty, so this is the empty list.
    cases d with
    | list items' =>
      cases hlist
      exact .inl ⟨rfl, List.isEmpty_iff.mp hempty⟩
    | link place => cases hempty
    | _ => cases hlist

/-! ## Children -/

theorem requiredExpr_eq_ok_iff {e : Expr} :
    requiredExpr child tag entries field = .ok e ↔
      ∃ d, (field? field entries = some d ∧ d ≠ .null) ∧ child d = .ok (some e) := by
  constructor
  · intro h
    obtain ⟨d, hd, h⟩ := bind_eq_ok.mp h
    obtain ⟨e?, he, h⟩ := bind_eq_ok.mp h
    cases e? with
    | none => cases h
    | some e' =>
      cases h
      exact ⟨d, required_eq_ok_iff.mp hd, he⟩
  · rintro ⟨d, hd, he⟩
    exact bind_eq_ok.mpr ⟨d, required_eq_ok_iff.mpr hd, bind_eq_ok.mpr ⟨some e, he, rfl⟩⟩

/-- A child that may be absent, null or an empty block. -/
theorem block_eq_ok_iff {b : Option Expr} :
    block child entries field = .ok b ↔
      field? field entries = none ∧ b = none ∨ field? field entries = some .null ∧ b = none ∨
        ∃ d, (field? field entries = some d ∧ d ≠ .null) ∧ child d = .ok b := by
  unfold block
  split
  · next hfield => simp [hfield, eq_comm]
  · next hfield => simp [hfield, eq_comm]
  · next d hnull hfield =>
    rw [hfield]
    constructor
    · intro h
      exact .inr (.inr ⟨d, ⟨rfl, hnull⟩, h⟩)
    · rintro (⟨h, -⟩ | ⟨h, -⟩ | ⟨d', ⟨h, -⟩, hread⟩)
      · cases h
      · exact absurd (Option.some.inj h) hnull
      · cases h
        exact hread

theorem statements_cons_eq_ok_iff {d : Document} {ds : List Document} {es : List Expr}
    (hd : d ≠ .null) :
    statements child (d :: ds) = .ok es ↔
      ∃ e? rest, child d = .ok e? ∧ statements child ds = .ok rest ∧ es = e?.toList ++ rest := by
  rw [statements]
  · constructor
    · intro h
      obtain ⟨e?, he, h⟩ := bind_eq_ok.mp h
      obtain ⟨rest, hrest, h⟩ := bind_eq_ok.mp h
      cases e? <;> cases h <;> exact ⟨_, rest, he, hrest, rfl⟩
    · rintro ⟨e?, rest, he, hrest, rfl⟩
      refine bind_eq_ok.mpr ⟨e?, he, bind_eq_ok.mpr ⟨rest, hrest, ?_⟩⟩
      cases e? <;> rfl
  · exact hd

theorem arguments_cons_eq_ok_iff {d : Document} {ds : List Document} {es : List Expr} :
    arguments child (d :: ds) = .ok es ↔
      ∃ e rest, child d = .ok (some e) ∧ arguments child ds = .ok rest ∧ es = e :: rest := by
  constructor
  · intro h
    obtain ⟨e?, he, h⟩ := bind_eq_ok.mp h
    cases e? with
    | none => cases h
    | some e =>
      obtain ⟨rest, hrest, h⟩ := bind_eq_ok.mp h
      cases h
      exact ⟨e, rest, he, hrest, rfl⟩
  · rintro ⟨e, rest, he, hrest, rfl⟩
    exact bind_eq_ok.mpr ⟨some e, he, bind_eq_ok.mpr ⟨rest, hrest, rfl⟩⟩

/-! ## Records -/

/-- What a record with a tag is read as. -/
inductive ReadsAs (table : Array Document) (child : Document → Decoded)
    (entries : List (Document × Document)) : String → Option Expr → Prop where
  | int {d e} : required "int" entries "value" = .ok d → intLiteral table d = .ok e →
    ReadsAs table child entries "int" (some e)
  | bool {b} : required "bool" entries "value" = .ok (.bool b) →
    ReadsAs table child entries "bool" (some (.literal (.bool b)))
  | null : ReadsAs table child entries "null" (some (.literal .null))
  | block {tag items e?} : tag = "block" ∨ tag = "program" →
    listField table (.bodyNotAList tag) entries "body" = .ok items → child (.list items) = .ok e? →
    ReadsAs table child entries tag e?
  | seq {first second} : requiredExpr child "seq" entries "first" = .ok first →
    requiredExpr child "seq" entries "second" = .ok second →
    ReadsAs table child entries "seq" (some (.seq first second))
  | var {name} : requiredName "var" entries = .ok name →
    ReadsAs table child entries "var" (some (.var name))
  | decl {name init} : requiredName "vardecl" entries = .ok name →
    requiredExpr child "vardecl" entries "expr" = .ok init →
    ReadsAs table child entries "vardecl" (some (.decl name init))
  | assign {name rhs} : requiredName "assign" entries = .ok name →
    requiredExpr child "assign" entries "expr" = .ok rhs →
    ReadsAs table child entries "assign" (some (.assign name rhs))
  | binop {given op left right} : required "binop" entries "op" = .ok given →
    given.asText.toString?.bind Op.lookup? = some op →
    requiredExpr child "binop" entries "left" = .ok left →
    requiredExpr child "binop" entries "right" = .ok right →
    ReadsAs table child entries "binop" (some (.binop op left right))
  | cond {test thn els} : field? "then" entries ≠ none →
    requiredExpr child "if" entries "cond" = .ok test →
    Tree.block child entries "then" = .ok thn → Tree.block child entries "else" = .ok els →
    ReadsAs table child entries "if" (some (.cond test thn els))
  | loop {test body} : field? "body" entries ≠ none →
    requiredExpr child "while" entries "cond" = .ok test →
    Tree.block child entries "body" = .ok body →
    ReadsAs table child entries "while" (some (.loop test body))
  | print {arg} : requiredExpr child "print" entries "expr" = .ok arg →
    ReadsAs table child entries "print" (some (.print arg))
  | func {items params body} : listField table .paramsNotNames entries "params" = .ok items →
    paramNames items = .ok params → Tree.block child entries "body" = .ok body →
    ReadsAs table child entries "function" (some (.func params body))
  | call {items args callee} : listField table .argsNotAList entries "args" = .ok items →
    arguments child items = .ok args → requiredExpr child "call" entries "func" = .ok callee →
    ReadsAs table child entries "call" (some (.call callee args))

theorem readsAs_of_tagged {e? : Option Expr} (h : tagged table child entries tag = .ok e?) :
    ReadsAs table child entries tag e? := by
  unfold tagged at h
  split at h
  · -- int
    obtain ⟨d, hd, h⟩ := bind_eq_ok.mp h
    obtain ⟨lit, hlit, h⟩ := bind_eq_ok.mp h
    cases h
    exact .int hd hlit
  · -- bool
    obtain ⟨d, hd, h⟩ := bind_eq_ok.mp h
    split at h
    · cases h
      exact .bool hd
    · cases h
  · -- null
    cases h
    exact .null
  · -- program
    obtain ⟨items, hitems, h⟩ := bind_eq_ok.mp h
    exact .block (.inr rfl) hitems h
  · -- block
    obtain ⟨items, hitems, h⟩ := bind_eq_ok.mp h
    exact .block (.inl rfl) hitems h
  · -- seq
    obtain ⟨first, hfirst, h⟩ := bind_eq_ok.mp h
    obtain ⟨second, hsecond, h⟩ := bind_eq_ok.mp h
    cases h
    exact .seq hfirst hsecond
  · -- var
    obtain ⟨name, hname, h⟩ := bind_eq_ok.mp h
    cases h
    exact .var hname
  · -- vardecl
    obtain ⟨name, hname, h⟩ := bind_eq_ok.mp h
    obtain ⟨init, hinit, h⟩ := bind_eq_ok.mp h
    cases h
    exact .decl hname hinit
  · -- assign
    obtain ⟨name, hname, h⟩ := bind_eq_ok.mp h
    obtain ⟨rhs, hrhs, h⟩ := bind_eq_ok.mp h
    cases h
    exact .assign hname hrhs
  · -- binop
    obtain ⟨given, hgiven, h⟩ := bind_eq_ok.mp h
    split at h
    · cases h
    · next hop =>
      obtain ⟨left, hleft, h⟩ := bind_eq_ok.mp h
      obtain ⟨right, hright, h⟩ := bind_eq_ok.mp h
      cases h
      exact .binop hgiven hop hleft hright
  · -- if
    split at h
    · cases h
    · next hthen =>
      obtain ⟨test, htest, h⟩ := bind_eq_ok.mp h
      obtain ⟨thn, hthn, h⟩ := bind_eq_ok.mp h
      obtain ⟨els, hels, h⟩ := bind_eq_ok.mp h
      cases h
      exact .cond (by simpa using hthen) htest hthn hels
  · -- while
    split at h
    · cases h
    · next hthere =>
      obtain ⟨test, htest, h⟩ := bind_eq_ok.mp h
      obtain ⟨body, hbody, h⟩ := bind_eq_ok.mp h
      cases h
      exact .loop (by simpa using hthere) htest hbody
  · -- print
    obtain ⟨arg, harg, h⟩ := bind_eq_ok.mp h
    cases h
    exact .print harg
  · -- function
    obtain ⟨items, hitems, h⟩ := bind_eq_ok.mp h
    obtain ⟨params, hparams, h⟩ := bind_eq_ok.mp h
    obtain ⟨body, hbody, h⟩ := bind_eq_ok.mp h
    cases h
    exact .func hitems hparams hbody
  · -- call
    obtain ⟨items, hitems, h⟩ := bind_eq_ok.mp h
    obtain ⟨args, hargs, h⟩ := bind_eq_ok.mp h
    obtain ⟨callee, hcallee, h⟩ := bind_eq_ok.mp h
    cases h
    exact .call hitems hargs hcallee
  · cases h

theorem ReadsAs.tagged {e? : Option Expr} (h : ReadsAs table child entries tag e?) :
    tagged table child entries tag = .ok e? := by
  cases h with
  | int hd hlit => exact bind_eq_ok.mpr ⟨_, hd, bind_eq_ok.mpr ⟨_, hlit, rfl⟩⟩
  | bool hd => exact bind_eq_ok.mpr ⟨_, hd, rfl⟩
  | null => rfl
  | block hblock hitems hread =>
    rcases hblock with rfl | rfl
    · exact bind_eq_ok.mpr ⟨_, hitems, hread⟩
    · exact bind_eq_ok.mpr ⟨_, hitems, hread⟩
  | seq hfirst hsecond => exact bind_eq_ok.mpr ⟨_, hfirst, bind_eq_ok.mpr ⟨_, hsecond, rfl⟩⟩
  | var hname => exact bind_eq_ok.mpr ⟨_, hname, rfl⟩
  | decl hname hinit => exact bind_eq_ok.mpr ⟨_, hname, bind_eq_ok.mpr ⟨_, hinit, rfl⟩⟩
  | assign hname hrhs => exact bind_eq_ok.mpr ⟨_, hname, bind_eq_ok.mpr ⟨_, hrhs, rfl⟩⟩
  | binop hgiven hop hleft hright =>
    refine bind_eq_ok.mpr ⟨_, hgiven, ?_⟩
    rw [hop]
    exact bind_eq_ok.mpr ⟨_, hleft, bind_eq_ok.mpr ⟨_, hright, rfl⟩⟩
  | cond hthen htest hthn hels =>
    show (if (field? "then" entries).isNone then _ else _) = _
    rw [if_neg (by simpa using hthen)]
    exact bind_eq_ok.mpr ⟨_, htest, bind_eq_ok.mpr ⟨_, hthn, bind_eq_ok.mpr ⟨_, hels, rfl⟩⟩⟩
  | loop hbody htest hread =>
    show (if (field? "body" entries).isNone then _ else _) = _
    rw [if_neg (by simpa using hbody)]
    exact bind_eq_ok.mpr ⟨_, htest, bind_eq_ok.mpr ⟨_, hread, rfl⟩⟩
  | print harg => exact bind_eq_ok.mpr ⟨_, harg, rfl⟩
  | func hitems hparams hbody =>
    exact bind_eq_ok.mpr ⟨_, hitems, bind_eq_ok.mpr ⟨_, hparams, bind_eq_ok.mpr ⟨_, hbody, rfl⟩⟩⟩
  | call hitems hargs hcallee =>
    exact bind_eq_ok.mpr ⟨_, hitems, bind_eq_ok.mpr ⟨_, hargs, bind_eq_ok.mpr ⟨_, hcallee, rfl⟩⟩⟩

/-- A record is accepted exactly where the rule of its tag applies. -/
theorem tagged_eq_ok_iff {e? : Option Expr} :
    tagged table child entries tag = .ok e? ↔ ReadsAs table child entries tag e? :=
  ⟨readsAs_of_tagged, ReadsAs.tagged⟩

end Treewalk.Tree
