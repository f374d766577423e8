import Treewalk.Proofs.Tree.RoundTrip

/-!
# Plain data describe well-formed expressions

Data are plain if they hold no expression that has been built already. What the decoder makes of
plain data is well formed (`wellFormed_of_decode`): each node is built from parts that were checked
when they were read.
-/

namespace Treewalk

/-! ## Plain data -/

mutual

/-- Whether a document holds no built expression. -/
def Document.Plain : Document → Prop
  | .node _ => False
  | .list items | .tuple items | .set items => Document.PlainItems items
  | .map entries => Document.PlainEntries entries
  | _ => True

/-- Whether documents hold no built expression. -/
def Document.PlainItems : List Document → Prop
  | [] => True
  | d :: ds => d.Plain ∧ Document.PlainItems ds

/-- Whether entries hold no built expression. -/
def Document.PlainEntries : List (Document × Document) → Prop
  | [] => True
  | (k, v) :: rest => k.Plain ∧ v.Plain ∧ Document.PlainEntries rest

end

/-- Whether data hold no built expression, also not in the collections that links stand for. -/
def Data.Plain (data : Data) : Prop := data.root.Plain ∧ ∀ d ∈ data.table, d.Plain

namespace Document

/-- The fields of plain entries are plain. -/
theorem PlainEntries.of_field? {name : Text} {entries : List (Document × Document)} {d : Document}
    (h : PlainEntries entries) (hf : field? name entries = some d) : d.Plain := by
  induction entries with
  | nil => simp [field?] at hf
  | cons entry rest ih =>
    obtain ⟨k, v⟩ := entry
    obtain ⟨_, hv, hrest⟩ := h
    unfold field? at hf
    split at hf
    · cases hf
    · next heq =>
      cases heq
      split at hf
      · exact Option.some.inj hf ▸ hv
      · exact ih hrest hf
    · next heq =>
      cases heq
      exact ih hrest hf

end Document

/-- What a link of a plain table stands for is plain. -/
theorem Data.plain_follow {table : Array Document} (ht : ∀ d ∈ table, d.Plain) {d : Document}
    (hd : d.Plain) : (Data.follow table d).Plain := by
  cases d with
  | link place =>
    show ((table[place]?).getD .null).Plain
    cases h : table[place]? with
    | none => trivial
    | some c => exact ht c (Array.mem_of_getElem? h)
  | _ => exact hd

namespace Tree

open Document

/-! ## Readers -/

/-- Whether a reader of children makes well-formed expressions of plain documents. -/
def Sound (child : Document → Decoded) : Prop :=
  ∀ d e, d.Plain → child d = .ok (some e) → e.WellFormed

variable {table : Array Document} {child : Document → Decoded}
  {entries : List (Document × Document)} {field tag : String}

theorem wellFormed_of_intLiteral {d : Document} {e : Expr} (h : intLiteral table d = .ok e) :
    e.WellFormed := by
  obtain ⟨n, rfl, hn, rfl⟩ := intLiteral_eq_ok_iff.mp h
  exact ⟨hn, trivial⟩

theorem plain_of_listField {items : List Document} {fault : TreeFault}
    (ht : ∀ d ∈ table, d.Plain) (hp : PlainEntries entries)
    (h : listField table fault entries field = .ok items) : PlainItems items := by
  rcases listField_eq_ok_iff.mp h with ⟨-, rfl⟩ | ⟨d, hfield, ⟨-, rfl⟩ | ⟨-, hlist⟩⟩
  · trivial
  · trivial
  · have hplain := Data.plain_follow ht (hp.of_field? hfield)
    rw [hlist] at hplain
    exact hplain

theorem Sound.requiredExpr {e : Expr} (hc : Sound child) (hp : PlainEntries entries)
    (h : requiredExpr child tag entries field = .ok e) : e.WellFormed := by
  obtain ⟨d, ⟨hfield, -⟩, he⟩ := requiredExpr_eq_ok_iff.mp h
  exact hc d e (hp.of_field? hfield) he

theorem Sound.block {b : Option Expr} (hc : Sound child) (hp : PlainEntries entries)
    (h : block child entries field = .ok b) : Expr.EverywhereBlock Expr.NodeOk b := by
  rcases block_eq_ok_iff.mp h with ⟨-, rfl⟩ | ⟨-, rfl⟩ | ⟨d, ⟨hfield, -⟩, hread⟩
  · trivial
  · trivial
  · cases b with
    | none => trivial
    | some e => exact hc d e (hp.of_field? hfield) hread

theorem Sound.statements {ds : List Document} {es : List Expr} (hc : Sound child)
    (hp : PlainItems ds) (h : statements child ds = .ok es) : ∀ e ∈ es, e.WellFormed := by
  induction ds generalizing es with
  | nil =>
    cases h
    exact List.forall_mem_nil _
  | cons d ds ih =>
    obtain ⟨hd, hds⟩ := hp
    by_cases hnull : d = .null
    · subst hnull
      exact ih hds h
    · obtain ⟨e?, rest, he, hrest, rfl⟩ := (statements_cons_eq_ok_iff hnull).mp h
      refine List.forall_mem_append.mpr ⟨fun e hmem => ?_, ih hds hrest⟩
      cases Option.mem_toList.mp hmem
      exact hc d e hd he

theorem Sound.arguments {ds : List Document} {es : List Expr} (hc : Sound child)
    (hp : PlainItems ds) (h : arguments child ds = .ok es) :
    Expr.EverywhereArgs Expr.NodeOk es := by
  induction ds generalizing es with
  | nil =>
    cases h
    trivial
  | cons d ds ih =>
    obtain ⟨hd, hds⟩ := hp
    obtain ⟨e, rest, he, hrest, rfl⟩ := arguments_cons_eq_ok_iff.mp h
    exact ⟨hc d e hd he, ih hds hrest⟩

/-- Well-formed statements fold to a well-formed chain. -/
theorem wellFormed_of_ofStatements? {es : List Expr} {e : Expr} (h : ∀ s ∈ es, s.WellFormed)
    (he : Expr.ofStatements? es = some e) : e.WellFormed := by
  cases es with
  | nil => cases he
  | cons first rest =>
    cases he
    have hfirst : first.WellFormed := h first List.mem_cons_self
    have hrest : ∀ s ∈ rest, s.WellFormed := fun s hs => h s (List.mem_cons_of_mem _ hs)
    -- The chain of the statements so far is the first one of a shorter list of statements.
    clear h
    induction rest generalizing first with
    | nil => exact hfirst
    | cons s rest ih =>
      exact ih (.seq first s) ⟨trivial, hfirst, hrest s List.mem_cons_self⟩
        fun t ht => hrest t (List.mem_cons_of_mem _ ht)

/-! ## The decoder -/

/-- What a tag makes of plain entries is well formed. -/
theorem Sound.tagged {e : Expr} (hc : Sound child) (ht : ∀ d ∈ table, d.Plain)
    (hp : PlainEntries entries) (h : tagged table child entries tag = .ok (some e)) :
    e.WellFormed := by
  cases tagged_eq_ok_iff.mp h with
  | int _ hlit => exact wellFormed_of_intLiteral hlit
  | bool => exact ⟨trivial, trivial⟩
  | null => exact ⟨trivial, trivial⟩
  | block _ hitems hread => exact hc (.list _) e (plain_of_listField ht hp hitems) hread
  | seq hfirst hsecond => exact ⟨trivial, hc.requiredExpr hp hfirst, hc.requiredExpr hp hsecond⟩
  | var hname => exact (requiredName_eq_ok_iff.mp hname).2
  | decl hname hinit => exact ⟨(requiredName_eq_ok_iff.mp hname).2, hc.requiredExpr hp hinit⟩
  | assign hname hrhs => exact ⟨(requiredName_eq_ok_iff.mp hname).2, hc.requiredExpr hp hrhs⟩
  | binop _ _ hleft hright =>
    exact ⟨trivial, hc.requiredExpr hp hleft, hc.requiredExpr hp hright⟩
  | cond _ htest hthn hels =>
    exact ⟨trivial, hc.requiredExpr hp htest, hc.block hp hthn, hc.block hp hels⟩
  | loop _ htest hbody => exact ⟨trivial, hc.requiredExpr hp htest, hc.block hp hbody⟩
  | print harg => exact ⟨trivial, hc.requiredExpr hp harg⟩
  | func _ hparams hbody => exact ⟨(paramNames_eq_ok_iff.mp hparams).2, hc.block hp hbody⟩
  | call hitems hargs hcallee =>
    exact ⟨trivial, hc.requiredExpr hp hcallee,
      hc.arguments (plain_of_listField ht hp hitems) hargs⟩

/-- The decoder makes well-formed expressions of plain documents. -/
theorem sound_decodeAt (ht : ∀ d ∈ table, d.Plain) (depth : Nat) :
    Sound (decodeAt table depth) := by
  induction depth with
  | zero =>
    intro d e _ h
    cases h
  | succ depth ih =>
    intro d e hp h
    have hplain := Data.plain_follow ht hp
    unfold decodeAt at h
    split at h
    · next hd =>
      rw [hd] at hplain
      obtain ⟨es, hes, h⟩ := bind_eq_ok.mp h
      exact wellFormed_of_ofStatements? (ih.statements hplain hes) (Except.ok.inj h)
    · cases h
      exact ⟨trivial, trivial⟩
    · cases h
      exact ⟨trivial, trivial⟩
    · obtain ⟨lit, hlit, h⟩ := bind_eq_ok.mp h
      cases h
      exact wellFormed_of_intLiteral hlit
    · next hd =>
      rw [hd] at hplain
      exact hplain.elim
    · next hd =>
      rw [hd] at hplain
      split at h
      · cases h
      · exact ih.tagged ht hplain h
      · split at h
        · exact ih.tagged ht hplain h
        · cases h
      · cases h
    · cases h

/-- **Plain data that describe an expression describe a well-formed one.** -/
theorem wellFormed_of_decode {data : Data} (hp : data.Plain) {depth : Nat} {e : Expr}
    (h : decode depth data = .ok (some e)) : e.WellFormed :=
  sound_decodeAt hp.2 depth data.root e hp.1 h

end Tree

end Treewalk
