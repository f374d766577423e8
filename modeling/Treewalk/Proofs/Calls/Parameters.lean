import Mathlib.Data.List.Induction
import Mathlib.Data.List.Nodup
import Mathlib.Data.List.TakeDrop
import Treewalk.Proofs.Machine.Ends
import Treewalk.Proofs.Scoping.Store

/-!
# Binding parameters

A call makes a scope and binds its parameters there, in order, before the body runs. A function
takes one argument for each parameter: surplus ones are dropped, and null stands where none is left
(`fitted`). If the parameters are distinct, the scope binds just them to these arguments
(`Run.applyClosure_of_nodup`). If not, binding stops at the first parameter that stands in the list
before (`Run.applyClosure_of_repeat`). Nothing else happens in either case, and so no call can tell
an argument list from the fitted one (`Run.applyClosure_fitted`).
-/

namespace Treewalk

/-- The arguments that a function takes: one for each parameter, null where none is given. -/
def fitted (params : List Text) (args : List Value) : List Value :=
  args.takeD params.length .null

theorem fitted_cons (p : Text) (params : List Text) (args : List Value) :
    fitted (p :: params) args = args.headD .null :: fitted params args.tail := rfl

/-! ## Repeated names -/

/-- Whether a name is the first one in a list that stands there before. -/
def FirstRepeat (names : List Text) (name : Text) : Prop :=
  ∃ before after, names = before ++ name :: after ∧ before.Nodup ∧ name ∈ before

/-- A list of names has a first repetition exactly if its names are not distinct. -/
theorem exists_firstRepeat_iff {names : List Text} :
    (∃ name, FirstRepeat names name) ↔ ¬names.Nodup := by
  constructor
  · rintro ⟨name, before, after, rfl, -, hmem⟩ hnodup
    exact List.disjoint_of_nodup_append hnodup hmem List.mem_cons_self
  · intro h
    induction names using List.reverseRecOn with
    | nil => exact absurd List.nodup_nil h
    | append_singleton names last ih =>
      by_cases hnames : names.Nodup
      · have hlast : last ∈ names := by
          by_contra hlast
          exact h (List.nodup_append.mpr ⟨hnames, List.nodup_singleton last, by
            rintro x hx _ hy rfl
            exact hlast (List.mem_singleton.mp hy ▸ hx)⟩)
        exact ⟨last, names, [], rfl, hnames, hlast⟩
      · obtain ⟨name, before, after, rfl, hbefore, hmem⟩ := ih hnames
        exact ⟨name, before, after ++ [last], List.append_assoc .., hbefore, hmem⟩

/-! ## A scope that is being filled -/

/-- The machine with one scope more, which has the given bindings. -/
def Machine.withScope (m : Machine) (outer : ScopeId) (bindings : List (Text × Value)) : Machine :=
  { m with store := ⟨m.store.scopes.push ⟨some outer, bindings⟩⟩ }

variable {m : Machine} {outer : ScopeId} {bindings : List (Text × Value)} {name p : Text}

theorem Machine.binds_withScope :
    (m.withScope outer bindings).store.binds m.store.size name = true ↔
      name ∈ bindings.map (·.1) := by
  have hnames : (m.withScope outer bindings).store.names m.store.size = bindings.map (·.1) := by
    simp [withScope, Store.names, Store.get?, Store.size, Scope.names]
  rw [← Store.mem_names_iff, hnames]

/-- A name that is new to a scope comes last. -/
theorem Scope.setBinding_of_not_mem {bs : List (Text × Value)} (h : name ∉ bs.map (·.1))
    (v : Value) : setBinding name v bs = bs ++ [(name, v)] := by
  induction bs with
  | nil => rfl
  | cons b rest ih =>
    obtain ⟨n, w⟩ := b
    rw [List.map_cons] at h
    have hne : ¬n = name := Ne.symm (List.ne_of_not_mem_cons h)
    rw [setBinding, if_neg hne, ih (List.not_mem_of_not_mem_cons h)]
    rfl

theorem Machine.set_withScope (h : name ∉ bindings.map (·.1)) (v : Value) :
    (m.withScope outer bindings).store.set m.store.size name v =
      (m.withScope outer (bindings ++ [(name, v)])).store := by
  have hset : (Scope.mk (some outer) bindings).set name v =
      ⟨some outer, bindings ++ [(name, v)]⟩ := by
    rw [Scope.set, Scope.setBinding_of_not_mem h]
  unfold withScope Store.set Store.size
  congr 1
  refine Array.ext_getElem? fun i => ?_
  rw [Array.getElem?_modify, Array.getElem?_push, Array.getElem?_push]
  by_cases hi : i = m.store.scopes.size
  · rw [if_pos hi.symm, if_pos hi, if_pos hi, Option.map_some, hset]
  · rw [if_neg (Ne.symm hi), if_neg hi, if_neg hi]

namespace Run

variable {ev : Expr → ScopeId → Run Value} {params before after : List Text} {args : List Value}
  {body : Option Expr} {scope : ScopeId}

/-- Binding a list of distinct parameters, none of which the new scope binds yet. -/
theorem bindParams_of_nodup (bindings : List (Text × Value))
    (h : (bindings.map (·.1) ++ params).Nodup) (args : List Value) :
    bindParams m.store.size params args (m.withScope outer bindings) =
      (.done (), m.withScope outer (bindings ++ params.zip (fitted params args))) := by
  -- The induction fills the scope: one parameter goes from those to come to those that are bound.
  induction params generalizing bindings args with
  | nil => simp [bindParams, result, fitted]
  | cons p ps ih =>
    have hp : p ∉ bindings.map (·.1) := fun hmem =>
      List.disjoint_of_nodup_append h hmem List.mem_cons_self
    have hunbound : (m.withScope outer bindings).store.binds m.store.size p = false :=
      Bool.eq_false_iff.mpr fun hbinds => hp (Machine.binds_withScope.mp hbinds)
    have hrest : ((bindings ++ [(p, args.headD .null)]).map (·.1) ++ ps).Nodup := by
      rwa [List.map_append, List.append_assoc]
    rw [bindParams_cons, bind_apply, declare_of_unbound hunbound, Machine.set_withScope hp]
    refine (ih _ hrest args.tail).trans ?_
    rw [List.append_assoc]
    rfl

/-- Binding distinct parameters in a scope that binds nothing yet. -/
theorem bindParams_new (h : params.Nodup) (args : List Value) :
    bindParams m.store.size params args (m.withScope outer []) =
      (.done (), m.withScope outer (params.zip (fitted params args))) :=
  bindParams_of_nodup [] h args

/-- Parameters that follow each other are bound one after the other. -/
theorem bindParams_append (scope : ScopeId) (before after : List Text) (args : List Value) :
    bindParams scope (before ++ after) args =
      (bindParams scope before args >>= fun _ =>
        bindParams scope after (args.drop before.length)) := by
  induction before generalizing args with
  | nil => rfl
  | cons p ps ih =>
    rw [List.cons_append, bindParams_cons, bindParams_cons, bind_assoc]
    simp only [ih, List.length_cons, List.drop_tail]

theorem bindParams_fitted (scope : ScopeId) (params : List Text) (args : List Value) :
    bindParams scope params (fitted params args) = bindParams scope params args := by
  induction params generalizing args with
  | nil => rfl
  | cons p ps ih =>
    rw [bindParams_cons, bindParams_cons, fitted_cons, List.headD_cons, List.tail_cons, ih]

/-! ## Running a body -/

theorem applyClosure_apply (ev : Expr → ScopeId → Run Value) (params : List Text)
    (body : Option Expr) (outer : ScopeId) (args : List Value) (m : Machine) :
    applyClosure ev params body outer args m =
      (bindParams m.store.size params args >>= fun _ => evalBlock ev body m.store.size)
        (m.withScope outer []) :=
  rfl

/-- **Surplus arguments and missing ones** make no difference to the run of a body. -/
theorem applyClosure_fitted (ev : Expr → ScopeId → Run Value) (params : List Text)
    (body : Option Expr) (outer : ScopeId) (args : List Value) :
    applyClosure ev params body outer (fitted params args) =
      applyClosure ev params body outer args := by
  unfold applyClosure
  simp only [bindParams_fitted]

/-- **A body starts in a scope that binds the parameters**, in order, to the arguments. -/
theorem applyClosure_of_nodup (h : params.Nodup) :
    applyClosure ev params body outer args m =
      evalBlock ev body m.store.size (m.withScope outer (params.zip (fitted params args))) := by
  rw [applyClosure_apply, bind_apply, bindParams_new h]

/-- **A body does not start** if a parameter stands in the list before. -/
theorem applyClosure_of_repeat (hbefore : before.Nodup) (hp : p ∈ before) :
    applyClosure ev (before ++ p :: after) body outer args m =
      (.failed (.duplicateVariable p), m.withScope outer (before.zip (fitted before args))) := by
  have hnames : (before.zip (fitted before args)).map (·.1) = before :=
    List.map_fst_zip (Nat.le_of_eq (List.takeD_length before.length args .null).symm)
  have hbound : (m.withScope outer (before.zip (fitted before args))).store.binds m.store.size p =
      true :=
    Machine.binds_withScope.mpr (hnames.symm ▸ hp)
  rw [applyClosure_apply, bindParams_append, bindParams_cons, bind_apply, bind_apply,
    bindParams_new hbefore]
  dsimp only
  rw [bind_apply, declare_of_bound hbound]

end Run

end Treewalk
