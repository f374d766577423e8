import Treewalk.Proofs.Machine.Ends
import Treewalk.Proofs.Scoping.Store
import Treewalk.Proofs.Semantics.Arithmetic

/-!
# Evaluation and the chains of scopes

In a machine that can come about, evaluation keeps the store well formed, whether it succeeds, fails
or is cut off: it adds scopes but takes none away, and it adds names in the scope in which it takes
place and in the global scope only (`Run.scoping`). A call does so in the global scope only, because
the scope of its parameters is new.

The invariant is `Kept`, which compares a machine with a store `s` of before. What is new since then
needs no permission to be written; so it passes unchanged from a call to the evaluation of the body
in its new scope.
-/

namespace Treewalk

/-- Whether the closure and the arguments of a call are valid. -/
def Frame.ValidIn (n : Nat) (call : Frame) : Prop :=
  (Value.closure call.params call.body call.scope).ValidIn n ∧ ∀ v ∈ call.args, v.ValidIn n

theorem Frame.ValidIn.mono {n n' : Nat} {call : Frame} (h : call.ValidIn n) (hn : n ≤ n') :
    call.ValidIn n' :=
  ⟨h.1.mono hn, fun v hv => (h.2 v hv).mono hn⟩

/-- Whether the store of a machine is well formed and its calls are valid. -/
structure Machine.WellFormed (m : Machine) : Prop where
  store : m.store.WellFormed
  frames : ∀ call ∈ m.frames, call.ValidIn m.store.size

/-- A store that is no smaller, under the same calls. -/
theorem Machine.WellFormed.setStore {m : Machine} (hm : m.WellFormed) {s : Store}
    (hs : s.WellFormed) (hsize : m.store.size ≤ s.size) :
    ({ m with store := s } : Machine).WellFormed :=
  ⟨hs, fun call hcall => (hm.frames call hcall).mono hsize⟩

/-- Whether a machine is well formed and its store has grown from a store of before. -/
structure Machine.Kept (s : Store) (writable : ScopeId → Prop) (m : Machine) : Prop where
  wellFormed : m.WellFormed
  grows : s.Grows writable m.store

namespace Machine.Kept

variable {s : Store} {writable : ScopeId → Prop} {m : Machine}

theorem refl (h : m.WellFormed) : m.Kept m.store writable := ⟨h, .refl m.store⟩

/-- A new scope. -/
theorem alloc (hm : m.Kept s writable) {o : ScopeId} (ho : o < m.store.size) :
    ({ m with store := (m.store.alloc (some o)).2 } : Machine).Kept s writable := by
  refine ⟨hm.wellFormed.setStore (hm.wellFormed.store.alloc ho) ?_, ?_⟩
  · rw [Store.size_alloc]
    exact Nat.le_succ _
  · exact hm.grows.trans (m.store.grows_alloc (some o)) fun _ _ h => h

/-- A binding in a scope that is new or writable. -/
theorem set (hm : m.Kept s writable) {scope : ScopeId} (hw : scope < s.size → writable scope)
    (name : Text) {v : Value} (hv : v.ValidIn m.store.size) :
    ({ m with store := m.store.set scope name v } : Machine).Kept s writable := by
  refine ⟨hm.wellFormed.setStore (hm.wellFormed.store.set scope name hv) ?_, ?_⟩
  · exact Nat.le_of_eq (Store.size_set ..).symm
  · refine hm.grows.trans (m.store.grows_set scope name v fun _ => rfl) ?_
    rintro i hi rfl
    exact hw hi

/-- An assignment as seen from any scope, if the global scope is writable. -/
theorem update (hm : m.Kept s writable) {scope : ScopeId} (hscope : scope < m.store.size)
    (hw : writable 0) (name : Text) {v : Value} (hv : v.ValidIn m.store.size) :
    ({ m with store := m.store.update scope name v } : Machine).Kept s writable := by
  refine ⟨hm.wellFormed.setStore (hm.wellFormed.store.update scope name hv) ?_, ?_⟩
  · exact Nat.le_of_eq (Store.size_set ..).symm
  · exact hm.grows.trans (hm.wellFormed.store.grows_update hscope name v hw) fun _ _ h => h

end Machine.Kept

namespace Run

variable {α β : Type} {s : Store} {writable : ScopeId → Prop}

/-- Whether a step keeps a machine well formed, and gives a result that is valid in the end. -/
def Keeps (s : Store) (writable : ScopeId → Prop) (x : Run α) (m : Machine)
    (valid : Nat → α → Prop) : Prop :=
  x.Ends m
    (fun a m' => m'.Kept s writable ∧ m.store.size ≤ m'.store.size ∧ valid m'.store.size a)
    (fun _ m' => m'.Kept s writable) fun m' => m'.Kept s writable

section

variable {x : Run α} {f : α → Run β} {m : Machine} {valid : Nat → α → Prop}
  {valid' : Nat → β → Prop}

/-- One step after another. -/
theorem Keeps.bind (hx : x.Keeps s writable m valid)
    (hf : ∀ a m', m'.Kept s writable → m.store.size ≤ m'.store.size → valid m'.store.size a →
      (f a).Keeps s writable m' valid') :
    (x >>= f).Keeps s writable m valid' := by
  refine Ends.bind hx ?_
  rintro a m' ⟨hm', hsize, ha⟩
  refine (hf a m' hm' hsize ha).imp ?_ (fun _ _ h => h) fun _ h => h
  rintro b m'' ⟨hm'', hsize', hb⟩
  exact ⟨hm'', Nat.le_trans hsize hsize', hb⟩

theorem keeps_result {a : α} (hm : m.Kept s writable) (ha : valid m.store.size a) :
    (result a).Keeps s writable m valid :=
  ⟨hm, Nat.le_refl _, ha⟩

theorem keeps_fail (hm : m.Kept s writable) (fault : Fault) :
    (fail fault).Keeps s writable m valid :=
  hm

/-- A step that does not touch the store and enters no call. -/
theorem keeps_change {g : Machine → Machine} (hm : m.Kept s writable)
    (hstore : (g m).store = m.store) (hframes : ∀ call ∈ (g m).frames, call ∈ m.frames) :
    (change g).Keeps s writable m fun _ _ => True := by
  refine ⟨⟨⟨hstore ▸ hm.wellFormed.store, ?_⟩, hstore ▸ hm.grows⟩, ?_, trivial⟩
  · intro call hcall
    rw [hstore]
    exact hm.wellFormed.frames call (hframes call hcall)
  · exact Nat.le_of_eq (congrArg Store.size hstore).symm

end

theorem keeps_look {m : Machine} (hm : m.Kept s writable) (e : Expr) :
    (look e).Keeps s writable m fun _ _ => True :=
  keeps_change hm rfl fun _ h => h

theorem keeps_note {m : Machine} (hm : m.Kept s writable) (line : Unit → Text) :
    (note line).Keeps s writable m fun _ _ => True := by
  obtain ⟨trace, h⟩ := note_apply line m
  unfold Keeps Ends
  rw [h]
  exact ⟨⟨⟨hm.wellFormed.store, hm.wellFormed.frames⟩, hm.grows⟩, Nat.le_refl _, trivial⟩

theorem keeps_push {m : Machine} (hm : m.Kept s writable) {call : Frame}
    (hcall : call.ValidIn m.store.size) : (push call).Keeps s writable m fun _ _ => True := by
  refine ⟨⟨⟨hm.wellFormed.store, ?_⟩, hm.grows⟩, Nat.le_refl _, trivial⟩
  rintro other (_ | ⟨_, hother⟩)
  · exact hcall
  · exact hm.wellFormed.frames other hother

theorem keeps_pop {m : Machine} (hm : m.Kept s writable) :
    pop.Keeps s writable m fun _ _ => True :=
  keeps_change hm rfl fun _ h => List.mem_of_mem_tail h

theorem keeps_writeLine {m : Machine} (hm : m.Kept s writable) (line : Text) :
    (writeLine line).Keeps s writable m fun _ _ => True :=
  keeps_change hm rfl fun _ h => h

theorem keeps_update {m : Machine} (hm : m.Kept s writable) {scope : ScopeId}
    (hscope : scope < m.store.size) (hglobal : writable 0) (name : Text) {v : Value}
    (hv : v.ValidIn m.store.size) :
    (update scope name v).Keeps s writable m fun _ _ => True :=
  ⟨hm.update hscope hglobal name hv, Nat.le_of_eq (Store.size_set ..).symm, trivial⟩

/-- A new scope is none of the scopes of before. -/
theorem keeps_newScope {m : Machine} (hm : m.Kept s writable) {outer : ScopeId}
    (houter : outer < m.store.size) :
    (newScope outer).Keeps s writable m fun n inner => s.size ≤ inner ∧ inner < n := by
  have hsize : m.store.size < (m.store.alloc (some outer)).2.size := by
    rw [Store.size_alloc]
    exact Nat.lt_succ_self _
  exact ⟨hm.alloc houter, Nat.le_of_lt hsize, hm.grows.size, hsize⟩

theorem keeps_noteCall {m : Machine} (hm : m.Kept s writable) (name : Text) (params : List Text)
    (args : List Value) : (noteCall name params args).Keeps s writable m fun _ _ => True := by
  refine (keeps_note hm _).bind fun _ m' hm' _ _ => ?_
  split
  · exact keeps_note hm' _
  · exact keeps_result hm' trivial

theorem keeps_resolve {m : Machine} (hm : m.Kept s writable) (scope : ScopeId) (name : Text) :
    (resolve scope name).Keeps s writable m fun n v => v.ValidIn n :=
  ⟨hm, Nat.le_refl _, hm.wellFormed.store.validIn_resolve scope name⟩

theorem keeps_declare {m : Machine} (hm : m.Kept s writable) {scope : ScopeId}
    (hw : scope < s.size → writable scope) (name : Text) {v : Value}
    (hv : v.ValidIn m.store.size) :
    (declare scope name v).Keeps s writable m fun _ _ => True := by
  unfold Keeps Ends
  cases h : m.store.binds scope name with
  | true =>
    rw [declare_of_bound h]
    exact hm
  | false =>
    rw [declare_of_unbound h]
    exact ⟨hm.set hw name hv, Nat.le_of_eq (Store.size_set ..).symm, trivial⟩

/-- Parameters are bound in a scope that is new. -/
theorem keeps_bindParams {m : Machine} (hm : m.Kept s writable) {scope : ScopeId}
    (hw : scope < s.size → writable scope) (ps : List Text) {vs : List Value}
    (hvs : ∀ v ∈ vs, v.ValidIn m.store.size) :
    (bindParams scope ps vs).Keeps s writable m fun _ _ => True := by
  induction ps generalizing vs m with
  | nil => exact keeps_result hm trivial
  | cons p ps ih =>
    rw [bindParams_cons]
    have hhead : (vs.headD .null).ValidIn m.store.size := by
      cases vs with
      | nil => trivial
      | cons v vs => exact hvs v List.mem_cons_self
    refine (keeps_declare hm hw p hhead).bind fun _ m' hm' hsize _ => ih hm' fun v hv => ?_
    exact (hvs v (List.mem_of_mem_tail hv)).mono hsize

theorem keeps_combine {m : Machine} (hm : m.Kept s writable) (op : Op) (v w : Value) :
    (combine op v w).Keeps s writable m fun n v => v.ValidIn n := by
  unfold combine
  split
  · next a b =>
    cases hc : op.compute a b with
    | none => exact hm
    | some u =>
      -- What the operators compute is no closure.
      refine keeps_result hm ?_
      cases Op.computes_iff.mpr hc <;> trivial
  · exact hm

theorem keeps_demandBool {m : Machine} (hm : m.Kept s writable) (construct : Construct)
    (v : Value) :
    (demandBool construct v).Keeps s writable m fun _ _ => True := by
  cases v with
  | bool b => exact keeps_result hm trivial
  | int | null | closure => exact hm

/-! ## Parts of evaluation -/

section

variable {ev : Expr → ScopeId → Run Value}
  (hev : ∀ e scope m, e.PlainLiterals → m.Kept s writable → scope < m.store.size →
    (scope < s.size → writable scope) → (ev e scope).Keeps s writable m fun n v => v.ValidIn n)

include hev

section

variable {scope : ScopeId} (hw : scope < s.size → writable scope)

include hw

theorem keeps_evalBlock {b : Option Expr} {m : Machine}
    (hb : Expr.EverywhereBlock Expr.NoClosure b) (hm : m.Kept s writable)
    (hscope : scope < m.store.size) :
    (evalBlock ev b scope).Keeps s writable m fun n v => v.ValidIn n := by
  cases b with
  | none => exact keeps_result hm trivial
  | some body => exact hev body scope m hb hm hscope hw

theorem keeps_evalStatements {es : List Expr} {m : Machine} {last : Value}
    (hes : ∀ e ∈ es, e.PlainLiterals) (hm : m.Kept s writable) (hscope : scope < m.store.size)
    (hlast : last.ValidIn m.store.size) :
    (evalStatements ev scope last es).Keeps s writable m fun n v => v.ValidIn n := by
  induction es generalizing m last with
  | nil => exact keeps_result hm hlast
  | cons e es ih =>
    have hrest : ∀ e ∈ es, e.PlainLiterals := fun e he => hes e (List.mem_cons_of_mem _ he)
    refine (hev e scope m (hes e List.mem_cons_self) hm hscope hw).bind fun v m' hm' hsize hv => ?_
    exact ih hrest hm' (Nat.lt_of_lt_of_le hscope hsize) hv

theorem keeps_evalArgs {es : List Expr} {m : Machine} (hes : Expr.EverywhereArgs Expr.NoClosure es)
    (hm : m.Kept s writable) (hscope : scope < m.store.size) :
    (evalArgs ev scope es).Keeps s writable m fun n vs => ∀ v ∈ vs, v.ValidIn n := by
  induction es generalizing m with
  | nil => exact keeps_result hm fun _ h => nomatch h
  | cons e es ih =>
    refine (hev e scope m hes.1 hm hscope hw).bind fun v m' hm' hsize hv => ?_
    refine (ih hes.2 hm' (Nat.lt_of_lt_of_le hscope hsize)).bind fun vs m'' hm'' hsize' hvs => ?_
    refine keeps_result hm'' ?_
    rintro w (_ | ⟨_, hw⟩)
    · exact hv.mono hsize'
    · exact hvs w hw

theorem keeps_evalLoop {test : Expr} {body : Option Expr} {rounds count : Nat} {m : Machine}
    {last : Value} (htest : test.PlainLiterals) (hbody : Expr.EverywhereBlock Expr.NoClosure body)
    (hm : m.Kept s writable) (hscope : scope < m.store.size) (hlast : last.ValidIn m.store.size) :
    (evalLoop ev test body scope rounds count last).Keeps s writable m fun n v => v.ValidIn n := by
  induction rounds generalizing count m last with
  | zero => exact hm
  | succ rounds ih =>
    refine (hev test scope m htest hm hscope hw).bind fun c m₁ hm₁ hsize₁ _ => ?_
    refine (keeps_demandBool hm₁ .loop c).bind fun holds m₂ hm₂ hsize₂ _ => ?_
    have hscope₂ := Nat.lt_of_lt_of_le hscope (Nat.le_trans hsize₁ hsize₂)
    cases holds with
    | true =>
      refine (keeps_evalBlock hev hw hbody hm₂ hscope₂).bind fun v m₃ hm₃ hsize₃ hv => ?_
      exact ih hm₃ (Nat.lt_of_lt_of_le hscope₂ hsize₃) hv
    | false =>
      refine (keeps_note hm₂ _).bind fun _ m₃ hm₃ hsize₃ _ => keeps_result hm₃ ?_
      exact hlast.mono (Nat.le_trans hsize₁ (Nat.le_trans hsize₂ hsize₃))

end

/-- A call of a valid closure with valid arguments. The scope of its parameters is new and may be
written whatever else may be. -/
theorem keeps_callClosure {ps : List Text} {b : Option Expr} {outer : ScopeId} {vs : List Value}
    {m : Machine} (site : Option Expr) (name : Text) (hm : m.Kept s writable)
    (hclosure : (Value.closure ps b outer).ValidIn m.store.size)
    (hvs : ∀ v ∈ vs, v.ValidIn m.store.size) :
    (callClosure ev site name ps b outer vs).Keeps s writable m fun n v => v.ValidIn n := by
  have happly : ∀ m', m'.Kept s writable → m.store.size ≤ m'.store.size →
      (applyClosure ev ps b outer vs).Keeps s writable m' fun n v => v.ValidIn n := by
    intro m' hm' hsize
    refine (keeps_newScope hm' (Nat.lt_of_lt_of_le hclosure.1 hsize)).bind ?_
    rintro inner m₁ hm₁ hsize₁ ⟨hnew, hinner⟩
    -- The scope is none of the scopes of before, so it needs no permission.
    have hw : inner < s.size → writable inner := fun hlt => absurd hlt (Nat.not_lt.mpr hnew)
    have hvs₁ : ∀ v ∈ vs, v.ValidIn m₁.store.size := fun v hv =>
      (hvs v hv).mono (Nat.le_trans hsize hsize₁)
    refine (keeps_bindParams hm₁ hw ps hvs₁).bind fun _ m₂ hm₂ hsize₂ _ => ?_
    exact keeps_evalBlock hev hw hclosure.2 hm₂ (Nat.lt_of_lt_of_le hinner hsize₂)
  rw [callClosure_eq]
  refine (keeps_noteCall hm name ps vs).bind fun _ m₁ hm₁ hsize₁ _ => ?_
  have hcall : Frame.ValidIn m₁.store.size ⟨name, ps, b, outer, vs, site⟩ :=
    ⟨hclosure.mono hsize₁, fun v hv => (hvs v hv).mono hsize₁⟩
  refine (keeps_push hm₁ hcall).bind fun _ m₂ hm₂ hsize₂ _ => ?_
  refine (happly m₂ hm₂ (Nat.le_trans hsize₁ hsize₂)).bind fun v m₃ hm₃ _ hv => ?_
  refine (keeps_pop hm₃).bind fun _ m₄ hm₄ hsize₄ _ => ?_
  exact keeps_result hm₄ (hv.mono hsize₄)

end

/-- **Evaluation keeps a machine well formed.** It writes in its scope and in the global one. -/
theorem keeps_eval (hglobal : writable 0) (rounds depth : Nat) {e : Expr} {scope : ScopeId}
    {m : Machine} (he : e.PlainLiterals) (hm : m.Kept s writable) (hscope : scope < m.store.size)
    (hw : scope < s.size → writable scope) :
    (eval rounds depth e scope).Keeps s writable m fun n v => v.ValidIn n := by
  induction depth generalizing e scope m with
  | zero => exact hm
  | succ depth ih =>
    have hev := fun e scope m he hm hscope hw => @ih e scope m he hm hscope hw
    unfold eval
    refine (keeps_look hm e).bind fun _ m₀ hm₀ hsize₀ _ => ?_
    have hscope₀ := Nat.lt_of_lt_of_le hscope hsize₀
    cases e with
    | literal v =>
      refine keeps_result hm₀ ?_
      cases v with
      | closure => exact he.1.elim
      | int | bool | null => trivial
    | var name => exact keeps_resolve hm₀ scope name
    | func params body => exact keeps_result hm₀ ⟨hscope₀, he.2⟩
    | print arg =>
      refine (ih he.2 hm₀ hscope₀ hw).bind fun v m₁ hm₁ _ hv => ?_
      refine (keeps_writeLine hm₁ v.text).bind fun _ m₂ hm₂ hsize₂ _ => ?_
      exact keeps_result hm₂ (hv.mono hsize₂)
    | binop op left right =>
      refine (ih he.2.1 hm₀ hscope₀ hw).bind fun a m₁ hm₁ hsize₁ _ => ?_
      refine (ih he.2.2 hm₁ (Nat.lt_of_lt_of_le hscope₀ hsize₁) hw).bind fun b m₂ hm₂ _ _ => ?_
      exact (keeps_look hm₂ _).bind fun _ m₃ hm₃ _ _ => keeps_combine hm₃ op a b
    | cond test thn els =>
      refine (ih he.2.1 hm₀ hscope₀ hw).bind fun c m₁ hm₁ hsize₁ _ => ?_
      refine (keeps_demandBool hm₁ .choice c).bind fun holds m₂ hm₂ hsize₂ _ => ?_
      have hscope₂ := Nat.lt_of_lt_of_le hscope₀ (Nat.le_trans hsize₁ hsize₂)
      cases holds with
      | true => exact keeps_evalBlock hev hw he.2.2.1 hm₂ hscope₂
      | false => exact keeps_evalBlock hev hw he.2.2.2 hm₂ hscope₂
    | loop test body => exact keeps_evalLoop hev hw he.2.1 he.2.2 hm₀ hscope₀ trivial
    | seq first second => exact keeps_evalStatements hev hw he.statements hm₀ hscope₀ trivial
    | decl name init =>
      refine (ih he.2 hm₀ hscope₀ hw).bind fun v m₁ hm₁ _ hv => ?_
      refine (keeps_look hm₁ _).bind fun _ m₂ hm₂ hsize₂ _ => ?_
      refine (keeps_declare hm₂ hw name (hv.mono hsize₂)).bind fun _ m₃ hm₃ _ _ => ?_
      exact (keeps_note hm₃ _).bind fun _ m₄ hm₄ _ _ => keeps_resolve hm₄ scope name
    | assign name rhs =>
      refine (ih he.2 hm₀ hscope₀ hw).bind fun v m₁ hm₁ hsize₁ hv => ?_
      refine (keeps_update hm₁ (Nat.lt_of_lt_of_le hscope₀ hsize₁) hglobal name hv).bind
        fun _ m₂ hm₂ _ _ => ?_
      exact (keeps_note hm₂ _).bind fun _ m₃ hm₃ _ _ => keeps_resolve hm₃ scope name
    | call callee args =>
      refine (ih he.2.1 hm₀ hscope₀ hw).bind fun f m₁ hm₁ hsize₁ hf => ?_
      cases f with
      | closure params body outer =>
        refine (keeps_evalArgs hev hw he.2.2 hm₁ (Nat.lt_of_lt_of_le hscope₀ hsize₁)).bind
          fun vs m₂ hm₂ hsize₂ hvs => ?_
        exact keeps_callClosure hev _ _ hm₂ (hf.mono hsize₂) hvs
      | int | bool | null => exact (keeps_look hm₁ _).bind fun _ m₂ hm₂ _ _ => keeps_fail hm₂ _

end Run

end Treewalk
