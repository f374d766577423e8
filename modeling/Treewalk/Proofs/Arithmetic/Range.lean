import Treewalk.Proofs.Arithmetic.Words
import Treewalk.Proofs.Machine.Invariant
import Treewalk.Proofs.Scoping.Store

/-!
# Integers stay in range

All integers that come about are integers of the 32-bit range, provided that those of the program
are: whatever a machine binds, gives or passes to a call is made of literals and of results of the
operators, and these wrap. `Machine.InRange` says so of a machine, and it is an invariant of
evaluation (`Run.inRange_of_eval`).

A literal is in range whenever it was made by wrapping an integer (`Value.inRange_ofInt`), which is
the only way in which programs get theirs.
-/

namespace Treewalk

/-- Whether a node is no literal of an integer outside the range. -/
def Expr.LiteralInRange : Expr → Prop
  | .literal (.int n) => Value.IsInt32 n
  | _ => True

/-- Whether all integers inside an expression lie in the range. -/
def Expr.InRange (e : Expr) : Prop := e.Everywhere Expr.LiteralInRange

/-- Whether the integers of a value lie in the range: the value itself, if it is one, and those in
the body of a closure. -/
def Value.InRange (v : Value) : Prop := (Expr.literal v).InRange

/-- Whether the integers of a call lie in the range. -/
structure Frame.InRange (call : Frame) : Prop where
  closure : (Value.closure call.params call.body call.scope).InRange
  args : ∀ v ∈ call.args, v.InRange

/-- Whether all integers of a machine lie in the range: those that scopes bind and those of the
calls. -/
structure Machine.InRange (m : Machine) : Prop where
  store : m.store.ValuesAre Value.InRange
  frames : ∀ call ∈ m.frames, call.InRange

theorem Value.inRange_int_iff {n : Int} : (Value.int n).InRange ↔ Value.IsInt32 n :=
  and_iff_left trivial

theorem Value.inRange_null : Value.null.InRange := ⟨trivial, trivial⟩

theorem Value.inRange_bool (b : Bool) : (Value.bool b).InRange := ⟨trivial, trivial⟩

theorem Value.inRange_ofInt (n : Int) : (Value.ofInt n).InRange :=
  Value.inRange_int_iff.mpr (Value.wrap_mem n)

/-- What the operators compute lies in the range, whatever they are given. -/
theorem Op.inRange_of_compute {op : Op} {a b : Int} {v : Value} (h : op.compute a b = some v) :
    v.InRange := by
  cases Op.computes_iff.mpr h with
  | add hw | sub hw | mul hw | div _ hw | mod _ hw => exact Value.inRange_int_iff.mpr hw.mem
  | gt | ge | lt | le | eq => exact Value.inRange_bool _

/-! ## The invariant -/

/-- Integers lie in the range, everywhere in a machine. -/
def Invariant.inRange : Invariant where
  holds := Machine.InRange
  expr := Expr.InRange
  value := Value.InRange
  inner _ := True

/-- A binding of a value in range. -/
theorem Machine.InRange.set {m : Machine} (hm : m.InRange) (scope : ScopeId) (name : Text)
    {v : Value} (hv : v.InRange) :
    ({ m with store := m.store.set scope name v } : Machine).InRange :=
  ⟨hm.store.set scope name hv, hm.frames⟩

theorem Invariant.lawful_inRange : inRange.Lawful where
  hereditary := Expr.hereditary_everywhere _
  literal h := h
  func _ h := ⟨trivial, h.2⟩
  body h := h.2
  null := Value.inRange_null
  computed := Op.inRange_of_compute
  resolve scope name hm := hm.store.resolve Value.inRange_null scope name
  look _ hm := ⟨hm.store, hm.frames⟩
  note _ hm := ⟨hm.store, hm.frames⟩
  writeLine _ hm := ⟨hm.store, hm.frames⟩
  declare scope hm _ hv := hm.set scope _ hv
  update _ hm _ hv := hm.set _ _ hv
  newScope outer hm := ⟨trivial, hm.store.alloc (some outer), hm.frames⟩
  bind param hm _ hv := hm.set _ param hv
  push _ _ hm hclosure hargs := ⟨hm.store, List.forall_mem_cons.mpr ⟨⟨hclosure, hargs⟩, hm.frames⟩⟩
  pop hm := ⟨hm.store, fun call hcall => hm.frames call (List.mem_of_mem_tail hcall)⟩

/-- Nothing is bound or called before anything was evaluated. -/
theorem Machine.inRange_initial (keep : Int) (tracing : Bool) :
    (Machine.initial keep tracing).InRange where
  store := by
    rintro (_ | i) scope hs b hb
    · cases hs
      cases hb
    · cases hs
  frames := nofun

/-- **Integers stay in range** in every evaluation, however it ends. -/
theorem Run.inRange_of_eval {rounds depth : Nat} {e : Expr} {scope : ScopeId} {m m' : Machine}
    {outcome : Outcome Value} (hm : m.InRange) (he : e.InRange)
    (h : eval rounds depth e scope m = (outcome, m')) :
    m'.InRange ∧ ∀ v, outcome = .done v → v.InRange := by
  have hkept := Invariant.lawful_inRange.maintains_eval rounds depth e scope he m hm
  rwa [h] at hkept

end Treewalk
