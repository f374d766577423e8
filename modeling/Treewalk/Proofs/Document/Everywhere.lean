import Mathlib.Data.List.Basic
import Treewalk.Document.Show

/-!
# Properties of documents and all their parts

`Document.Everywhere p` says that a document and all its parts have the property `p`. Where the
integers in data have few digits everywhere, also in the collections that links stand for, the data
can be shown (`Data.isShowable_of_everywhere`).
-/

namespace Treewalk

open Number

namespace Document

mutual

/-- Whether a document and all its parts have a property. -/
def Everywhere (p : Document → Prop) : Document → Prop
  | .list items => p (.list items) ∧ EverywhereItems p items
  | .tuple items => p (.tuple items) ∧ EverywhereItems p items
  | .set members => p (.set members) ∧ EverywhereItems p members
  | .map entries => p (.map entries) ∧ EverywhereEntries p entries
  | d => p d

/-- The same of documents. -/
def EverywhereItems (p : Document → Prop) : List Document → Prop
  | [] => True
  | d :: ds => Everywhere p d ∧ EverywhereItems p ds

/-- The same of the keys and values of entries. -/
def EverywhereEntries (p : Document → Prop) : List (Document × Document) → Prop
  | [] => True
  | (key, value) :: rest => Everywhere p key ∧ Everywhere p value ∧ EverywhereEntries p rest

end

variable {p : Document → Prop} {d : Document} {ds : List Document}
  {entries : List (Document × Document)}

theorem Everywhere.self (h : d.Everywhere p) : p d := by
  cases d with
  | list | tuple | set | map => exact h.1
  | _ => exact h

theorem EverywhereItems.of_mem (h : EverywhereItems p ds) : ∀ d ∈ ds, d.Everywhere p := by
  induction ds with
  | nil => exact List.forall_mem_nil _
  | cons d ds ih => exact List.forall_mem_cons.mpr ⟨h.1, ih h.2⟩

theorem EverywhereEntries.of_field? {name : Text} (h : EverywhereEntries p entries)
    (hf : field? name entries = some d) : d.Everywhere p := by
  induction entries with
  | nil => cases hf
  | cons entry rest ih =>
    obtain ⟨key, value⟩ := entry
    obtain ⟨-, hvalue, hrest⟩ := h
    unfold field? at hf
    split at hf
    · cases hf
    · next heq =>
      cases heq
      split at hf
      · exact Option.some.inj hf ▸ hvalue
      · exact ih hrest hf
    · next heq =>
      cases heq
      exact ih hrest hf

mutual

/-- What follows from a property that holds everywhere holds everywhere. -/
theorem Everywhere.imp {q : Document → Prop} (hpq : ∀ d, p d → q d) : ∀ d : Document,
    d.Everywhere p → d.Everywhere q
  | .list items, h | .tuple items, h | .set items, h =>
    ⟨hpq _ h.1, EverywhereItems.imp hpq items h.2⟩
  | .map entries, h => ⟨hpq _ h.1, EverywhereEntries.imp hpq entries h.2⟩
  | .null, h | .bool _, h | .int _, h | .real _, h | .text _, h | .bytes _, h | .date _, h
  | .moment _, h | .node _, h | .link _, h => hpq _ h

theorem EverywhereItems.imp {q : Document → Prop} (hpq : ∀ d, p d → q d) :
    ∀ ds : List Document, EverywhereItems p ds → EverywhereItems q ds
  | [], _ => trivial
  | d :: ds, h => ⟨Everywhere.imp hpq d h.1, EverywhereItems.imp hpq ds h.2⟩

theorem EverywhereEntries.imp {q : Document → Prop} (hpq : ∀ d, p d → q d) :
    ∀ entries : List (Document × Document), EverywhereEntries p entries →
      EverywhereEntries q entries
  | [], _ => trivial
  | (key, value) :: entries, h =>
    ⟨Everywhere.imp hpq key h.1, Everywhere.imp hpq value h.2.1,
      EverywhereEntries.imp hpq entries h.2.2⟩

end

/-! ## Leaves -/

mutual

/-- What holds everywhere holds of the leaves. -/
theorem forall_mem_leaves : ∀ (d : Document) {others : List Document}, d.Everywhere p →
    (∀ x ∈ others, p x) → ∀ x ∈ leaves others d, p x
  | .list items, _, h, hothers | .tuple items, _, h, hothers | .set items, _, h, hothers =>
    forall_mem_leavesOf items h.2 hothers
  | .map entries, _, h, hothers => forall_mem_leavesOfEntries entries h.2 hothers
  | .null, _, h, hothers | .bool _, _, h, hothers | .int _, _, h, hothers | .real _, _, h, hothers
  | .text _, _, h, hothers | .bytes _, _, h, hothers | .date _, _, h, hothers
  | .moment _, _, h, hothers | .node _, _, h, hothers | .link _, _, h, hothers =>
    List.forall_mem_cons.mpr ⟨h, hothers⟩

theorem forall_mem_leavesOf : ∀ (ds : List Document) {others : List Document},
    EverywhereItems p ds → (∀ x ∈ others, p x) → ∀ x ∈ leavesOf others ds, p x
  | [], _, _, hothers => hothers
  | d :: ds, _, h, hothers => forall_mem_leaves d h.1 (forall_mem_leavesOf ds h.2 hothers)

theorem forall_mem_leavesOfEntries : ∀ (entries : List (Document × Document))
    {others : List Document}, EverywhereEntries p entries → (∀ x ∈ others, p x) →
    ∀ x ∈ leavesOfEntries others entries, p x
  | [], _, _, hothers => hothers
  | (key, value) :: entries, _, h, hothers =>
    forall_mem_leaves key h.1
      (forall_mem_leaves value h.2.1 (forall_mem_leavesOfEntries entries h.2.2 hothers))

end

/-- Whether a document is no integer with too many digits. -/
def IsShort : Document → Prop
  | .int n => hasFewDigits n = true
  | _ => True

end Document

namespace Data

open Document

variable {p : Document → Prop} {table : Array Document}

/-- What a link stands for has the properties that the table has everywhere. -/
theorem everywhere_follow (hnull : p .null) (ht : ∀ c ∈ table, c.Everywhere p) {d : Document}
    (hd : d.Everywhere p) : (follow table d).Everywhere p := by
  cases d with
  | link place =>
    show ((table[place]?).getD .null).Everywhere p
    cases h : table[place]? with
    | none => exact hnull
    | some c => exact ht c (Array.mem_of_getElem? h)
  | _ => exact hd

theorem forall_mem_scalars (hnull : p .null) (ht : ∀ c ∈ table, c.Everywhere p)
    (unseen : List Nat) (leaves : List Document) (hleaves : ∀ x ∈ leaves, p x) :
    ∀ x ∈ scalars table unseen leaves, p x := by
  fun_induction scalars table unseen leaves with
  | case1 => exact List.forall_mem_nil _
  | case2 unseen place rest _ ih =>
    obtain ⟨hlink, hrest⟩ := List.forall_mem_cons.mp hleaves
    exact ih (forall_mem_leaves _ (everywhere_follow hnull ht hlink) hrest)
  | case3 unseen place rest _ ih => exact ih (List.forall_mem_cons.mp hleaves).2
  | case4 unseen d rest _ ih =>
    obtain ⟨hd, hrest⟩ := List.forall_mem_cons.mp hleaves
    exact List.forall_mem_cons.mpr ⟨hd, ih hrest⟩

/-- **Data whose integers have few digits can be shown.** -/
theorem isShowable_of_everywhere (ht : ∀ c ∈ table, c.Everywhere IsShort) {d : Document}
    (hd : d.Everywhere IsShort) : Data.isShowable ⟨d, table⟩ = true := by
  unfold isShowable
  have hleaves := forall_mem_leaves d hd (List.forall_mem_nil _)
  have hscalars := forall_mem_scalars trivial ht (List.range table.size) _ hleaves
  refine List.all_eq_true.mpr fun x hx => ?_
  have hshort := hscalars x hx
  cases x with
  | int n => exact hshort
  | _ => rfl

end Data

end Treewalk
