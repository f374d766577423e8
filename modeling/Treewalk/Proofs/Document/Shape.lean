import Treewalk.Document.Basic

/-!
# The shape of documents

The height of a document is the number of nodes that stand inside each other in it, as the reader of
YAML counts them; the parts of a collection are lower than the collection. A mapping that comes from
a text format usually has texts as keys, each of them once, and entries that are set one after
another then keep their order.
-/

namespace Treewalk.Yaml

/-! ## The height of documents -/

mutual

/-- The number of nodes that stand inside each other in a document, itself included. -/
def height : Document → Nat
  | .list items | .tuple items | .set items => itemsHeight items + 1
  | .map entries => entriesHeight entries + 1
  | _ => 1

/-- The greatest height of some documents. -/
def itemsHeight : List Document → Nat
  | [] => 0
  | d :: ds => max (height d) (itemsHeight ds)

/-- The greatest height of the keys and values of entries. -/
def entriesHeight : List (Document × Document) → Nat
  | [] => 0
  | (key, value) :: rest => max (max (height key) (height value)) (entriesHeight rest)

end

theorem height_pos (d : Document) : 0 < height d := by
  cases d <;> simp [height]

theorem height_le_of_mem {d : Document} {ds : List Document} (h : d ∈ ds) :
    height d ≤ itemsHeight ds := by
  induction ds with
  | nil => cases h
  | cons d' ds ih =>
    rcases List.mem_cons.mp h with rfl | h
    · exact Nat.le_max_left _ _
    · exact Nat.le_trans (ih h) (Nat.le_max_right _ _)

theorem height_le_of_field? {name : Text} {d : Document} {entries : List (Document × Document)}
    (h : Document.field? name entries = some d) : height d ≤ entriesHeight entries := by
  induction entries with
  | nil => cases h
  | cons entry rest ih =>
    obtain ⟨key, value⟩ := entry
    unfold entriesHeight
    unfold Document.field? at h
    split at h
    · cases h
    · next heq =>
      cases heq
      split at h
      · cases h
        omega
      · have hrest := ih h
        omega
    · next heq =>
      cases heq
      have hrest := ih h
      omega

/-- Whether a document is no collection. -/
def isScalar : Document → Bool
  | .list _ | .tuple _ | .set _ | .map _ => false
  | _ => true

theorem height_of_isScalar {d : Document} (h : isScalar d = true) : height d = 1 := by
  cases d with
  | list | tuple | set | map => exact nomatch h
  | _ => rfl

/-! ## Keys -/

/-- Whether entries have texts as keys, and no key twice. -/
def HasTextKeys {α : Type} (entries : List (Document × α)) : Prop :=
  (∀ e ∈ entries, ∃ t, e.1 = .text t) ∧ entries.Pairwise fun e e' => e.1.sameKey e'.1 = false

/-- A new key comes last. -/
theorem setEntry_of_new {α : Type} {key : Document} {value : α} {done : List (Document × α)}
    (hnew : ∀ e ∈ done, e.1.sameKey key = false) :
    Document.setEntry key value done = done ++ [(key, value)] := by
  induction done with
  | nil => rfl
  | cons e done ih =>
    obtain ⟨hkey, hnew⟩ := List.forall_mem_cons.mp hnew
    rw [Document.setEntry, hkey, if_neg Bool.false_ne_true, ih hnew]
    rfl

end Treewalk.Yaml
