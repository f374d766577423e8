import Treewalk.Json.Reader
import Treewalk.Proofs.Document.Shape
import Treewalk.Proofs.Json.Tokens

/-!
# Written values are read back

A value is made of null, truth values, integers, texts, lists, tuples and mappings with texts as
keys. Its JSON form is read as the value, in both layouts and wherever a value may stand, if the
collections in it fit below those that are open already (`exists_writeAt`). Tuples are read as
lists.

Reading is followed token by token (`readFrom_next`). The parts of a collection are read one after
another, and each of them changes only the innermost level (`readFrom_intercalate`).
-/

namespace Treewalk.Json

open Number Text
open Yaml (HasTextKeys setEntry_of_new)

/-! ## Values -/

mutual

/-- Whether a document is made of what JSON has, apart from fractions. -/
def IsValue : Document → Prop
  | .null | .bool _ | .text _ => True
  | .int n => hasFewDigits n = true
  | .list items | .tuple items => AreValues items
  | .map entries => HasTextKeys entries ∧ HaveValues entries
  | _ => False

/-- The same of the items of a list. -/
def AreValues : List Document → Prop
  | [] => True
  | d :: ds => IsValue d ∧ AreValues ds

/-- The same of the values of entries. -/
def HaveValues : List (Document × Document) → Prop
  | [] => True
  | (_, value) :: rest => IsValue value ∧ HaveValues rest

end

mutual

/-- A document with its tuples as lists. -/
def listed : Document → Document
  | .list items | .tuple items => .list (listedItems items)
  | .map entries => .map (listedEntries entries)
  | d => d

/-- The items of a list, with their tuples as lists. -/
def listedItems : List Document → List Document
  | [] => []
  | d :: ds => listed d :: listedItems ds

/-- Entries with the tuples in their values as lists. -/
def listedEntries : List (Document × Document) → List (Document × Document)
  | [] => []
  | (key, value) :: rest => (key, listed value) :: listedEntries rest

end

mutual

/-- The number of collections that stand inside each other in a document. -/
def nesting : Document → Nat
  | .list items | .tuple items | .set items => itemsNesting items + 1
  | .map entries => entriesNesting entries + 1
  | _ => 0

/-- The greatest nesting of some documents. -/
def itemsNesting : List Document → Nat
  | [] => 0
  | d :: ds => max (nesting d) (itemsNesting ds)

/-- The greatest nesting of the keys and values of entries. -/
def entriesNesting : List (Document × Document) → Nat
  | [] => 0
  | (key, value) :: rest => max (max (nesting key) (nesting value)) (entriesNesting rest)

end

/-! ## Reading token by token -/

section

variable {limit : Nat} {p p' : Progress} {t after : Text} {token : Token}

theorem dropSpaces_append {spaces : Text} (h : ∀ c ∈ spaces, isSpace c = true) (t : Text) :
    dropSpaces (spaces ++ t) = dropSpaces t := by
  unfold dropSpaces
  exact List.dropWhile_append_of_pos h

theorem readFrom_spaces {spaces : Text} (h : ∀ c ∈ spaces, isSpace c = true) (t : Text) :
    readFrom limit p (spaces ++ t) = readFrom limit p t := by
  rw [readFrom.eq_def limit p (spaces ++ t), readFrom.eq_def limit p t, dropSpaces_append h]

/-- A token that can be taken is taken. -/
theorem readFrom_next (hnext : Token.next t = .ok (token, after))
    (hstep : p.step limit token = .ok p') : readFrom limit p t = readFrom limit p' after := by
  cases t with
  | nil => cases hnext
  | cons point rest =>
    have hspace := isSpace_of_next hnext
    have hdrop : dropSpaces (point :: rest) = point :: rest :=
      List.dropWhile_cons_of_neg (by rw [hspace]; exact Bool.false_ne_true)
    rw [readFrom.eq_def]
    split
    · next h =>
      rw [hdrop] at h
      cases h
    · next h =>
      rw [hdrop] at h
      cases h
      split
      · next h =>
        rw [hnext] at h
        cases h
      · next h =>
        rw [hnext] at h
        cases h
        split
        · next h =>
          rw [hstep] at h
          cases h
        · next h =>
          rw [hstep] at h
          cases h
          rfl

/-- At the end of the text the document is complete. -/
theorem readFrom_nil {d : Document} (hp : p.result = some d) : readFrom limit p [] = .ok d := by
  rw [readFrom.eq_def]
  dsimp only [dropSpaces, List.dropWhile_nil]
  rw [hp]

end

/-! ## Where values stand -/

/-- Whether a value may come next. -/
def Progress.WantsValue (p : Progress) : Prop := p.position = .value ∨ p.position = .firstItem

namespace Progress

variable {limit : Nat} {p : Progress}

theorem WantsValue.step_scalar (h : p.WantsValue) (d : Document) :
    p.step limit (.scalar d) = .ok (p.take d) := by
  unfold step
  rcases h with h | h <;> rw [h]

theorem WantsValue.step_text (h : p.WantsValue) (t : Text) :
    p.step limit (.text t) = .ok (p.take (.text t)) := by
  unfold step
  rcases h with h | h <;> rw [h]

theorem WantsValue.step_openList (h : p.WantsValue) (hdepth : p.levels.length < limit) :
    p.step limit .openList = .ok ⟨.list [] :: p.levels, .firstItem, none⟩ := by
  unfold step
  rcases h with h | h <;> rw [h] <;> exact if_neg (Nat.not_le.mpr hdepth)

theorem WantsValue.step_openMap (h : p.WantsValue) (hdepth : p.levels.length < limit) :
    p.step limit .openMap = .ok ⟨.map [] [] :: p.levels, .firstKey, none⟩ := by
  unfold step
  rcases h with h | h <;> rw [h] <;> exact if_neg (Nat.not_le.mpr hdepth)

end Progress

/-- Whether a text is read as a document wherever a value may stand. -/
def ReadsAs (t : Text) (d : Document) : Prop :=
  ∀ limit (p : Progress) rest, p.WantsValue → p.levels.length + nesting d ≤ limit →
    EndsNumber rest → readFrom limit p (t ++ rest) = readFrom limit (p.take d) rest

theorem readsAs_null : ReadsAs "null" .null := by
  intro limit p rest hp _ _
  exact readFrom_next rfl (hp.step_scalar _)

theorem readsAs_bool (b : Bool) : ReadsAs (if b then "true" else "false") (.bool b) := by
  intro limit p rest hp _ _
  cases b with
  | true => exact readFrom_next rfl (hp.step_scalar _)
  | false => exact readFrom_next rfl (hp.step_scalar _)

theorem readsAs_int {n : Int} (hn : hasFewDigits n = true) :
    ReadsAs (ofChars (renderInt n)) (.int n) := by
  intro limit p rest hp _ hrest
  exact readFrom_next (next_renderInt hn hrest) (hp.step_scalar _)

theorem readsAs_text (t : Text) : ReadsAs (writeText t) (.text t) := by
  intro limit p rest hp _ _
  exact readFrom_next (next_writeText t rest) (hp.step_text t)

/-! ## Parts of collections -/

/-- How a kind of collection is put together while it is read: `α` are its parts, and `β` is what is
known of it in between. -/
structure Assembly (α β : Type) where
  opening : Char
  closing : Char
  openToken : Token
  closeToken : Token
  /-- Where the reader is after the opening bracket. -/
  first : Position
  /-- Where the reader is after a comma. -/
  again : Position
  start : β
  push : β → α → β
  level : β → Level
  document : β → Document
  next_opening : ∀ rest, Token.next (.char opening :: rest) = .ok (openToken, rest)
  next_closing : ∀ rest, Token.next (.char closing :: rest) = .ok (closeToken, rest)
  closing_ends : isDigit closing = false ∧ closing ≠ '.' ∧ closing ≠ 'e' ∧ closing ≠ 'E'
  step_open : ∀ {limit} {p : Progress}, p.WantsValue → p.levels.length < limit →
    p.step limit openToken = .ok ⟨level start :: p.levels, first, none⟩
  step_comma : ∀ limit b outer, Progress.step limit ⟨level b :: outer, .afterValue, none⟩ .comma =
    .ok ⟨level b :: outer, again, none⟩
  step_close : ∀ limit b position (p : Progress), position = first ∨ position = .afterValue →
    Progress.step limit ⟨level b :: p.levels, position, none⟩ closeToken =
      .ok (p.take (document b))

namespace Assembly

variable {α β : Type} (a : Assembly α β)

/-- Whether a text is read as a part of a collection, if the collections in it are nested at most
`depth` deep. -/
def ReadsPart (depth : Nat) (x : α) (t : Text) : Prop :=
  ∀ limit outer b position rest, outer.length + 1 + depth ≤ limit →
    position = a.first ∨ position = a.again → EndsNumber rest →
      readFrom limit ⟨a.level b :: outer, position, none⟩ (t ++ rest) =
        readFrom limit ⟨a.level (a.push b x) :: outer, .afterValue, none⟩ rest

variable {a} {depth limit : Nat} {xs : List α} {ts : List Text}

/-- The parts of a collection are read one after another. -/
theorem readFrom_intercalate {separator : Text}
    (hseparator : ∃ spaces, separator = .char ',' :: spaces ∧ ∀ c ∈ spaces, isSpace c = true)
    (hparts : List.Forall₂ (a.ReadsPart depth) xs ts) (hne : ts ≠ []) {outer : List Level}
    (hdepth : outer.length + 1 + depth ≤ limit) (b : β) {position : Position}
    (hposition : position = a.first ∨ position = a.again) {rest : Text} (hrest : EndsNumber rest) :
    readFrom limit ⟨a.level b :: outer, position, none⟩ (separator.intercalate ts ++ rest) =
      readFrom limit ⟨a.level (xs.foldl a.push b) :: outer, .afterValue, none⟩ rest := by
  obtain ⟨spaces, rfl, hspaces⟩ := hseparator
  induction hparts generalizing b position with
  | nil => exact absurd rfl hne
  | @cons x t xs ts hpart hparts ih =>
    cases hparts with
    | nil =>
      rw [List.intercalate_singleton]
      exact hpart limit outer b position rest hdepth hposition hrest
    | cons hpart' hparts =>
      have hcomma := endsNumber_cons (c := ',') (by decide)
      rw [List.intercalate_cons_cons, List.append_assoc, List.append_assoc, List.cons_append,
        hpart limit outer b position _ hdepth hposition (hcomma _),
        readFrom_next rfl (a.step_comma limit _ outer), readFrom_spaces hspaces,
        ih (List.cons_ne_nil _ _) _ (.inr rfl)]
      rfl

theorem isSpace_lineAt (l : Layout) (level : Nat) : ∀ c ∈ l.lineAt level, isSpace c = true := by
  cases l with
  | oneLine => simp [Layout.lineAt]
  | indented width =>
    intro c hc
    rcases List.mem_cons.mp hc with rfl | hc
    · rfl
    · rw [List.eq_of_mem_replicate hc]
      rfl

theorem exists_between (l : Layout) (level : Nat) :
    ∃ spaces, l.between level = .char ',' :: spaces ∧ ∀ c ∈ spaces, isSpace c = true := by
  cases l with
  | oneLine => exact ⟨[.char ' '], rfl, by decide⟩
  | indented width => exact ⟨_, rfl, isSpace_lineAt _ level⟩

/-- **A written collection is read as what its parts make up.** -/
theorem readFrom_enclose (hparts : List.Forall₂ (a.ReadsPart depth) xs ts) (l : Layout)
    (level : Nat) {p : Progress} (hp : p.WantsValue)
    (hdepth : p.levels.length + (depth + 1) ≤ limit) (rest : Text) :
    readFrom limit p (l.enclose level a.opening a.closing ts ++ rest) =
      readFrom limit (p.take (a.document (xs.foldl a.push a.start))) rest := by
  have hlevels : p.levels.length < limit := by omega
  have hopen := a.step_open hp hlevels
  unfold Layout.enclose
  cases ts with
  | nil =>
    cases hparts
    rw [if_pos List.isEmpty_nil]
    show readFrom limit p (.char a.opening :: .char a.closing :: rest) = _
    rw [readFrom_next (a.next_opening _) hopen,
      readFrom_next (a.next_closing _) (a.step_close limit _ _ p (.inl rfl))]
    rfl
  | cons t ts =>
    have hends : EndsNumber (l.lineAt level ++ (.char a.closing :: rest)) := by
      cases l with
      | oneLine => exact endsNumber_cons a.closing_ends rest
      | indented width => exact endsNumber_cons (by decide) _
    rw [if_neg (by simp)]
    simp only [List.cons_append, List.append_assoc, List.nil_append]
    rw [readFrom_next (a.next_opening _) hopen, readFrom_spaces (isSpace_lineAt l (level + 1)),
      readFrom_intercalate (exists_between l (level + 1)) hparts (List.cons_ne_nil _ _) (by omega)
        a.start (.inl rfl) hends,
      readFrom_spaces (isSpace_lineAt l level),
      readFrom_next (a.next_closing _) (a.step_close limit _ _ p (.inr rfl))]

end Assembly

end Treewalk.Json
