import Treewalk.Op
import Treewalk.Proofs.Number.Decimal
import Treewalk.Proofs.Text.CodePoint
import Treewalk.Proofs.Tree.Faults

/-!
# Operators named by documents

An operator is found by its symbol, by its name, or by its long name, and by nothing else
(`Op.lookup?_eq_some_iff`). The operator of a record may be any document; it is converted to a text,
and only a document that is a text names an operator: the shown form of anything else holds a
character that occurs in no symbol and in no name (`lookup?_asText`).
-/

namespace Treewalk

open Number Text

namespace Op

/-- A text in capitals. -/
def capitals (s : String) : String := String.ofList (s.toList.map capital)

/-- The operators with their names, long ones included. -/
def names : List (String × Op) := all.map (fun op => (op.name, op)) ++ longNames

/-- Whether a text names an operator: by its symbol, or by a name in any mixture of capitals and
small letters. -/
def Named (s : String) (op : Op) : Prop := s = op.symbol ∨ (capitals s, op) ∈ names

theorem mem_all (op : Op) : op ∈ all := by cases op <;> decide

/-- A text names one operator at most. -/
theorem Named.unique {s : String} {op op' : Op} (h : Named s op) (h' : Named s op') : op = op' := by
  have hsymbols : ∀ op ∈ all, ∀ op' ∈ all, op.symbol = op'.symbol → op = op' := by decide +kernel
  have hnames : ∀ e ∈ names, ∀ e' ∈ names, e.1 = e'.1 → e.2 = e'.2 := by decide +kernel
  have hdisjoint : ∀ op ∈ all, ∀ e ∈ names, capitals op.symbol ≠ e.1 := by decide +kernel
  rcases h with rfl | h <;> rcases h' with h' | h'
  · exact hsymbols op (mem_all op) op' (mem_all op') h'
  · exact absurd rfl (hdisjoint op (mem_all op) _ h')
  · exact absurd rfl (hdisjoint op' (mem_all op') _ (h' ▸ h))
  · exact hnames _ h _ h' rfl

theorem Named.of_lookup? {s : String} {op : Op} (h : lookup? s = some op) : Named s op := by
  unfold lookup? at h
  rcases Option.or_eq_some_iff.mp h with h | ⟨-, h⟩
  · have hfound := List.find?_some h
    rw [Bool.or_eq_true, beq_iff_eq, beq_iff_eq] at hfound
    refine hfound.imp_right fun hname => List.mem_append_left _ ?_
    exact List.mem_map.mpr ⟨op, mem_all op, congrArg (·, op) hname.symm⟩
  · obtain ⟨e, he, rfl⟩ := Option.map_eq_some_iff.mp h
    have hfound := List.find?_some he
    have hname : capitals s = e.1 := beq_iff_eq.mp hfound
    refine .inr (List.mem_append_right _ ?_)
    rw [hname]
    exact List.mem_of_find?_eq_some he

/-- **An operator is found by the texts that name it.** -/
theorem lookup?_eq_some_iff {s : String} {op : Op} : lookup? s = some op ↔ Named s op := by
  refine ⟨Named.of_lookup?, fun h => ?_⟩
  cases hlookup : lookup? s with
  | some op' => rw [h.unique (Named.of_lookup? hlookup)]
  | none =>
    unfold lookup? at hlookup
    obtain ⟨hall, hlong⟩ := Option.or_eq_none_iff.mp hlookup
    have hmiss := List.find?_eq_none.mp hall op (mem_all op)
    rw [Bool.or_eq_true, beq_iff_eq, beq_iff_eq, not_or] at hmiss
    rcases h with h | h
    · exact absurd h hmiss.1
    rcases List.mem_append.mp h with h | h
    · obtain ⟨op', -, heq⟩ := List.mem_map.mp h
      obtain ⟨hname, rfl⟩ := Prod.mk.inj heq
      exact absurd hname.symm hmiss.2
    · have hmiss := List.find?_eq_none.mp (Option.map_eq_none_iff.mp hlong) _ h
      exact absurd (beq_self_eq_true _) hmiss

/-! ## Texts that name no operator -/

/-- Whether a character occurs in no word for an operator, in whatever letters. -/
def isForeign (c : Char) : Bool := c.isDigit || c == '.' || c == '[' || c == '\x7b' || c == 'n'

theorem capital_of_isDigit {c : Char} (h : c.isDigit = true) : capital c = c := by
  obtain ⟨-, hle, -⟩ := digit_spec h
  have hlower : ¬(c.val ≥ 'a'.val ∧ c.val ≤ 'z'.val) := by
    rintro ⟨hge, -⟩
    have hnat : 97 ≤ c.toNat := hge
    omega
  have hdotless : c ≠ 'ı' := by
    rintro rfl
    cases h
  have hlong : c ≠ 'ſ' := by
    rintro rfl
    cases h
  unfold capital
  rw [if_neg hdotless, if_neg hlong]
  exact dif_neg hlower

/-- The capital of such a character is one again, or a capital N. -/
theorem capital_of_isForeign {c : Char} (h : isForeign c = true) :
    isForeign (capital c) = true ∨ capital c = 'N' := by
  have hcases : (((c.isDigit = true ∨ c = '.') ∨ c = '[') ∨ c = '\x7b') ∨ c = 'n' := by
    simpa [isForeign] using h
  rcases hcases with (((hdigit | rfl) | rfl) | rfl) | rfl
  · rw [capital_of_isDigit hdigit]
    exact .inl h
  · exact .inl rfl
  · exact .inl rfl
  · exact .inl rfl
  · exact .inr rfl

theorem not_named_of_isForeign {s : String} {c : Char} (hmem : c ∈ s.toList)
    (hc : isForeign c = true) (op : Op) : ¬Named s op := by
  have hsymbols : ∀ op ∈ all, op.symbol.toList.all (!isForeign ·) = true := by decide +kernel
  have hnames : ∀ e ∈ names, e.1.toList.all (fun x => !isForeign x && x != 'N') = true := by
    decide +kernel
  rintro (rfl | h)
  · have hplain := List.all_eq_true.mp (hsymbols op (mem_all op)) c hmem
    rw [hc] at hplain
    cases hplain
  · have hcapital : capital c ∈ (capitals s).toList := by
      rw [capitals, String.toList_ofList]
      exact List.mem_map_of_mem hmem
    have hplain := List.all_eq_true.mp (hnames _ h) _ hcapital
    rw [Bool.and_eq_true, Bool.not_eq_true', bne_iff_ne] at hplain
    rcases capital_of_isForeign hc with hc | hc
    · rw [hplain.1] at hc
      cases hc
    · exact hplain.2 hc

end Op

/-! ## Documents that name no operator -/

theorem exists_isForeign_toDigits (n : Nat) :
    ∃ c ∈ Nat.toDigits 10 n, Op.isForeign c = true := by
  obtain ⟨d, tail, heq, hd, -⟩ := (isNumeral_toDigits n).exists_cons
  refine ⟨d, heq ▸ List.mem_cons_self, ?_⟩
  unfold Op.isForeign
  rw [hd]
  rfl

/-- A written number holds a digit, a point, or the letter n. -/
theorem exists_isForeign_render (x : Binary64) : ∃ c ∈ x.render, Op.isForeign c = true := by
  unfold Binary64.render
  by_cases hnan : x.isNaN
  · rw [if_pos hnan]
    exact ⟨'n', by decide, by decide⟩
  rw [if_neg hnan]
  dsimp only
  generalize (if x.isNegative = true then ['-'] else []) = sign
  split
  · exact ⟨'n', by simp, by decide⟩
  split
  · exact ⟨'.', by simp, by decide⟩
  -- What is positional has a point, and what is not has digits in its exponent.
  split
  · exact ⟨'.', by simp, by decide⟩
  split
  · split
    · exact ⟨'.', by simp, by decide⟩
    · exact ⟨'.', by simp, by decide⟩
  · obtain ⟨c, hc, hforeign⟩ := exists_isForeign_toDigits
      ((Nat.toDigits 10 x.shortest.digits).length + x.shortest.exponent - 1).natAbs
    refine ⟨c, List.mem_append_right _ (List.mem_append_right _ ?_), hforeign⟩
    split
    · exact List.mem_cons_of_mem _ hc
    · exact hc

namespace Tree

open Document

/-- A basic document that is no text shows such a character, truth values apart. -/
theorem exists_isForeign_shown {d : Document} (hd : IsBasicNode d) (htext : ∀ t, d ≠ .text t)
    (hbool : ∀ b, d ≠ .bool b) : ∃ c ∈ d.shown.toList, Op.isForeign c = true := by
  cases d with
  | null => exact ⟨'n', by decide, by decide⟩
  | int n =>
    obtain ⟨c, hc, hforeign⟩ := exists_isForeign_toDigits n.natAbs
    refine ⟨c, ?_, hforeign⟩
    show c ∈ (String.ofList (renderInt n)).toList
    rw [String.toList_ofList, renderInt_eq]
    exact List.mem_append_right _ hc
  | real x =>
    obtain ⟨c, hc, hforeign⟩ := exists_isForeign_render x
    refine ⟨c, ?_, hforeign⟩
    show c ∈ (String.ofList x.render).toList
    rwa [String.toList_ofList]
  | list items => exact ⟨'[', by simp [shown, Data.shown, shownWith, Data.ofDocument, showList],
      by decide⟩
  | map entries => exact ⟨'\x7b', by simp [shown, Data.shown, shownWith, Data.ofDocument],
      by decide⟩
  | bool b => exact absurd rfl (hbool b)
  | text t => exact absurd rfl (htext t)
  | _ => exact hd.elim

/-- **Only a text names an operator.** -/
theorem lookup?_asText {d : Document} (hd : IsBasicNode d) {op : Op} :
    d.asText.toString?.bind Op.lookup? = some op ↔
      ∃ s, d = .text (.ofString s) ∧ Op.Named s op := by
  constructor
  · intro h
    by_cases htext : ∃ t, d = .text t
    · obtain ⟨t, rfl⟩ := htext
      obtain ⟨s, hs, hlookup⟩ := Option.bind_eq_some_iff.mp h
      exact ⟨s, congrArg Document.text (Text.eq_ofString_of_toString? hs),
        Op.lookup?_eq_some_iff.mp hlookup⟩
    · have hshown : d.asText = .ofString d.shown := by
        cases d with
        | text t => exact absurd ⟨t, rfl⟩ htext
        | _ => rfl
      rw [hshown, Text.toString?_ofString, Option.bind_some] at h
      have hbool : ∀ b, d ≠ .bool b := by
        rintro b rfl
        have hnone : Op.lookup? (showBool b) = none := by cases b <;> decide +kernel
        exact absurd (hnone.symm.trans h) (by simp)
      obtain ⟨c, hc, hforeign⟩ :=
        exists_isForeign_shown hd (fun t ht => htext ⟨t, ht⟩) hbool
      exact absurd (Op.lookup?_eq_some_iff.mp h) (Op.not_named_of_isForeign hc hforeign op)
  · rintro ⟨s, rfl, hs⟩
    show (Text.toString? (.ofString s)).bind Op.lookup? = some op
    rw [Text.toString?_ofString]
    exact Op.lookup?_eq_some_iff.mpr hs

end Tree

end Treewalk
