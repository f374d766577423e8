import Treewalk.Proofs.Tree.WellFormed
import Treewalk.Proofs.Yaml.Outlines

/-!
# Normal forms of plain data

The document that the encoder writes for an expression is a normal form of all the plain data that
describe the expression (`encode_normalForm`). It is plain itself: it consists of records, lists and
scalars alone (`plain_encode`), so it holds no expression (`plain_of_encode`).
-/

namespace Treewalk

open Document

namespace Yaml

mutual

/-- Documents in the form of those of expressions hold no expression. -/
theorem IsPlain.plain : ∀ {d : Document}, IsPlain d → d.Plain
  | .null, _ | .bool _, _ | .text _, _ | .int _, _ => trivial
  | .list _, h => ArePlain.plainItems h
  | .map _, h => HavePlainValues.plainEntries h.2

theorem ArePlain.plainItems : ∀ {ds : List Document}, ArePlain ds → PlainItems ds
  | [], _ => trivial
  | _ :: _, ⟨_, hd, hds⟩ => ⟨hd.plain, hds.plainItems⟩

theorem HavePlainValues.plainEntries :
    ∀ {entries : List (Document × Document)}, HavePlainValues entries → PlainEntries entries
  | [], _ => trivial
  | _ :: _, ⟨⟨_, _, hkey⟩, hvalue, hrest⟩ => ⟨hkey ▸ trivial, hvalue.plain, hrest.plainEntries⟩

end

end Yaml

namespace Tree

/-- The document of a well-formed expression is plain. -/
theorem plain_of_encode {e : Expr} (h : e.WellFormed) {d : Document} (hd : encode e = .ok d) :
    Data.Plain d :=
  ⟨(Yaml.plain_encode h hd).1.plain, nofun⟩

/-- Expressions with the same document are equal, if one of them is well formed. -/
theorem encode_inj {e₁ e₂ : Expr} (h₁ : e₁.WellFormed) (h₂ : e₂.WellFormed) {d : Document}
    (hd₁ : encode e₁ = .ok d) (hd₂ : encode e₂ = .ok d) : e₁ = e₂ := by
  obtain ⟨d₁, he₁, -, hdec₁⟩ := exists_encode h₁
  obtain ⟨d₂, he₂, -, hdec₂⟩ := exists_encode h₂
  cases hd₁.symm.trans he₁
  cases hd₂.symm.trans he₂
  have h := hdec₁ #[] (max e₁.levels e₂.levels) (Nat.le_max_left _ _)
  rw [hdec₂ #[] (max e₁.levels e₂.levels) (Nat.le_max_right _ _)] at h
  simpa using h.symm

/--
**The document of an expression is the normal form of the data that describe it.**

It exists for every well-formed expression, is plain and is read as that expression; it is the
normal form of itself; and data with the same normal form describe the same expression.
-/
theorem encode_normalForm :
    (∀ e : Expr, e.WellFormed → ∃ d : Document, encode e = .ok d ∧ Data.Plain d ∧
      ∀ depth, e.levels ≤ depth → decode depth d = .ok (some e)) ∧
    (∀ (data : Data) (depth : Nat) (e : Expr), data.Plain → decode depth data = .ok (some e) →
      ∃ d : Document, encode e = .ok d ∧ Data.Plain d ∧ ∀ depth', e.levels ≤ depth' →
        ∃ e', decode depth' d = .ok (some e') ∧ encode e' = .ok d) ∧
    ∀ (data₁ data₂ : Data) (depth₁ depth₂ : Nat) (e₁ e₂ : Expr) (d : Document),
      data₁.Plain → data₂.Plain → decode depth₁ data₁ = .ok (some e₁) →
      decode depth₂ data₂ = .ok (some e₂) → encode e₁ = .ok d → encode e₂ = .ok d → e₁ = e₂ := by
  refine ⟨fun e h => ?_, fun data depth e hp h => ?_, ?_⟩
  · obtain ⟨d, hd, -, hdec⟩ := exists_encode h
    exact ⟨d, hd, plain_of_encode h hd, hdec #[]⟩
  · have hwf := wellFormed_of_decode hp h
    obtain ⟨d, hd, -, hdec⟩ := exists_encode hwf
    exact ⟨d, hd, plain_of_encode hwf hd, fun depth' hl => ⟨e, hdec #[] depth' hl, hd⟩⟩
  · intro data₁ data₂ depth₁ depth₂ e₁ e₂ d hp₁ hp₂ h₁ h₂ hd₁ hd₂
    exact encode_inj (wellFormed_of_decode hp₁ h₁) (wellFormed_of_decode hp₂ h₂) hd₁ hd₂

/-- Statements nested to the right, written as a list and as `seq` records. -/
theorem encode_normalForm_two_spellings :
    let e : Expr := .seq (.literal (.int 1)) (.seq (.var "x") (.func ["a"] none))
    let one : Document := list [int 1, null, list [record [("tag", text "var"), ("name", text "x")],
      list [], record [("tag", text "function"), ("params", list [text "a"])]]]
    let two : Document := record [("tag", text "seq"), ("first", int 1),
      ("second", record [("tag", text "seq"),
        ("first", record [("tag", text "var"), ("name", text "x")]),
        ("second", record [("tag", text "function"), ("params", list [text "a"])])])]
    e.WellFormed ∧ Data.Plain one ∧ Data.Plain two ∧
      decode 400 one = .ok (some e) ∧ decode 400 two = .ok (some e) ∧
      ∃ d : Document, encode e = .ok d ∧ Data.Plain d ∧ decode 400 d = .ok (some e) ∧
        (∃ e', decode 400 d = .ok (some e') ∧ encode e' = .ok d) ∧
        ∀ e', decode 400 one = .ok (some e') → encode e' = .ok d → e' = e := by
  intro e one two
  have hwf : e.WellFormed := by
    simp [e, Expr.WellFormed, Expr.Everywhere, Expr.EverywhereBlock, Value.Everywhere, Expr.NodeOk,
      Value.IsLiteral, Value.intMin, Value.intMax, Text.ofString, Text.ofChars]
  have h₁ : decode 400 one = .ok (some e) := by rfl
  have h₂ : decode 400 two = .ok (some e) := by rfl
  have hp₁ : Data.Plain one := by
    simp [one, Data.Plain, Data.ofDocument, Document.Plain, PlainItems, PlainEntries, record]
  have hp₂ : Data.Plain two := by
    simp [two, Data.Plain, Data.ofDocument, Document.Plain, PlainItems, PlainEntries, record]
  obtain ⟨d, hd, hplain, hdec⟩ := encode_normalForm.1 e hwf
  obtain ⟨d', hd', -, hagain⟩ := encode_normalForm.2.1 two 400 e hp₂ h₂
  cases hd.symm.trans hd'
  refine ⟨hwf, hp₁, hp₂, h₁, h₂, d, hd, hplain, hdec 400 (by decide), hagain 400 (by decide), ?_⟩
  intro e' h' hd'
  exact encode_normalForm.2.2 one two 400 400 e' e d hp₁ hp₂ h' h₂ hd' hd

end Tree

end Treewalk
