import Treewalk.CommandLine.ProgramFile
import Treewalk.Proofs.Tree.RoundTrip
import Treewalk.Proofs.Yaml.Cells
import Treewalk.Proofs.Yaml.Lines
import Treewalk.Proofs.Yaml.Outlines

/-!
# Programs survive being written as YAML

A plain record that is written is read as itself (`read_writeOutline`): the text is scanned as the
tokens of the outline, the tokens are read as a graph that stands for the document, and the cells of
the graph make up the document. So a program that is written as YAML is the same program when it is
read again, and running the text behaves as running the document that the program came from.

The depths to which nodes and trees are read bound the nesting. The texts between double quotes that
are not read back are left out by `Outline.isKept`: where lines start past the last column and an
escaped code point stands in front of a space, two line ends come together, and the second of them
escapes the backslash of the first.
-/

namespace Treewalk

namespace Yaml

variable {d : Document} {style : Bracketing} {n : Outline}

theorem Graph.Grows.standsFor {g : Graph} {ds : List Document} (h : Graph.Grows [] #[] g ds) :
    g.StandsFor ds where
  length_eq := by
    rw [h.size_eq]
    exact (Nat.zero_add _).symm
  fits i x d hx hd := h.fits i x d (Nat.zero_le i) hx hd

/-- **A plain record that is written is read as itself.** -/
theorem read_writeOutline (hd : IsPlainRecord d) (hn : Outline.ofDocument style d = .ok n)
    (hheight : height d ≤ Node.depthLimit) (hkept : n.isKept .root = true) :
    read (.ofChars (writeOutline n)) = .ok ↑d := by
  obtain ⟨hplain, entries, rfl⟩ := hd
  obtain ⟨n', hn', hordinary, hdenotes, hlist⟩ := exists_outline style _ hplain
  obtain rfl : n = n' := Except.ok.inj (hn.symm.trans hn')
  obtain ⟨inside, es, rfl⟩ := exists_eq_map hordinary hdenotes
  obtain ⟨g, new, htokens, hgrows, hsize⟩ := Node.ofTokens?_tokens _ hordinary rfl hdenotes hheight
  obtain ⟨cells, docs, root, hdata, hcells, hfits, hroot⟩ :=
    Graph.toData_eq (i := 0) hgrows.standsFor rfl hsize
  unfold read
  rw [Text.toChars?_ofChars]
  dsimp only
  rw [tokensOf_writeOutline hordinary hkept, htokens]
  show g.toData 0 = _
  rw [hdata, Data.ofCells_eq hcells hfits hroot]

end Yaml

/-- A document that is read as a program is handled by running the program. -/
theorem Session.handle_of_decode {source : Source} {format contentType : Option Text} {data : Data}
    {program : Option Expr} (hread : readDocument source format contentType = .ok data)
    (hdecode : Tree.decode Tree.depthLimit data = .ok program) (rounds : Nat) (s : Session) :
    s.handle rounds source format contentType = s.run rounds program := by
  unfold Session.handle
  rw [hread]
  dsimp only
  rw [hdecode]

namespace Tree

open Yaml

/-- **A program that is written as YAML is read as the same program.** Every well-formed program has
a text, laid out for reading or not. If its nesting stays within the depths to which nodes and trees
are read, and every text between double quotes is read back from its place, then the text is read as
the document of the program, the document is the program, and running the text goes as running any
document of the program. -/
theorem writeText_yaml_survives {e : Expr} (he : e.WellFormed) (pretty : Bool) :
    ∃ d n text, encode e = .ok d ∧
      Outline.ofDocument (if pretty then .simpleInside else .allInside) d = .ok n ∧
      writeText .yaml pretty d = .ok text ∧
      (pretty = true → CommandLine.dumpText (some e) = .ok text) ∧
      (e.levels ≤ depthLimit → height d ≤ Node.depthLimit → n.isKept .root = true →
        readText .yaml text = .ok ↑d ∧ decode depthLimit ↑d = .ok (some e) ∧
        ∀ (rounds : Nat) (s : Session) (source : Source) (format contentType : Option Text)
          (data : Data), readDocument source format contentType = .ok data →
          decode depthLimit data = .ok (some e) →
          s.handle rounds (.text text) (some "yaml") none =
            s.handle rounds source format contentType) := by
  obtain ⟨d, hd, -, hdecode⟩ := exists_encode he
  have hplain := plain_encode he hd
  obtain ⟨n, hn, -⟩ := exists_outline (if pretty then .simpleInside else .allInside) d hplain.1
  have hwrite : writeText .yaml pretty d = .ok (.ofChars (writeOutline n)) := by
    unfold writeText
    dsimp only
    unfold Yaml.write
    rw [hn]
  refine ⟨d, n, _, hd, hn, hwrite, ?_, fun hlevels hheight hkept => ?_⟩
  · rintro rfl
    have hdocument : encodeDocument (((some e).map Document.node).getD .null) = .ok d := hd
    unfold CommandLine.dumpText
    rw [hdocument]
    dsimp only [bind, Except.bind]
    rw [hwrite]
    rfl
  · have hread := read_writeOutline hplain hn hheight hkept
    have htext : readText .yaml (.ofChars (writeOutline n)) = .ok ↑d := by
      unfold readText
      dsimp only
      unfold readYaml
      rw [hread]
    have hprogram : decode depthLimit ↑d = .ok (some e) := hdecode _ _ hlevels
    refine ⟨htext, hprogram, fun rounds s source format contentType data hsource hdata => ?_⟩
    have hdocument : readDocument (.text (.ofChars (writeOutline n))) (some "yaml") none = .ok ↑d :=
      htext
    rw [Session.handle_of_decode hdocument hprogram, Session.handle_of_decode hsource hdata]

/-- One name would be read as a truth value if it were not quoted, and the other needs an escape. -/
theorem writeText_yaml_survives_two_names :
    let e : Expr := .seq (.assign "yes" (.literal (.int (-5)))) (.print (.var "a: \x01"))
    ∃ d n text, encode e = .ok d ∧ Outline.ofDocument .simpleInside d = .ok n ∧
      n.isKept .root = true ∧ writeText .yaml true d = .ok text ∧ readText .yaml text = .ok ↑d ∧
      decode depthLimit ↑d = .ok (some e) := by
  intro e
  have hwf : e.WellFormed := by
    simp [e, Expr.WellFormed, Expr.Everywhere, Value.Everywhere, Expr.NodeOk, Value.IsLiteral,
      Value.intMin, Value.intMax, Text.ofString, Text.ofChars]
  obtain ⟨d, n, text, hd, hn, htext, -, hkeeps⟩ := writeText_yaml_survives hwf true
  obtain ⟨hheight, hkept⟩ : height d ≤ Node.depthLimit ∧ n.isKept .root = true := by
    cases hd
    cases hn
    constructor <;> decide
  obtain ⟨hread, hdecode, -⟩ := hkeeps (by decide) hheight hkept
  exact ⟨d, n, text, hd, hn, hkept, htext, hread, hdecode⟩

end Tree

end Treewalk
