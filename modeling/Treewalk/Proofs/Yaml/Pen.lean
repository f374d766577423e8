import Treewalk.Proofs.Yaml.Cursor
import Treewalk.Yaml.ScalarText

/-!
# What a pen adds

`p.Adds cs p'` says that the pen `p'` comes from `p` by writing the characters `cs`, which can all
stand in a text without an escape. A pen `Rests` where the next mark needs a blank in front of it
and the next line has to be begun, as it does after every scalar and every closing bracket.
-/

namespace Treewalk.Yaml.Pen

variable {p p' p'' : Pen} {cs ds : List Char} {column : Nat}

/-- Whether a pen has come from another one by writing characters. -/
structure Adds (p : Pen) (cs : List Char) (p' : Pen) : Prop where
  text_eq : p'.text = p.text ++ cs
  common : ∀ c ∈ cs, isCommon c

/-- Whether neither a blank nor only indentation stands before a pen. -/
structure Rests (p : Pen) : Prop where
  spaced_eq : p.spaced = false
  indenting_eq : p.indenting = false

theorem isCommon_of_isPrint {c : Char} (h : IsPrint c) : isCommon c := by
  simp [isCommon, h.1, h.2]

namespace Adds

theorem refl (p : Pen) : p.Adds [] p := ⟨(List.append_nil _).symm, nofun⟩

theorem trans (h : p.Adds cs p') (h' : p'.Adds ds p'') : p.Adds (cs ++ ds) p'' where
  text_eq := by rw [h'.text_eq, h.text_eq, List.append_assoc]
  common := List.forall_mem_append.mpr ⟨h.common, h'.common⟩

theorem cast (h : p.Adds cs p') (heq : cs = ds) : p.Adds ds p' := heq ▸ h

/-- The flags of a pen do not matter to what is added. -/
theorem flags (h : p.Adds cs p') (spaced indenting : Bool) :
    p.Adds cs { p' with spaced := spaced, indenting := indenting } :=
  ⟨h.text_eq, h.common⟩

end Adds

theorem text_put (cs : List Char) (p : Pen) : (p.put cs).text = p.text ++ cs := by
  simp [put, text, List.reverseAux_eq]

theorem adds_put (p : Pen) (h : ∀ c ∈ cs, IsPrint c) : p.Adds cs (p.put cs) :=
  ⟨text_put cs p, fun c hc => isCommon_of_isPrint (h c hc)⟩

theorem adds_char (p : Pen) {c : Char} (h : IsPrint c) : p.Adds [c] (p.put [c]) :=
  adds_put p (by simpa using h)

theorem Rests.put (h : p.Rests) (cs : List Char) : (p.put cs).Rests := ⟨h.1, h.2⟩

theorem put_put (p : Pen) (cs ds : List Char) : (p.put cs).put ds = p.put (cs ++ ds) := by
  simp [put, List.reverseAux_eq, Nat.add_assoc]

theorem adds_newLine (p : Pen) : p.Adds ['\n'] p.newLine :=
  ⟨by simp [newLine, text], by simp [isCommon]⟩

theorem isPrint_spaces {n : Nat} : ∀ c ∈ spaces n, IsPrint c := by
  intro c hc
  rw [List.eq_of_mem_replicate hc]
  exact .space

/-! ## Indentation -/

/-- Writes the spaces up to a column. -/
def pad (column : Nat) (p : Pen) : Pen :=
  if p.column < column then
    { p.put (spaces (column - p.column)) with spaced := true }
  else p

/-- Whether a pen has to begin a new line to go to a column. -/
def leaves (column : Nat) (p : Pen) : Bool :=
  !p.indenting || column < p.column || (p.column = column && !p.spaced)

theorem indent_eq (column : Nat) (p : Pen) :
    p.indent column = (if p.leaves column then p.newLine else p).pad column :=
  rfl

/-- Whether a pen stands at a column with nothing but indentation before it. -/
structure Indents (p : Pen) (column : Nat) : Prop where
  column_eq : p.column = column
  indenting_eq : p.indenting = true
  spaced_eq : p.spaced = true

theorem pad_spec (h : p.indenting = true) (hcolumn : p.column ≤ column)
    (hspaced : p.column = column → p.spaced = true) :
    p.Adds (spaces (column - p.column)) (p.pad column) ∧ (p.pad column).Indents column := by
  unfold pad
  by_cases hlt : p.column < column
  · rw [if_pos hlt]
    refine ⟨(adds_put p isPrint_spaces).flags true p.indenting, ⟨?_, h, rfl⟩⟩
    simp only [put, List.length_replicate]
    omega
  · have heq : p.column = column := by omega
    rw [if_neg hlt, show column - p.column = 0 by omega]
    exact ⟨.refl p, ⟨heq, h, hspaced heq⟩⟩

/-- Going to a column on the line that the pen is on. -/
theorem indent_of_same_line (column : Nat) (h : p.indenting = true) (hcolumn : p.column ≤ column)
    (hspaced : p.column = column → p.spaced = true) :
    p.Adds (spaces (column - p.column)) (p.indent column) ∧ (p.indent column).Indents column := by
  have hstay : p.leaves column = false := by
    unfold leaves
    by_cases heq : p.column = column
    · simp [h, heq, hspaced heq]
    · simp [h, heq, hcolumn]
  rw [indent_eq, hstay]
  exact pad_spec h hcolumn hspaced

/-- Going to a column on a new line. -/
theorem indent_of_new_line (column : Nat) (h : p.indenting = false ∨ column < p.column) :
    p.Adds ('\n' :: spaces column) (p.indent column) ∧ (p.indent column).Indents column := by
  have hleave : p.leaves column = true := by
    unfold leaves
    rcases h with h | h <;> simp [h]
  have hline : p.newLine.indenting = true := rfl
  obtain ⟨hadds, hindents⟩ := pad_spec hline (Nat.zero_le column) fun _ => rfl
  rw [indent_eq, hleave]
  exact ⟨(adds_newLine p).trans hadds, hindents⟩

/-- Going to a column behind an empty line. -/
theorem indent_newLine (column : Nat) (p : Pen) :
    p.Adds ('\n' :: spaces column) (p.newLine.indent column) ∧
      (p.newLine.indent column).Indents column := by
  have hline : p.newLine.indenting = true := rfl
  obtain ⟨hadds, hindents⟩ := indent_of_same_line column hline (Nat.zero_le column) fun _ => rfl
  exact ⟨(adds_newLine p).trans hadds, hindents⟩

/-! ## Marks -/

/-- The blank that a mark needs in front of it. -/
def gap (p : Pen) : List Char := if p.spaced then [] else [' ']

theorem gap_of_spaced (h : p.spaced = true) : p.gap = [] := if_pos h

theorem gap_of_not_spaced (h : p.spaced = false) : p.gap = [' '] := if_neg (Bool.eq_false_iff.mp h)

theorem Rests.gap_eq (h : p.Rests) : p.gap = [' '] := gap_of_not_spaced h.spaced_eq

theorem Indents.gap_eq (h : p.Indents column) : p.gap = [] := gap_of_spaced h.spaced_eq

theorem isPrint_gap (p : Pen) : ∀ c ∈ p.gap, IsPrint c := by
  unfold gap
  split
  · exact nofun
  · simp [IsPrint.space]

theorem mark_eq (p : Pen) (cs : List Char) : p.mark cs = (p.mark []).put cs := by
  unfold mark
  cases h : p.spaced <;> simp [put, Nat.add_comm, Nat.add_left_comm]

theorem adds_mark (p : Pen) (h : ∀ c ∈ cs, IsPrint c) : p.Adds (p.gap ++ cs) (p.mark cs) := by
  have hmark : p.mark cs = { p.put (p.gap ++ cs) with spaced := false, indenting := false } := by
    unfold mark gap
    cases p.spaced <;> rfl
  rw [hmark]
  exact (adds_put p (List.forall_mem_append.mpr ⟨isPrint_gap p, h⟩)).flags false false

theorem rests_mark (p : Pen) (cs : List Char) : (p.mark cs).Rests := ⟨rfl, rfl⟩

theorem adds_closingMark (p : Pen) (h : ∀ c ∈ cs, IsPrint c) : p.Adds cs (p.closingMark cs) :=
  (adds_put p h).flags false false

theorem rests_closingMark (p : Pen) (cs : List Char) : (p.closingMark cs).Rests := ⟨rfl, rfl⟩

end Treewalk.Yaml.Pen
