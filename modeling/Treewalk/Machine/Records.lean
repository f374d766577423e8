import Treewalk.Text.CodePoint

/-!
# Records of printed lines

The lines that were printed last, of which only so many are kept. After each new line the oldest
surplus ones are dropped, so a line may be dropped as soon as it comes.

The lines are held in two lists, so that adding one and dropping one takes no longer the more lines
there are. `toList` gives the lines in the order in which they were printed; `toList_push` says what
a new line does to them.
-/

namespace Treewalk

/-- Printed lines that are kept. -/
structure Records where
  /-- The older lines, the oldest first. -/
  older : List Text
  /-- The newer lines, the newest first. -/
  newer : List Text
  size : Nat
  size_eq : size = older.length + newer.length

namespace Records

/-- No lines. -/
def empty : Records := ⟨[], [], 0, rfl⟩

/-- The lines in the order in which they were printed. -/
def toList (r : Records) : List Text := r.older ++ r.newer.reverse

@[simp]
theorem toList_empty : empty.toList = [] := rfl

theorem length_toList (r : Records) : r.toList.length = r.size := by
  simp [toList, r.size_eq]

/-- Adds a line. -/
def add (line : Text) (r : Records) : Records :=
  ⟨r.older, line :: r.newer, r.size + 1, by simp [r.size_eq]; omega⟩

theorem toList_add (line : Text) (r : Records) : (r.add line).toList = r.toList ++ [line] := by
  simp [add, toList]

/-- Drops the oldest line. -/
def dropOldest (r : Records) : Records :=
  match r with
  | ⟨_ :: older, newer, size, h⟩ => ⟨older, newer, size - 1, by simp [h, Nat.add_right_comm]⟩
  | ⟨[], newer, size, h⟩ => ⟨newer.reverse.tail, [], size - 1, by simp [h]⟩

theorem toList_dropOldest (r : Records) : r.dropOldest.toList = r.toList.tail := by
  obtain ⟨older, newer, size, h⟩ := r
  cases older <;> simp [dropOldest, toList]

/-- Drops the oldest lines. -/
def dropOld : Nat → Records → Records
  | 0, r => r
  | n + 1, r => dropOld n r.dropOldest

theorem toList_dropOld (n : Nat) (r : Records) : (r.dropOld n).toList = r.toList.drop n := by
  induction n generalizing r with
  | zero => rfl
  | succ n ih => simp [dropOld, ih, toList_dropOldest]

/-- The number of lines that are too many, when at most `keep` are kept. -/
def surplus (keep : Int) (r : Records) : Nat := min ((r.size : Int) - keep).toNat r.size

/-- Adds a line and drops the surplus ones. -/
def push (keep : Int) (line : Text) (r : Records) : Records :=
  let r := r.add line
  r.dropOld (r.surplus keep)

/-- A new line comes last, and of all lines the last ones are kept. -/
theorem toList_push (keep : Int) (line : Text) (r : Records) :
    (r.push keep line).toList =
      (r.toList ++ [line]).drop ((r.toList ++ [line]).length - keep.toNat) := by
  have h := length_toList (r.add line)
  rw [toList_add] at h
  simp only [push, toList_dropOld, toList_add, h, surplus]
  by_cases hk : 0 ≤ keep
  · congr 1
    omega
  · rw [List.drop_eq_nil_of_le (by omega), List.drop_eq_nil_of_le (by omega)]

end Records

end Treewalk
