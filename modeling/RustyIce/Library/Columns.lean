import Mathlib.Data.List.Basic
import Mathlib.Tactic.Common

/-
  Interleaved values and their columns: every n-th value of
  a list from each of the first n on.

  Main declarations:
    * `everyNth`, `columns`, `appendColumns`
    * `everyNth_append`, `columns_append`
    * `length_everyNth`
    * `appendColumns_take_drop`
-/

------------------------------------------------------------
-- One Column
------------------------------------------------------------

namespace Library

variable {α : Type}

/- Skip some values, then take one of every `n`. -/
def everyNth (n : Nat) : Nat → List α → List α
| _, [] => []
| 0, a :: rest => a :: everyNth n (n - 1) rest
| k + 1, _ :: rest => everyNth n k rest

theorem everyNth_nil (n k : Nat) :
    everyNth n k ([] : List α) = [] := by
  cases k <;> rfl

/- Values that are skipped do not matter. -/
theorem everyNth_skip
    (n : Nat)
    {k : Nat}
    {skipped : List α}
    (hSkip : skipped.length ≤ k)
    (rest : List α) :
    everyNth n k (skipped ++ rest) =
      everyNth n (k - skipped.length) rest := by
  induction skipped generalizing k with
  | nil => rfl
  | cons a skipped ih =>
      cases k with
      | zero => exact absurd hSkip (by simp)
      | succ k =>
          rw [List.cons_append, everyNth,
            ih (Nat.le_of_succ_le_succ hSkip)]
          simp

/- One row gives one value, and the next row begins anew. -/
theorem everyNth_row
    {n k : Nat}
    (hColumn : k < n)
    {row : List α}
    (hRow : row.length = n)
    (rest : List α) :
    everyNth n k (row ++ rest) =
      row.get ⟨k, hRow ▸ hColumn⟩ :: everyNth n k rest := by
  have hInside : k < row.length := hRow ▸ hColumn
  have hSplit :
      row =
        row.take k ++ row.get ⟨k, hInside⟩ ::
          row.drop (k + 1) := by
    simp
  have hBefore : (row.take k).length = k := by
    simp [Nat.le_of_lt hInside]
  have hAfter : (row.drop (k + 1)).length = n - 1 - k := by
    simp [hRow]
    omega
  conv_lhs => rw [hSplit]
  rw [List.append_assoc, everyNth_skip n (by omega), hBefore,
    Nat.sub_self, List.cons_append, everyNth,
    everyNth_skip n (by omega), hAfter]
  congr 2
  omega

/- What holds of whole rows is shown row by row. -/
theorem rows_induction
    {n : Nat}
    {motive : List α → Prop}
    (hNil : motive [])
    (hRow :
      ∀ row rest,
        row.length = n → motive rest → motive (row ++ rest))
    {xs : List α}
    (hWhole : n ∣ xs.length) :
    motive xs := by
  obtain ⟨count, hCount⟩ := hWhole
  induction count generalizing xs with
  | zero =>
      have hNone : xs = [] :=
        List.eq_nil_of_length_eq_zero (by simpa using hCount)
      rw [hNone]
      exact hNil
  | succ count ih =>
      rw [Nat.mul_succ] at hCount
      rw [← List.take_append_drop n xs]
      apply hRow
      · rw [List.length_take]
        omega
      · apply ih
        rw [List.length_drop]
        omega

/- A column of whole rows and what follows them. -/
theorem everyNth_append
    {n k : Nat}
    (hColumn : k < n)
    {xs : List α}
    (hWhole : n ∣ xs.length)
    (ys : List α) :
    everyNth n k (xs ++ ys) =
      everyNth n k xs ++ everyNth n k ys := by
  refine
    rows_induction
      (motive := fun xs =>
        everyNth n k (xs ++ ys) =
          everyNth n k xs ++ everyNth n k ys)
      ?_ ?_ hWhole
  · rw [everyNth_nil]
    rfl
  · intro row rest hRow ih
    rw [List.append_assoc, everyNth_row hColumn hRow, ih,
      everyNth_row hColumn hRow]
    rfl

/- Each column of whole rows has one value a row. -/
theorem length_everyNth
    {n k : Nat}
    (hColumn : k < n)
    {xs : List α}
    {count : Nat}
    (hCount : xs.length = n * count) :
    (everyNth n k xs).length = count := by
  have hRows : xs.length = n * (everyNth n k xs).length := by
    refine
      rows_induction
        (motive := fun xs =>
          xs.length = n * (everyNth n k xs).length)
        ?_ ?_ ⟨count, hCount⟩
    · rw [everyNth_nil]
      rfl
    · intro row rest hRow ih
      rw [everyNth_row hColumn hRow, List.length_cons,
        Nat.mul_succ, List.length_append, ← ih, hRow,
        Nat.add_comm]
  exact
    Nat.eq_of_mul_eq_mul_left (Nat.zero_lt_of_lt hColumn)
      (hRows.symm.trans hCount)

end Library

------------------------------------------------------------
-- All Columns
------------------------------------------------------------

namespace Library

variable {α : Type}

def columns (n : Nat) (xs : List α) : List (List α) :=
  (List.range n).map fun k => everyNth n k xs

/- Column by column, one after the other. -/
def appendColumns
    (a b : List (List α)) : List (List α) :=
  List.zipWith (· ++ ·) a b

@[simp] theorem length_columns
    (n : Nat)
    (xs : List α) :
    (columns n xs).length = n := by
  simp [columns]

@[simp] theorem length_appendColumns
    (a b : List (List α)) :
    (appendColumns a b).length = min a.length b.length := by
  simp [appendColumns]

theorem exists_mem_columns
    {n : Nat}
    (hPos : 0 < n)
    (xs : List α) :
    ∃ col, col ∈ columns n xs := by
  apply List.exists_mem_of_length_pos
  rw [length_columns]
  exact hPos

theorem columns_nil (n : Nat) :
    columns n ([] : List α) = List.replicate n [] := by
  simp [columns, everyNth_nil, List.map_const']

theorem columns_append
    {n : Nat}
    {xs : List α}
    (hWhole : n ∣ xs.length)
    (ys : List α) :
    columns n (xs ++ ys) =
      appendColumns (columns n xs) (columns n ys) := by
  unfold columns appendColumns
  rw [List.zipWith_map, List.zipWith_self]
  apply List.map_congr_left
  intro k hMem
  exact everyNth_append (List.mem_range.mp hMem) hWhole ys

theorem appendColumns_assoc
    (a b c : List (List α)) :
    appendColumns (appendColumns a b) c =
      appendColumns a (appendColumns b c) := by
  unfold appendColumns
  induction a generalizing b c with
  | nil => simp
  | cons x a ih =>
      cases b with
      | nil => simp
      | cons y b =>
          cases c with
          | nil => simp
          | cons z c =>
              simp only [List.zipWith_cons_cons,
                List.append_assoc, ih]

/- Columns cut at one place are whole again. -/
theorem appendColumns_take_drop
    (n : Nat)
    (cols : List (List α)) :
    appendColumns (cols.map (·.take n))
        (cols.map (·.drop n)) =
      cols := by
  simp [appendColumns, List.zipWith_map]

theorem appendColumns_replicate_nil
    {n : Nat}
    {cols : List (List α)}
    (hLength : cols.length = n) :
    appendColumns cols (List.replicate n []) = cols ∧
      appendColumns (List.replicate n []) cols = cols := by
  subst hLength
  unfold appendColumns
  induction cols with
  | nil => exact ⟨rfl, rfl⟩
  | cons x cols ih =>
      simp only [List.length_cons, List.replicate_succ,
        List.zipWith_cons_cons, List.append_nil,
        List.nil_append, ih]
      exact ⟨trivial, trivial⟩

theorem length_of_mem_columns
    {n : Nat}
    {xs : List α}
    {count : Nat}
    (hCount : xs.length = n * count)
    {col : List α}
    (hMem : col ∈ columns n xs) :
    col.length = count := by
  rcases List.mem_map.mp hMem with ⟨k, hColumn, rfl⟩
  exact length_everyNth (List.mem_range.mp hColumn) hCount

theorem length_of_mem_appendColumns
    {a b : List (List α)}
    {m n : Nat}
    (hFirst : ∀ col ∈ a, col.length = m)
    (hSecond : ∀ col ∈ b, col.length = n)
    {col : List α}
    (hMem : col ∈ appendColumns a b) :
    col.length = m + n := by
  unfold appendColumns at hMem
  rw [← List.map_uncurry_zip_eq_zipWith] at hMem
  rcases List.mem_map.mp hMem with ⟨⟨x, y⟩, hPair, rfl⟩
  rcases List.of_mem_zip hPair with ⟨hX, hY⟩
  simp [hFirst x hX, hSecond y hY]

/- Appending to each column what belongs to it. -/
theorem mapIdx_append_everyNth
    {n : Nat}
    {cols : List (List α)}
    (hLength : cols.length = n)
    (xs : List α) :
    (cols.mapIdx fun k col => col ++ everyNth n k xs) =
      appendColumns cols (columns n xs) := by
  apply List.ext_getElem?
  intro i
  simp only [List.getElem?_mapIdx, appendColumns, columns,
    List.getElem?_zipWith, List.getElem?_map]
  by_cases hInside : i < n
  · have hThere : i < cols.length := hLength ▸ hInside
    rw [List.getElem?_range hInside,
      List.getElem?_eq_getElem hThere]
    rfl
  · have hOutside : cols.length ≤ i := by omega
    rw [List.getElem?_eq_none hOutside]
    rfl

end Library
