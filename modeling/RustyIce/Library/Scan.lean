import Mathlib.Algebra.Order.BigOperators.Group.List
import Mathlib.Algebra.Order.Ring.Nat
import Mathlib.Data.List.Forall2

/-
  A scan that reads counters one after the other while they
  grow, and adds up what it reads up to a limit.

  What it comes to lies between what the counters added up to
  when it began and what they add up to when it ends.

  Main declarations:
    * `Grown`
    * `Scan`, `Scan.next`
    * `Scan.Between` and `Scan.Between.whole`
-/

------------------------------------------------------------
-- Counters That Grow
------------------------------------------------------------

namespace Library

/- The same counters, none of them lower. -/
abbrev Grown (before after : List Nat) : Prop :=
  List.Forall₂ (· ≤ ·) before after

theorem Grown.refl (counters : List Nat) :
    Grown counters counters :=
  List.forall₂_same.mpr fun _ _ => Nat.le_refl _

theorem Grown.trans
    {first second third : List Nat}
    (hFirst : Grown first second)
    (hSecond : Grown second third) :
    Grown first third := by
  induction hFirst generalizing third with
  | nil => exact hSecond
  | cons hHead _ ih =>
      cases hSecond with
      | cons hNext hRest =>
          exact .cons (Nat.le_trans hHead hNext) (ih hRest)

theorem Grown.sum_take_le
    {before after : List Nat}
    (hGrown : Grown before after)
    (count : Nat) :
    (before.take count).sum ≤ (after.take count).sum :=
  (List.forall₂_take count hGrown).sum_le_sum

/- Counters told from parties that each only count up. -/
theorem sum_map_le
    {Party : Type}
    (value : Party → Nat)
    {before after : List Party}
    (hParties :
      ∀ (i : Nat) (party : Party),
        before[i]? = some party →
          ∃ next,
            after[i]? = some next ∧
              value party ≤ value next) :
    (before.map value).sum ≤ (after.map value).sum := by
  induction before generalizing after with
  | nil => exact Nat.zero_le _
  | cons party before ih =>
      rcases hParties 0 party rfl with ⟨next, hNext, hLess⟩
      cases after with
      | nil => cases hNext
      | cons other after =>
          cases hNext
          rw [List.map_cons, List.sum_cons, List.map_cons,
            List.sum_cons]
          apply Nat.add_le_add hLess
          apply ih
          intro i found hFound
          exact hParties (i + 1) found hFound

end Library

------------------------------------------------------------
-- The Scan
------------------------------------------------------------

namespace Library

/- How many counters were read and what they came to. -/
structure Scan where
  read : Nat
  total : Nat
deriving DecidableEq, Repr

namespace Scan

def start : Scan where
  read := 0
  total := 0

/- The next counter is added, up to the limit. -/
def next
    (limit : Nat)
    (scan : Scan)
    (value : Nat) : Scan where
  read := scan.read + 1
  total := min limit (scan.total + value)

/- The counters were `began`, and are `now`. -/
structure Between
    (limit : Nat)
    (began now : List Nat)
    (scan : Scan) : Prop where
  grown : Grown began now
  above :
    min limit (began.take scan.read).sum ≤ scan.total
  below : scan.total ≤ min limit (now.take scan.read).sum

variable {limit : Nat}
variable {began now later : List Nat}
variable {scan : Scan}

theorem between_start (now : List Nat) :
    Scan.start.Between limit now now where
  grown := .refl now
  above := Nat.min_le_right _ _
  below := Nat.zero_le _

/- The counters grow. -/
theorem Between.grow
    (hBetween : scan.Between limit began now)
    (hGrown : Grown now later) :
    scan.Between limit began later where
  grown := hBetween.grown.trans hGrown
  above := hBetween.above
  below := by
    have hMore := hGrown.sum_take_le scan.read
    have hBelow := hBetween.below
    omega

/- The scan reads one. -/
theorem Between.next
    {value : Nat}
    (hBetween : scan.Between limit began now)
    (hValue : now[scan.read]? = some value) :
    (scan.next limit value).Between limit began now where
  grown := hBetween.grown
  above := by
    have hLess := (List.getElem?_eq_some_iff.mp hValue).1
    have hThere : scan.read < began.length := by
      rw [hBetween.grown.length_eq]
      exact hLess
    have hAbove := hBetween.above
    have hOld :
        began[scan.read]? = some began[scan.read] :=
      List.getElem?_eq_getElem hThere
    have hHere : began[scan.read] ≤ value := by
      have hPair :=
        List.Forall₂.get hBetween.grown hThere hLess
      rw [List.getElem?_eq_getElem hLess] at hValue
      cases hValue
      exact hPair
    simp only [Scan.next]
    rw [List.take_add_one, hOld, Option.toList_some,
      List.sum_append, List.sum_singleton]
    omega
  below := by
    have hBelow := hBetween.below
    simp only [Scan.next]
    rw [List.take_add_one, hValue, Option.toList_some,
      List.sum_append, List.sum_singleton]
    omega

/- A scan that has read all of them. -/
theorem Between.whole
    (hBetween : scan.Between limit began now)
    (hAll : now.length ≤ scan.read) :
    min limit began.sum ≤ scan.total ∧
      scan.total ≤ min limit now.sum := by
  have hAbove := hBetween.above
  have hBelow := hBetween.below
  rw [List.take_of_length_le hAll] at hBelow
  rw [← hBetween.grown.length_eq] at hAll
  rw [List.take_of_length_le hAll] at hAbove
  exact ⟨hAbove, hBelow⟩

end Scan

end Library
