import Mathlib.Data.List.Chain

/-
  Logs in which a mark never stands next to another: what
  each stretch of a log from mark to mark has to hold.

  Main declarations:
    * `Spaced`
    * `spaced_of_notMem`
    * `spaced_lap_iff`
-/

namespace Library

variable {α : Type}

/- No mark is followed by a mark at once. -/
def Spaced (mark : α) (log : List α) : Prop :=
  log.IsChain fun a b => a = mark → b ≠ mark

instance [DecidableEq α] (mark : α) (log : List α) :
    Decidable (Spaced mark log) :=
  inferInstanceAs
    (Decidable (log.IsChain fun a b => a = mark → b ≠ mark))

variable {mark : α}
variable {before after rest : List α}

theorem spaced_of_notMem (hFree : mark ∉ rest) :
    Spaced mark rest := by
  unfold Spaced
  rw [List.isChain_iff_forall_rel_of_append_cons_cons]
  intro a b front back hSplit _ hMark
  apply hFree
  rw [hSplit, ← hMark]
  simp

/- A stretch without marks may be put in front. -/
theorem spaced_append_iff (hFree : mark ∉ before) :
    Spaced mark (before ++ rest) ↔ Spaced mark rest := by
  have hBefore := spaced_of_notMem hFree
  unfold Spaced at hBefore ⊢
  rw [List.isChain_append]
  constructor
  · rintro ⟨_, hRest, _⟩
    exact hRest
  · intro hRest
    refine ⟨hBefore, hRest, ?_⟩
    intro a hLast _ _ hMark
    apply absurd (List.mem_of_getLast? hLast)
    rw [hMark]
    exact hFree

/-
  A mark and the stretch behind it: only where that stretch
  is empty does it matter what follows.
-/
theorem spaced_lap_iff
    (hBefore : mark ∉ before)
    (hAfter : mark ∉ after) :
    Spaced mark (before ++ mark :: (after ++ rest)) ↔
      (after = [] → rest.head? ≠ some mark) ∧
        Spaced mark rest := by
  rw [spaced_append_iff hBefore, Spaced, List.isChain_cons,
    ← Spaced, spaced_append_iff hAfter]
  apply and_congr_left'
  cases after with
  | nil =>
      simp only [List.nil_append, true_implies]
      constructor
      · intro hNext hHead
        exact hNext mark hHead rfl
      · intro hHead next hNext hMark
        rw [hMark] at hNext
        exact hHead hNext
  | cons first after =>
      refine iff_of_true ?_ (fun hEmpty => by cases hEmpty)
      intro next hNext _
      cases hNext
      rintro rfl
      exact hAfter List.mem_cons_self

end Library
