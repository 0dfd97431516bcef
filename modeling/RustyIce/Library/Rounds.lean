import Mathlib.Algebra.Order.Ring.Nat
import Mathlib.Data.List.Nodup
import Mathlib.Data.List.Perm.Subperm

/-
  Logs made of rounds, each of which takes the same values
  in an order of its own: how often a value has come by any
  point of the log, and how long it can stay away.

  Main declarations:
    * `Evenly`, `evenly_rounds`
    * `Evenly.count_le`, `Evenly.mem_piece`
-/

namespace Library

variable {α : Type}
variable [BEq α]

/-
  At every point of the log each value has come as often as
  whole rounds fit in front of it, or as often as they would
  if the last one counted as whole.
-/
structure Evenly (values log : List α) : Prop where
  most :
    ∀ seen, seen <+: log →
      ∀ a ∈ values,
        values.length * seen.count a <
          seen.length + values.length
  least :
    ∀ seen, seen <+: log →
      ∀ a ∈ values,
        seen.length < values.length * (seen.count a + 1)

variable [LawfulBEq α]
variable {values log : List α}

/- One round, not yet at its end or just there. -/
theorem evenly_part
    (hNodup : values.Nodup)
    {part : List α}
    (hPart : part.Subperm values) :
    Evenly values part := by
  have hCount
      (seen : List α)
      (hSeen : seen <+: part)
      (a : α)
      (hMem : a ∈ values) :
      seen.count a = 1 ∧ 0 < seen.length ∧
          seen.length ≤ values.length ∨
        seen.count a = 0 ∧ seen.length < values.length := by
    have hThere : seen.Subperm values :=
      hSeen.sublist.subperm.trans hPart
    by_cases hCame : a ∈ seen
    · have hMost := hThere.count_le a
      rw [List.count_eq_one_of_mem hNodup hMem] at hMost
      have hLeast := List.count_pos_iff.mpr hCame
      exact
        .inl
          ⟨by omega, List.length_pos_of_mem hCame,
            hThere.length_le⟩
    · have hMore : (a :: seen).Subperm values :=
        List.cons_subperm_of_not_mem_of_mem hCame hMem hThere
      exact
        .inr
          ⟨List.count_eq_zero.mpr hCame, hMore.length_le⟩
  constructor
  · intro seen hSeen a hMem
    rcases hCount seen hSeen a hMem with
      ⟨hOne, hSome, -⟩ | ⟨hZero, hLess⟩
    · rw [hOne, Nat.mul_one]
      omega
    · rw [hZero, Nat.mul_zero]
      omega
  · intro seen hSeen a hMem
    rcases hCount seen hSeen a hMem with
      ⟨hOne, hSome, hLess⟩ | ⟨hZero, hLess⟩
    · rw [hOne]
      omega
    · rw [hZero, Nat.zero_add, Nat.mul_one]
      exact hLess

/- A whole round in front moves every bound by one. -/
theorem Evenly.after_round
    (hNodup : values.Nodup)
    {round : List α}
    (hRound : round.Perm values)
    (hLog : Evenly values log) :
    Evenly values (round ++ log) := by
  have hFirst := evenly_part hNodup hRound.subperm
  have hCount (a : α) (hMem : a ∈ values) :
      round.count a = 1 := by
    rw [hRound.count_eq]
    exact List.count_eq_one_of_mem hNodup hMem
  have hSplit
      (seen : List α)
      (hSeen : seen <+: round ++ log) :
      seen <+: round ∨
        ∃ rest, rest <+: log ∧ seen = round ++ rest := by
    rcases List.prefix_or_prefix_of_prefix hSeen
        (List.prefix_append round log) with hIn | ⟨rest, rfl⟩
    · exact .inl hIn
    · exact
        .inr
          ⟨rest, (List.prefix_append_right_inj round).mp hSeen,
            rfl⟩
  constructor
  · intro seen hSeen a hMem
    rcases hSplit seen hSeen with hIn | ⟨rest, hRest, rfl⟩
    · exact hFirst.most seen hIn a hMem
    · have hMost := hLog.most rest hRest a hMem
      rw [List.count_append, hCount a hMem,
        List.length_append, hRound.length_eq, Nat.mul_add,
        Nat.mul_one]
      omega
  · intro seen hSeen a hMem
    rcases hSplit seen hSeen with hIn | ⟨rest, hRest, rfl⟩
    · exact hFirst.least seen hIn a hMem
    · have hLeast := hLog.least rest hRest a hMem
      rw [List.count_append, hCount a hMem,
        List.length_append, hRound.length_eq, Nat.add_assoc,
        Nat.mul_add, Nat.mul_one]
      omega

/-
  Rounds before the last that are whole or empty, and the
  last as far as it has come.
-/
theorem evenly_rounds
    (hNodup : values.Nodup)
    {rounds : List (List α)}
    {last : List α}
    (hRounds :
      ∀ round ∈ rounds, round = [] ∨ round.Perm values)
    (hLast : last.Subperm values) :
    Evenly values (rounds.flatten ++ last) := by
  induction rounds with
  | nil => exact evenly_part hNodup hLast
  | cons round rounds ih =>
      rw [List.forall_mem_cons] at hRounds
      have hOthers := ih hRounds.2
      rw [List.flatten_cons, List.append_assoc]
      rcases hRounds.1 with hEmpty | hWhole
      · rw [hEmpty]
        exact hOthers
      · exact hOthers.after_round hNodup hWhole

namespace Evenly

/- No value has come two times more often than another. -/
omit [LawfulBEq α] in
theorem count_le
    (hEvenly : Evenly values log)
    {a b : α}
    (hA : a ∈ values)
    (hB : b ∈ values) :
    log.count a ≤ log.count b + 1 := by
  have hMost := hEvenly.most log List.prefix_rfl a hA
  have hLeast := hEvenly.least log List.prefix_rfl b hB
  have hBoth :
      values.length * log.count a <
        values.length * (log.count b + 2) := by
    rw [Nat.mul_add] at hLeast ⊢
    omega
  exact
    Nat.le_of_lt_succ (Nat.lt_of_mul_lt_mul_left hBoth)

/-
  Of any `2 * n - 1` in a row, each of the `n` values is
  one: the bounds before the piece and behind it are too far
  apart for the same number.
-/
theorem mem_piece
    (hEvenly : Evenly values log)
    {before piece after : List α}
    (hLog : log = before ++ piece ++ after)
    (hLong : 2 * values.length ≤ piece.length + 1)
    {a : α}
    (hMem : a ∈ values) :
    a ∈ piece := by
  by_contra hAway
  have hBehind : before ++ piece <+: log :=
    ⟨after, hLog.symm⟩
  have hFront : before <+: log :=
    (List.prefix_append before piece).trans hBehind
  have hMost := hEvenly.most before hFront a hMem
  have hLeast := hEvenly.least _ hBehind a hMem
  rw [List.count_append, List.count_eq_zero.mpr hAway,
    Nat.add_zero, List.length_append, Nat.mul_add,
    Nat.mul_one] at hLeast
  omega

end Evenly

end Library
