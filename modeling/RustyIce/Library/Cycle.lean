import Mathlib.Data.List.Nodup

/-
  Lists that run through a cycle of values round and round,
  and when a list made of rounds of the cycle does so.

  Main declarations:
    * `Cycles`
    * `cycles_append_cycle`, `not_cycles_of_cut`
    * `cycles_rounds_iff`
-/

namespace Library

variable {α : Type}

/- The log is an initial part of the cycle repeated. -/
def Cycles (cycle log : List α) : Prop :=
  ∀ i, i < log.length →
    log[i]? = cycle[i % cycle.length]?

variable {cycle log : List α}

theorem cycles_nil (cycle : List α) : Cycles cycle [] := by
  intro i hLess
  cases hLess

/- A part of one round. -/
theorem cycles_of_initial (hPrefix : log <+: cycle) :
    Cycles cycle log := by
  intro i hLess
  have hInside : i < cycle.length :=
    Nat.lt_of_lt_of_le hLess hPrefix.length_le
  rcases hPrefix with ⟨rest, rfl⟩
  rw [Nat.mod_eq_of_lt hInside,
    List.getElem?_append_left hLess]

/- Whole rounds before it do not matter. -/
theorem cycles_append_cycle :
    Cycles cycle (cycle ++ log) ↔ Cycles cycle log := by
  have hShift :
      ∀ i, (cycle ++ log)[cycle.length + i]? = log[i]? := by
    intro i
    rw [List.getElem?_append_right (Nat.le_add_right _ _),
      Nat.add_sub_cancel_left]
  constructor
  · intro hAll i hLess
    have hHere := hAll (cycle.length + i) (by simp [hLess])
    rwa [hShift, Nat.add_mod_left] at hHere
  · intro hLater i hLess
    rcases Nat.lt_or_ge i cycle.length with hFirst | hAfter
    · rw [List.getElem?_append_left hFirst,
        Nat.mod_eq_of_lt hFirst]
    · obtain ⟨j, rfl⟩ := Nat.exists_eq_add_of_le hAfter
      rw [hShift, Nat.add_mod_left]
      rw [List.length_append] at hLess
      exact hLater j (by omega)

/- A round that is cut short is not followed by the first. -/
theorem not_cycles_of_cut
    (hNodup : cycle.Nodup)
    {cut : List α}
    (hSome : cut ≠ [])
    (hCut : cut <+: cycle)
    (hPart : cut ≠ cycle)
    (hLog : log ≠ [])
    (hFirst : log.head? = cycle.head?) :
    ¬ Cycles cycle (cut ++ log) := by
  intro hAll
  have hShort : cut.length < cycle.length := by
    rcases Nat.lt_or_eq_of_le hCut.length_le with
      hLess | hSame
    · exact hLess
    · exact absurd (hCut.eq_of_length hSame) hPart
  have hBefore : 0 < cut.length :=
    List.length_pos_iff.mpr hSome
  have hHere := hAll cut.length
    (by simp [List.length_pos_iff, hLog])
  rw [List.getElem?_append_right (Nat.le_refl _),
    Nat.sub_self, Nat.mod_eq_of_lt hShort,
    ← List.head?_eq_getElem?, hFirst,
    List.head?_eq_getElem?] at hHere
  have hSame :=
    (List.getElem?_inj (by omega) hNodup).mp hHere
  omega

/- The first value of a log of rounds. -/
theorem head?_rounds
    {rounds : List (List α)}
    {last : List α}
    (hRounds : ∀ round ∈ rounds, round <+: cycle)
    (hLast : last <+: cycle)
    (hSome : last ≠ []) :
    (rounds.flatten ++ last).head? = cycle.head? := by
  have hHead :
      ∀ round, round <+: cycle → round ≠ [] →
        round.head? = cycle.head? := by
    rintro round ⟨rest, rfl⟩ hThere
    rw [List.head?_append_of_ne_nil _ hThere]
  induction rounds with
  | nil => exact hHead last hLast hSome
  | cons round rounds ih =>
      rcases eq_or_ne round [] with rfl | hThere
      · simpa using
          ih fun other hMem =>
            hRounds other (List.mem_cons_of_mem _ hMem)
      · rw [List.flatten_cons, List.append_assoc,
          List.head?_append_of_ne_nil _ hThere]
        exact
          hHead round (hRounds round List.mem_cons_self)
            hThere

/-
  Rounds, each broken off somewhere, run through the cycle
  exactly if all before the last are whole or empty.
-/
theorem cycles_rounds_iff
    (hNodup : cycle.Nodup)
    {rounds : List (List α)}
    {last : List α}
    (hRounds : ∀ round ∈ rounds, round <+: cycle)
    (hLast : last <+: cycle)
    (hSome : last ≠ []) :
    Cycles cycle (rounds.flatten ++ last) ↔
      ∀ round ∈ rounds, round = [] ∨ round = cycle := by
  induction rounds with
  | nil =>
      exact
        iff_of_true (cycles_of_initial hLast)
          (List.forall_mem_nil _)
  | cons round rounds ih =>
      have hFirst := hRounds round List.mem_cons_self
      have hOthers :
          ∀ other ∈ rounds, other <+: cycle :=
        fun other hMem =>
          hRounds other (List.mem_cons_of_mem _ hMem)
      rw [List.flatten_cons, List.append_assoc,
        List.forall_mem_cons]
      by_cases hEmpty : round = []
      · rw [hEmpty, List.nil_append, ih hOthers]
        simp
      · by_cases hWhole : round = cycle
        · rw [hWhole, cycles_append_cycle, ih hOthers]
          simp
        · refine iff_of_false ?_ fun hBoth => ?_
          · exact
              not_cycles_of_cut hNodup hEmpty hFirst hWhole
                (List.append_ne_nil_of_right_ne_nil _ hSome)
                (head?_rounds hOthers hLast hSome)
          · exact hBoth.1.elim hEmpty hWhole

end Library
