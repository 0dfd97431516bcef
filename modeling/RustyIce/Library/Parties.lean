import Mathlib.Algebra.Order.Ring.Nat
import Mathlib.Data.List.Basic

/-
  A list of parties, one of which changes at a time: who is
  in the list then, and how many of them count.

  Main declarations:
    * `countP_beside`, `countP_set_uncounted`
    * `sum_beside`
    * `eq_of_countP_le_one`
    * `mem_set_cases`, `getElem?_set_cases`
-/

------------------------------------------------------------
-- One Party Changes
------------------------------------------------------------

namespace Library

/-
  A party counts beside the others of its list, whatever it
  changes to.
-/
theorem countP_beside {Party : Type}
    (counts : Party → Bool)
    {parties : List Party}
    {i : Nat}
    {party : Party}
    (hSome : parties[i]? = some party) :
    ∃ others,
      parties.countP counts =
          (counts party).toNat + others ∧
        ∀ next,
          (parties.set i next).countP counts =
            (counts next).toNat + others := by
  rcases List.getElem?_eq_some_iff.mp hSome with
    ⟨hIndex, hGet⟩
  have hPart :
      (counts party).toNat ≤ parties.countP counts := by
    rcases hParty : counts party with _ | _
    · exact Nat.zero_le _
    · exact List.countP_pos_iff.mpr
        ⟨party, List.mem_of_getElem? hSome, hParty⟩
  have hOne :
      ∀ b : Bool, (if b = true then 1 else 0) = b.toNat := by
    decide
  refine
    ⟨parties.countP counts - (counts party).toNat,
      by omega, ?_⟩
  intro next
  rw [List.countP_set hIndex, hGet, hOne, hOne]
  omega

/-
  A party adds to a sum beside the others of its list,
  whatever it changes to.
-/
theorem sum_beside {Party : Type}
    (amount : Party → Nat)
    {parties : List Party}
    {i : Nat}
    {party : Party}
    (hSome : parties[i]? = some party) :
    ∃ others,
      (parties.map amount).sum = amount party + others ∧
        ∀ next,
          ((parties.set i next).map amount).sum =
            amount next + others := by
  induction parties generalizing i with
  | nil => cases hSome
  | cons first rest ih =>
      rcases i with _ | i
      · cases hSome
        exact ⟨(rest.map amount).sum, rfl, fun _ => rfl⟩
      · rw [List.getElem?_cons_succ] at hSome
        rcases ih hSome with ⟨others, hBefore, hAfter⟩
        refine ⟨amount first + others, ?_, ?_⟩
        · rw [List.map_cons, List.sum_cons, hBefore]
          omega
        · intro next
          rw [List.set_cons_succ, List.map_cons,
            List.sum_cons, hAfter]
          omega

/- Two parties that are counted, but once, are one. -/
theorem eq_of_countP_le_one {Party : Type}
    {counts : Party → Bool}
    {parties : List Party}
    (hCount : parties.countP counts ≤ 1)
    {i j : Nat}
    {party other : Party}
    (hSome : parties[i]? = some party)
    (hOther : parties[j]? = some other)
    (hParty : counts party = true)
    (hToo : counts other = true) :
    i = j := by
  induction parties generalizing i j with
  | nil => simp at hSome
  | cons first rest ih =>
      have hLater :
          ∀ (k : Nat) (later : Party),
            rest[k]? = some later →
              counts later = true →
                0 < rest.countP counts :=
        fun k later hGet hLater =>
          List.countP_pos_iff.mpr
            ⟨later, List.mem_of_getElem? hGet, hLater⟩
      rw [List.countP_cons] at hCount
      rcases i with _ | i <;> rcases j with _ | j
      · rfl
      · cases hSome
        rw [if_pos hParty] at hCount
        have hPos := hLater j other hOther hToo
        omega
      · cases hOther
        rw [if_pos hToo] at hCount
        have hPos := hLater i party hSome hParty
        omega
      · rw [ih (by omega) hSome hOther]

/- Who is in a list after one place of it was set. -/
theorem mem_set_cases {Party : Type}
    {parties : List Party}
    {i : Nat}
    {next party : Party}
    (hMem : party ∈ parties.set i next) :
    party = next ∨
      ∃ j, j ≠ i ∧ parties[j]? = some party := by
  obtain ⟨j, hGet⟩ := List.mem_iff_getElem?.mp hMem
  by_cases hPlace : j = i
  · left
    rw [hPlace, List.getElem?_set_self'] at hGet
    obtain ⟨_, -, rfl⟩ := Option.map_eq_some_iff.mp hGet
    rfl
  · right
    rw [List.getElem?_set_ne (Ne.symm hPlace)] at hGet
    exact ⟨j, hPlace, hGet⟩

/- Who is at a place after one place of the list was set. -/
theorem getElem?_set_cases {Party : Type}
    {parties : List Party}
    {i j : Nat}
    {next party : Party}
    (hSome : (parties.set i next)[j]? = some party) :
    j = i ∧ party = next ∨ j ≠ i ∧ parties[j]? = some party := by
  by_cases hSame : j = i
  · rw [hSame, List.getElem?_set_self'] at hSome
    rcases Option.map_eq_some_iff.mp hSome with ⟨_, -, rfl⟩
    exact .inl ⟨hSame, rfl⟩
  · rw [List.getElem?_set_ne (Ne.symm hSame)] at hSome
    exact .inr ⟨hSame, hSome⟩

/- Parties that do not count may come and go. -/
theorem countP_set_uncounted {Party : Type}
    {counts : Party → Bool}
    {parties : List Party}
    {i : Nat}
    {party next : Party}
    (hSome : parties[i]? = some party)
    (hParty : counts party = false)
    (hNext : counts next = false) :
    (parties.set i next).countP counts =
      parties.countP counts := by
  obtain ⟨others, hBefore, hAfter⟩ :=
    countP_beside counts hSome
  rw [hAfter, hBefore, hParty, hNext]

end Library
