import Mathlib.Data.List.Infix
import Mathlib.Tactic.Common

/-
  The first occurrence of a pair of symbols in a list, for
  lines that end in such a pair and arrive a symbol at a
  time, and for texts between an opening and such a pair.

  Main declarations:
    * `findPair`
    * `findPair_eq_none_iff`
    * `findPair_complete`, `findPair_incomplete`
    * `extend_of_prefix`
    * `enclosed`, `enclosed_of_free`, `free_of_enclosed`
-/

------------------------------------------------------------
-- Lines That End In A Pair
------------------------------------------------------------

namespace Library

namespace Delimited

variable {Symbol : Type}
variable [DecidableEq Symbol]

/- Where the pair first occurs. -/
def findPair (first second : Symbol) :
    List Symbol → Option Nat
| [] => none
| [_] => none
| a :: b :: rest =>
    if a = first ∧ b = second then
      some 0
    else
      (findPair first second (b :: rest)).map (· + 1)

variable {first second : Symbol}
variable {line : List Symbol}

/- A pair that is found is there. -/
theorem findPair_le
    {data : List Symbol}
    {pos : Nat}
    (hFind : findPair first second data = some pos) :
    pos + 2 ≤ data.length := by
  induction data generalizing pos with
  | nil => cases hFind
  | cons a rest ih =>
      cases rest with
      | nil => cases hFind
      | cons b rest =>
          rw [findPair] at hFind
          split at hFind
          · cases hFind
            simp
          · rcases Option.map_eq_some_iff.mp hFind with
              ⟨before, hBefore, rfl⟩
            have hRest := ih hBefore
            rw [List.length_cons]
            omega

/- A pair is found exactly if it occurs. -/
theorem findPair_eq_none_iff (data : List Symbol) :
    findPair first second data = none ↔
      ¬ [first, second] <:+: data := by
  induction data with
  | nil => simp [findPair]
  | cons a rest ih =>
      rw [List.infix_cons_iff, not_or, ← ih]
      cases rest with
      | nil => simp [findPair]
      | cons b rest =>
          rw [findPair]
          have hHere :
              [first, second] <+: a :: b :: rest ↔
                a = first ∧ b = second := by
            simp [List.cons_prefix_cons, eq_comm]
          rw [hHere]
          by_cases hPair : a = first ∧ b = second
          · simp [hPair]
          · simp [hPair]

/- What is found stays found. -/
theorem findPair_append
    {data : List Symbol}
    {pos : Nat}
    (hFind : findPair first second data = some pos)
    (more : List Symbol) :
    findPair first second (data ++ more) = some pos := by
  induction data generalizing pos with
  | nil => cases hFind
  | cons a rest ih =>
      cases rest with
      | nil => cases hFind
      | cons b rest =>
          rw [findPair] at hFind
          rw [List.cons_append, List.cons_append, findPair]
          split at hFind
          · rename_i hPair
            rw [if_pos hPair, hFind]
          · rename_i hNot
            rcases Option.map_eq_some_iff.mp hFind with
              ⟨before, hBefore, rfl⟩
            have hRest := ih hBefore
            rw [List.cons_append] at hRest
            rw [if_neg hNot, hRest]
            rfl

theorem findPair_append_single
    (hApart : first ≠ second)
    (hFree : findPair first second line = none) :
    findPair first second (line ++ [first]) = none := by
  induction line with
  | nil => rfl
  | cons a rest ih =>
      cases rest with
      | nil =>
          simp only [List.singleton_append, findPair]
          rw [if_neg fun h => hApart h.2]
          rfl
      | cons b rest =>
          rw [findPair] at hFree
          split at hFree
          · cases hFree
          · rename_i hNot
            rw [List.cons_append, List.cons_append, findPair,
              if_neg hNot, Option.map_eq_none_iff]
            exact ih (Option.map_eq_none_iff.mp hFree)

/- A line is found once its end is there. -/
theorem findPair_complete
    (hApart : first ≠ second)
    (hFree : findPair first second line = none) :
    findPair first second (line ++ [first, second]) =
      some line.length := by
  induction line with
  | nil => simp [findPair]
  | cons a rest ih =>
      cases rest with
      | nil =>
          simp only [List.singleton_append, findPair]
          rw [if_neg fun h => hApart h.2]
          simp
      | cons b rest =>
          rw [findPair] at hFree
          split at hFree
          · cases hFree
          · rename_i hNot
            rw [List.cons_append, List.cons_append, findPair,
              if_neg hNot]
            have hRest :=
              ih (Option.map_eq_none_iff.mp hFree)
            rw [List.cons_append] at hRest
            rw [hRest]
            rfl

/- What has no pair has none at its beginning. -/
theorem findPair_of_prefix
    {short long : List Symbol}
    (hPrefix : short <+: long)
    (hNone : findPair first second long = none) :
    findPair first second short = none := by
  induction short generalizing long with
  | nil => rfl
  | cons a rest ih =>
      rcases hPrefix with ⟨more, rfl⟩
      cases rest with
      | nil => rfl
      | cons b rest =>
          rw [List.cons_append, List.cons_append, findPair]
            at hNone
          split at hNone
          · cases hNone
          · rename_i hNot
            rw [findPair, if_neg hNot, Option.map_eq_none_iff]
            apply ih _ (Option.map_eq_none_iff.mp hNone)
            exact ⟨more, rfl⟩

/- Before the last symbol of its end no line is found. -/
theorem findPair_incomplete
    (hApart : first ≠ second)
    (hFree : findPair first second line = none)
    {scratch : List Symbol}
    (hPrefix : scratch <+: line ++ [first, second])
    (hShort : scratch.length < line.length + 2) :
    findPair first second scratch = none := by
  apply findPair_of_prefix _ (findPair_append_single hApart hFree)
  apply List.prefix_of_prefix_length_le hPrefix
  · exact ⟨[second], by simp⟩
  · simp only [List.length_append, List.length_singleton]
    omega

omit [DecidableEq Symbol] in
/- The next symbol of a list that begins with a line. -/
theorem extend_of_prefix
    {scratch more whole tail : List Symbol}
    {next : Symbol}
    (hWhole : scratch ++ next :: more = whole ++ tail)
    (hShort : scratch.length < whole.length) :
    scratch ++ [next] <+: whole := by
  apply
    List.prefix_of_prefix_length_le
      (⟨more, by simpa using hWhole⟩ :
        scratch ++ [next] <+: whole ++ tail)
      (List.prefix_append whole tail)
  simp only [List.length_append, List.length_singleton]
  omega

end Delimited

end Library

------------------------------------------------------------
-- Texts Between An Opening And A Pair
------------------------------------------------------------

namespace Library

namespace Delimited

variable {Symbol : Type}
variable [DecidableEq Symbol]

/- What follows the first occurrence of an opening. -/
def afterFirst (opening : List Symbol) :
    List Symbol → Option (List Symbol)
| [] => none
| a :: rest =>
    if opening <+: a :: rest then
      some ((a :: rest).drop opening.length)
    else
      afterFirst opening rest

/-
  The text between an opening and the next such pair, and
  what follows the pair.
-/
def enclosed
    (opening : List Symbol)
    (first second : Symbol)
    (data : List Symbol) :
    Option (List Symbol × List Symbol) :=
  match afterFirst opening data with
  | none => none
  | some rest =>
      (findPair first second rest).map fun pos =>
        (rest.take pos, rest.drop (pos + 2))

variable {opening : List Symbol}
variable {first second : Symbol}

theorem afterFirst_append
    (hSome : opening ≠ [])
    (rest : List Symbol) :
    afterFirst opening (opening ++ rest) = some rest := by
  obtain ⟨a, more, rfl⟩ := List.exists_cons_of_ne_nil hSome
  have hPrefix : a :: more <+: a :: (more ++ rest) :=
    ⟨rest, rfl⟩
  rw [List.cons_append, afterFirst, if_pos hPrefix,
    ← List.cons_append, List.drop_left]

/- A text without the pair is what is found. -/
theorem enclosed_of_free
    (hSome : opening ≠ [])
    (hApart : first ≠ second)
    {text : List Symbol}
    (hFree : ¬ [first, second] <:+: text)
    (more : List Symbol) :
    enclosed opening first second
        (opening ++ (text ++ first :: second :: more)) =
      some (text, more) := by
  have hFind :
      findPair first second
          (text ++ [first, second] ++ more) =
        some text.length :=
    findPair_append
      (findPair_complete hApart
        ((findPair_eq_none_iff text).mpr hFree))
      more
  rw [List.append_assoc, List.cons_append,
    List.cons_append, List.nil_append] at hFind
  unfold enclosed
  rw [afterFirst_append hSome]
  simp only [hFind, Option.map_some, List.take_left]
  congr 2
  rw [List.drop_append, Nat.add_sub_cancel_left,
    List.drop_of_length_le (Nat.le_add_right _ 2)]
  rfl

/- A text with the pair is cut there. -/
theorem free_of_enclosed
    (hSome : opening ≠ [])
    {text more rest : List Symbol}
    (hEnclosed :
      enclosed opening first second (opening ++ (text ++ more)) =
        some (text, rest)) :
    ¬ [first, second] <:+: text := by
  rw [← findPair_eq_none_iff]
  cases hFind : findPair first second text with
  | none => rfl
  | some pos =>
      unfold enclosed at hEnclosed
      rw [afterFirst_append hSome] at hEnclosed
      simp only [findPair_append hFind, Option.map_some,
        Option.some.injEq, Prod.mk.injEq] at hEnclosed
      have hInside := findPair_le hFind
      have hLength := congrArg List.length hEnclosed.1
      rw [List.length_take, List.length_append] at hLength
      omega

end Delimited

end Library
