import Mathlib.Data.List.Nodup
import Mathlib.Tactic.Common

/-
  Keyed entries: the one found at a key, and loops watched
  at one key, whose steps leave the watched part alone or
  one step of which is about the watched key.

  Main declarations:
    * `find?_key`, `find?_key_eq_none`
    * `foldl_frame`
    * `foldl_at`
    * `foldl_keeps`, `foldl_passes`
-/

------------------------------------------------------------
-- Entries Found At A Key
------------------------------------------------------------

namespace Library

namespace Keyed

variable {Entry Key : Type}
variable [DecidableEq Key]
variable {key : Entry → Key}
variable {entries : List Entry}

/- With distinct keys, the entry of a key is found. -/
theorem find?_key
    (hNodup : (entries.map key).Nodup)
    {entry : Entry}
    (hMem : entry ∈ entries)
    {k : Key}
    (hKey : key entry = k) :
    (entries.find? fun other => key other = k) =
      some entry := by
  cases hFind : entries.find? fun other => key other = k with
  | none =>
      rw [List.find?_eq_none] at hFind
      exact absurd (decide_eq_true hKey) (hFind entry hMem)
  | some found =>
      have hFound : key found = k := by
        simpa using List.find?_some hFind
      have hSame : found = entry :=
        List.inj_on_of_nodup_map hNodup
          (List.mem_of_find?_eq_some hFind) hMem
          (hFound.trans hKey.symm)
      rw [hSame]

theorem find?_key_eq_none
    {k : Key}
    (hNone : k ∉ entries.map key) :
    (entries.find? fun other => key other = k) = none := by
  rw [List.find?_eq_none]
  intro entry hMem hHere
  have hKey : key entry = k := by simpa using hHere
  exact hNone (hKey ▸ List.mem_map_of_mem hMem)

end Keyed

end Library

------------------------------------------------------------
-- Loops Watched At One Key
------------------------------------------------------------

namespace Library

namespace Keyed

variable {State Entry Key View : Type}

/- A loop none of whose steps touches the watched part. -/
theorem foldl_frame
    (view : State → View)
    (step : State → Entry → State)
    (entries : List Entry)
    (hFrame :
      ∀ s, ∀ entry ∈ entries,
        view (step s entry) = view s)
    (s : State) :
    view (entries.foldl step s) = view s := by
  induction entries generalizing s with
  | nil => rfl
  | cons entry entries ih =>
      rw [List.foldl_cons, ih]
      · exact hFrame s entry List.mem_cons_self
      · intro t other hOther
        exact hFrame t other (List.mem_cons_of_mem _ hOther)

/-
  A loop over entries with distinct keys, all of whose steps
  but the one for `target` leave the watched part alone: the
  loop does to that part what this step does.
-/
theorem foldl_at
    (view : State → View)
    (step : State → Entry → State)
    (key : Entry → Key)
    {entries : List Entry}
    {target : Entry}
    (hFrame :
      ∀ s entry, key entry ≠ key target →
        view (step s entry) = view s)
    (hNodup : (entries.map key).Nodup)
    (hTarget : target ∈ entries)
    (s : State) :
    ∃ t,
      view t = view s ∧
        view (entries.foldl step s) =
          view (step t target) := by
  rcases List.append_of_mem hTarget with
    ⟨before, after, rfl⟩
  rw [List.map_append, List.map_cons, List.nodup_append,
    List.nodup_cons] at hNodup
  rcases hNodup with ⟨_, ⟨hAfter, _⟩, hBefore⟩
  refine ⟨before.foldl step s, ?_, ?_⟩
  · apply foldl_frame
    intro t entry hEntry
    apply hFrame
    exact
      hBefore _ (List.mem_map_of_mem hEntry) _
        List.mem_cons_self
  · rw [List.foldl_append, List.foldl_cons]
    apply foldl_frame
    intro t entry hEntry
    apply hFrame
    intro hKey
    apply hAfter
    rw [← hKey]
    exact List.mem_map_of_mem hEntry

end Keyed

end Library

------------------------------------------------------------
-- Invariants Of A Loop
------------------------------------------------------------

namespace Library

namespace Keyed

variable {State Entry Key : Type}

/- What every step of a loop keeps, the loop keeps. -/
theorem foldl_keeps
    {I : State → Prop}
    (step : State → Entry → State)
    {entries : List Entry}
    (hStep :
      ∀ s, ∀ entry ∈ entries, I s → I (step s entry))
    {s : State}
    (hI : I s) :
    I (entries.foldl step s) :=
  List.foldlRecOn entries step hI
    fun t hT entry hEntry => hStep t entry hEntry hT

/-
  A loop over entries with distinct keys, one of which is
  `target`: what holds before its step and what holds after
  it are kept by the other steps.
-/
theorem foldl_passes
    {I J : State → Prop}
    (step : State → Entry → State)
    (key : Entry → Key)
    {entries : List Entry}
    {target : Entry}
    (hBefore :
      ∀ s entry, key entry ≠ key target →
        I s → I (step s entry))
    (hAt : ∀ s, I s → J (step s target))
    (hAfter :
      ∀ s entry, key entry ≠ key target →
        J s → J (step s entry))
    (hNodup : (entries.map key).Nodup)
    (hTarget : target ∈ entries)
    {s : State}
    (hI : I s) :
    J (entries.foldl step s) := by
  rcases List.append_of_mem hTarget with
    ⟨before, after, rfl⟩
  rw [List.map_append, List.map_cons, List.nodup_append,
    List.nodup_cons] at hNodup
  rcases hNodup with ⟨_, ⟨hLater, _⟩, hEarlier⟩
  rw [List.foldl_append, List.foldl_cons]
  apply foldl_keeps
  · intro t entry hEntry
    apply hAfter
    intro hKey
    exact hLater (hKey ▸ List.mem_map_of_mem hEntry)
  · apply hAt
    apply foldl_keeps
    · intro t entry hEntry
      apply hBefore
      exact
        hEarlier _ (List.mem_map_of_mem hEntry) _
          List.mem_cons_self
    · exact hI

end Keyed

end Library
