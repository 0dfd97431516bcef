/-
  One party among others on a shared state, and whether its
  turns leave a trace: the run with them against the run
  without them.

  The others are arbitrary: a turn of theirs is a function of
  the shared state, the same one in both runs.

  Main declarations:
    * `Turn`, `Party`
    * `Party.run`, `Party.without`
    * `Party.Undisturbed`, `Party.Throughout`
    * `Party.Traces` and `Party.undisturbed_iff`
-/

------------------------------------------------------------
-- Two Runs
------------------------------------------------------------

namespace Library

/- A turn of the party, or what the others do in theirs. -/
inductive Turn (Shared Input : Type) where
| own (input : Input)
| others (change : Shared → Shared)

/- A party steps its own state and the shared one. -/
structure Party (Local Shared Input : Type) where
  step : Input → Local → Shared → Option (Local × Shared)

namespace Party

variable {Local Shared Input : Type}

/- The run with the turns of the party. -/
def run
    (party : Party Local Shared Input) :
    Local → Shared → List (Turn Shared Input) →
      Option (Local × Shared)
| p, s, [] => some (p, s)
| p, s, .own input :: turns =>
    match party.step input p s with
    | none => none
    | some (p', s') => party.run p' s' turns
| p, s, .others change :: turns =>
    party.run p (change s) turns

/- What the others make of the shared state alone. -/
def without : Shared → List (Turn Shared Input) → Shared
| s, [] => s
| s, .own _ :: turns => without s turns
| s, .others change :: turns => without (change s) turns

/-
  At every moment of the run from `s` the shared state looks
  the same as in the run from `t` without the party.
-/
def Undisturbed
    (party : Party Local Shared Input)
    (same : Shared → Shared → Prop) :
    Local → Shared → Shared →
      List (Turn Shared Input) → Prop
| _, s, t, [] => same s t
| p, s, t, .own input :: turns =>
    same s t ∧
      match party.step input p s with
      | none => True
      | some (p', s') => party.Undisturbed same p' s' t turns
| p, s, t, .others change :: turns =>
    same s t ∧
      party.Undisturbed same p (change s) (change t) turns

/- Before every turn of the party `quiet` holds. -/
def Throughout
    (party : Party Local Shared Input)
    (quiet : Local → Shared → Prop) :
    Local → Shared → List (Turn Shared Input) → Prop
| _, _, [] => True
| p, s, .own input :: turns =>
    quiet p s ∧
      match party.step input p s with
      | none => True
      | some (p', s') => party.Throughout quiet p' s' turns
| p, s, .others change :: turns =>
    party.Throughout quiet p (change s) turns

end Party

end Library

------------------------------------------------------------
-- Turns That Leave No Trace
------------------------------------------------------------

namespace Library

namespace Party

variable {Local Shared Input : Type}
variable {party : Party Local Shared Input}
variable {same : Shared → Shared → Prop}
variable {before : Local → Prop}
variable {quiet : Local → Shared → Prop}

/-
  While a party is in a state `before`, the quiet turns are
  those that leave no trace.
-/
structure Traces
    (party : Party Local Shared Input)
    (same : Shared → Shared → Prop)
    (before : Local → Prop)
    (quiet : Local → Shared → Prop) : Prop where
  refl : ∀ s, same s s
  back :
    ∀ {input p s p' s'},
      party.step input p s = some (p', s') →
        before p' → before p
  unchanged :
    ∀ {input p s p' s'},
      party.step input p s = some (p', s') →
        before p' → quiet p s → s' = s
  traced :
    ∀ {input p s p' s'},
      party.step input p s = some (p', s') →
        before p' → same s' s → quiet p s

theorem Undisturbed.head
    {p : Local}
    {s t : Shared}
    {turns : List (Turn Shared Input)}
    (hSame : party.Undisturbed same p s t turns) :
    same s t := by
  cases turns with
  | nil => exact hSame
  | cons turn turns =>
      cases turn with
      | own input => exact hSame.1
      | others change => exact hSame.1

/- In particular the two runs end alike. -/
theorem Undisturbed.last
    {p q : Local}
    {s t s' : Shared}
    {turns : List (Turn Shared Input)}
    (hSame : party.Undisturbed same p s t turns)
    (hRun : party.run p s turns = some (q, s')) :
    same s' (without t turns) := by
  induction turns generalizing p s t with
  | nil =>
      cases hRun
      exact hSame
  | cons turn turns ih =>
      cases turn with
      | own input =>
          have hRest := hSame.2
          simp only [run] at hRun
          split at hRun
          · cases hRun
          · rename_i p' next hStep
            rw [hStep] at hRest
            exact ih hRest hRun
      | others change => exact ih hSame.2 hRun

/- A party that ends `before` has been there throughout. -/
theorem Traces.before_of_run
    (hTraces : party.Traces same before quiet)
    {p q : Local}
    {s t : Shared}
    {turns : List (Turn Shared Input)}
    (hRun : party.run p s turns = some (q, t))
    (hEnd : before q) :
    before p := by
  induction turns generalizing p s with
  | nil =>
      cases hRun
      exact hEnd
  | cons turn turns ih =>
      cases turn with
      | own input =>
          simp only [run] at hRun
          split at hRun
          · cases hRun
          · rename_i p' next hStep
            exact hTraces.back hStep (ih hRun)
      | others change => exact ih hRun

/-
  Such a party leaves the run of the others undisturbed
  exactly if all its turns are quiet.
-/
theorem undisturbed_iff
    (hTraces : party.Traces same before quiet)
    {p q : Local}
    {s t : Shared}
    {turns : List (Turn Shared Input)}
    (hRun : party.run p s turns = some (q, t))
    (hEnd : before q) :
    party.Undisturbed same p s s turns ↔
      party.Throughout quiet p s turns := by
  induction turns generalizing p s with
  | nil =>
      simp only [Undisturbed, Throughout, iff_true]
      exact hTraces.refl s
  | cons turn turns ih =>
      cases turn with
      | own input =>
          simp only [run] at hRun
          split at hRun
          · cases hRun
          · rename_i p' next hStep
            have hBefore := hTraces.before_of_run hRun hEnd
            simp only [Undisturbed, Throughout, hStep]
            constructor
            · rintro ⟨_, hRest⟩
              have hQuiet :=
                hTraces.traced hStep hBefore hRest.head
              have hNext :=
                hTraces.unchanged hStep hBefore hQuiet
              subst hNext
              exact ⟨hQuiet, (ih hRun).mp hRest⟩
            · rintro ⟨hQuiet, hRest⟩
              have hNext :=
                hTraces.unchanged hStep hBefore hQuiet
              subst hNext
              exact ⟨hTraces.refl _, (ih hRun).mpr hRest⟩
      | others change =>
          simp only [Undisturbed, Throughout]
          rw [ih hRun]
          exact and_iff_right (hTraces.refl s)

end Party

end Library
