import Mathlib.Data.List.Forall2

/-
  Two runs of one computation on inputs that may differ in
  what is to stay hidden: when their outcomes agree, and how
  agreement passes through sequences, lists and lookups.

  Main declarations:
    * `Agree`
    * `Agree.bind`, `Agree.mapM`
    * `rel_orElse`, `rel_cases`, `rel_find?`
-/

------------------------------------------------------------
-- Outcomes
------------------------------------------------------------

namespace Library

/-
  Both runs succeed with related values, or both fail with
  one error. If `loose`, nothing is said of runs that do not
  both succeed.
-/
def Agree
    {Error First Second : Type}
    (loose : Prop)
    (R : First → Second → Prop) :
    Except Error First → Except Error Second → Prop
| .ok first, .ok second => R first second
| .error first, .error second => loose ∨ first = second
| .ok _, .error _ => loose
| .error _, .ok _ => loose

variable
  {Error First Second First' Second' : Type}
  {loose : Prop}
  {R : First → Second → Prop}
  {S : First' → Second' → Prop}

theorem Agree.bind
    {x : Except Error First}
    {y : Except Error Second}
    {f : First → Except Error First'}
    {g : Second → Except Error Second'}
    (hAgree : Agree loose R x y)
    (hNext :
      ∀ first second, R first second →
        Agree loose S (f first) (g second)) :
    Agree loose S (x >>= f) (y >>= g) := by
  cases x with
  | ok first =>
      cases y with
      | ok second => exact hNext first second hAgree
      | error e =>
          change Agree loose S (f first) (.error e)
          have hLoose : loose := hAgree
          cases f first with
          | ok value => exact hLoose
          | error e' => exact .inl hLoose
  | error e =>
      cases y with
      | ok second =>
          change Agree loose S (.error e) (g second)
          have hLoose : loose := hAgree
          cases g second with
          | ok value => exact hLoose
          | error e' => exact .inl hLoose
      | error e' => exact hAgree

/- The same error is reported in the same words. -/
theorem Agree.mapError
    {Error' : Type}
    {x : Except Error First}
    {y : Except Error Second}
    (hAgree : Agree loose R x y)
    (f : Error → Error') :
    Agree loose R (x.mapError f) (y.mapError f) := by
  cases x with
  | ok first =>
      cases y with
      | ok second => exact hAgree
      | error e => exact hAgree
  | error e =>
      cases y with
      | ok second => exact hAgree
      | error e' => exact hAgree.imp_right (congrArg f)

/- One outcome, of values that are related to themselves. -/
theorem Agree.of_self
    {T : First → First → Prop}
    (hSelf : ∀ first, T first first)
    (loose : Prop)
    (x : Except Error First) :
    Agree loose T x x := by
  cases x with
  | ok first => exact hSelf first
  | error e => exact .inr rfl

/- Checks without a result are compared by their errors. -/
theorem Agree.of_eq
    {x y : Except Error First}
    (hEq : x = y) :
    Agree loose (· = ·) x y := by
  subst hEq
  exact Agree.of_self (fun _ => rfl) loose x

/- Loose runs are compared where both succeed. -/
theorem Agree.of_loose
    (hLoose : loose)
    {x : Except Error First}
    {y : Except Error Second}
    (hBoth :
      ∀ first second, x = .ok first → y = .ok second →
        R first second) :
    Agree loose R x y := by
  cases x with
  | ok first =>
      cases y with
      | ok second => exact hBoth first second rfl rfl
      | error e => exact hLoose
  | error e =>
      cases y with
      | ok second => exact hLoose
      | error e' => exact .inl hLoose

/- Entry by entry, one run next to the other. -/
theorem Agree.mapM
    {f : First → Except Error First'}
    {g : Second → Except Error Second'}
    (hEach :
      ∀ first second, R first second →
        Agree loose S (f first) (g second))
    {firsts : List First}
    {seconds : List Second}
    (hLists : List.Forall₂ R firsts seconds) :
    Agree loose (List.Forall₂ S) (firsts.mapM f)
      (seconds.mapM g) := by
  induction hLists with
  | nil => exact .nil
  | cons hHead _ ih =>
      rw [List.mapM_cons, List.mapM_cons]
      apply (hEach _ _ hHead).bind
      intro first second hValue
      apply ih.bind
      intro rest rest' hRest
      exact .cons hValue hRest

end Library

------------------------------------------------------------
-- Lookups
------------------------------------------------------------

namespace Library

variable
  {First Second First' Second' : Type}
  {R : First → Second → Prop}
  {S : First' → Second' → Prop}

theorem rel_orElse
    {x x' : Option First}
    {y y' : Option Second}
    (hFirst : Option.Rel R x y)
    (hNext : Option.Rel R x' y') :
    Option.Rel R (x <|> x') (y <|> y') := by
  cases hFirst with
  | some hValue => exact .some hValue
  | none => exact hNext

theorem rel_map
    {f : First → First'}
    {g : Second → Second'}
    (hEach :
      ∀ first second, R first second →
        S (f first) (g second))
    {x : Option First}
    {y : Option Second}
    (hRel : Option.Rel R x y) :
    Option.Rel S (x.map f) (y.map g) := by
  cases hRel with
  | some hValue => exact .some (hEach _ _ hValue)
  | none => exact .none

theorem rel_self
    {T : First → First → Prop}
    (hSelf : ∀ first, T first first)
    (x : Option First) :
    Option.Rel T x x := by
  cases x with
  | some first => exact .some (hSelf first)
  | none => exact .none

/- Both runs have a value or neither has one. -/
theorem rel_cases
    {x : Option First}
    {y : Option Second}
    (hRel : Option.Rel R x y) :
    (x = none ∧ y = none) ∨
      ∃ first second,
        x = some first ∧ y = some second ∧
          R first second := by
  cases hRel with
  | some hValue => exact .inr ⟨_, _, rfl, rfl, hValue⟩
  | none => exact .inl ⟨rfl, rfl⟩

/- Both runs find their entry at the same place. -/
theorem rel_find?
    {p : First → Bool}
    {q : Second → Bool}
    (hSame : ∀ first second, R first second → p first = q second)
    {firsts : List First}
    {seconds : List Second}
    (hLists : List.Forall₂ R firsts seconds) :
    Option.Rel R (firsts.find? p) (seconds.find? q) := by
  induction hLists with
  | nil => exact .none
  | @cons first second _ _ hHead _ ih =>
      rw [List.find?_cons, List.find?_cons,
        hSame first second hHead]
      cases q second with
      | true => exact .some hHead
      | false => exact ih

theorem any_eq_of_forall₂
    {p : First → Bool}
    {q : Second → Bool}
    (hSame : ∀ first second, R first second → p first = q second)
    {firsts : List First}
    {seconds : List Second}
    (hLists : List.Forall₂ R firsts seconds) :
    firsts.any p = seconds.any q := by
  induction hLists with
  | nil => rfl
  | @cons first second _ _ hHead _ ih =>
      rw [List.any_cons, List.any_cons,
        hSame first second hHead, ih]

end Library
