import Mathlib.Algebra.Order.Ring.Nat

/-
  Labelled machines with an executable partial step, their
  guarded runs, and the induction rules for invariants.

  A machine takes one step for one label, or refuses it. A
  guard restricts the runs considered to those whose every
  step it admits.

  Main declarations:
    * `Machine`
    * `Machine.ReachableUnder` and `Machine.Reachable`
    * `Machine.ReachableUnder.invariant`
    * `Machine.run` and `Machine.reachable_of_run`
    * `Machine.run_keeps` and `Machine.run_spends`
    * `Machine.runUnder` and
      `Machine.reachableUnder_of_runUnder`
    * `Machine.Leads`, `Machine.leads_of_rank` and
      `Machine.Leads.reachable`
    * `Machine.Along`, `Machine.Admits`,
      `Machine.along_iff_admits` and
      `Machine.Admits.along`
-/

------------------------------------------------------------
-- Machines And Reachable States
------------------------------------------------------------

namespace Library

/- A labelled machine with a partial executable step. -/
structure Machine (State Label : Type) where
  init : State → Prop
  step : State → Label → Option State

namespace Machine

variable {State Label : Type}

/-
  The states reached by runs whose every step satisfies the
  guard `ok`, read off the state before the step.
-/
inductive ReachableUnder
    (M : Machine State Label)
    (ok : State → Label → Prop) : State → Prop
| start {s : State} :
    M.init s → ReachableUnder M ok s
| step {s t : State} {label : Label} :
    ReachableUnder M ok s →
      ok s label →
        M.step s label = some t →
          ReachableUnder M ok t

/- The states reached by any run. -/
def Reachable
    (M : Machine State Label) : State → Prop :=
  M.ReachableUnder fun _ _ => True

namespace ReachableUnder

variable {M : Machine State Label}
variable {ok : State → Label → Prop}

/- An inductive invariant holds in every reached state. -/
theorem invariant
    {I : State → Prop}
    (hInit : ∀ s, M.init s → I s)
    (hStep :
      ∀ s label t,
        I s → ok s label →
          M.step s label = some t → I t)
    {s : State}
    (hReach : M.ReachableUnder ok s) :
    I s := by
  induction hReach with
  | start hStart => exact hInit _ hStart
  | step _ hOk hMove ih => exact hStep _ _ _ ih hOk hMove

end ReachableUnder

end Machine

end Library

------------------------------------------------------------
-- Executing Label Lists
------------------------------------------------------------

namespace Library

namespace Machine

variable {State Label : Type}

/- Execute a list of labels; refuse if any step refuses. -/
def run
    (M : Machine State Label) :
    State → List Label → Option State
| s, [] => some s
| s, label :: labels =>
    match M.step s label with
    | none => none
    | some t => M.run t labels

theorem run_append
    (M : Machine State Label)
    (s : State)
    (front rest : List Label) :
    M.run s (front ++ rest) =
      (M.run s front).bind fun t => M.run t rest := by
  induction front generalizing s with
  | nil => rfl
  | cons label front ih =>
      rw [List.cons_append, Machine.run, Machine.run]
      cases M.step s label with
      | none => rfl
      | some t => exact ih t

theorem run_singleton
    (M : Machine State Label)
    (s : State)
    (label : Label) :
    M.run s [label] = M.step s label := by
  rw [Machine.run]
  cases M.step s label with
  | none => rfl
  | some t => rfl

/- What the steps of the admitted labels keep, a run keeps. -/
theorem run_keeps
    {M : Machine State Label}
    (own : Label → Prop)
    {I : State → Prop}
    (hStep :
      ∀ s label t,
        I s → own label → M.step s label = some t → I t)
    {s t : State}
    {labels : List Label}
    (hI : I s)
    (hOwn : ∀ label ∈ labels, own label)
    (hRun : M.run s labels = some t) :
    I t := by
  induction labels generalizing s with
  | nil =>
      cases hRun
      exact hI
  | cons label labels ih =>
      rw [Machine.run] at hRun
      split at hRun
      · cases hRun
      · rename_i next hMove
        have hFirst := hOwn label List.mem_cons_self
        refine ih (hStep s label next hI hFirst hMove) ?_ hRun
        intro other hOther
        exact hOwn other (List.mem_cons_of_mem _ hOther)

/-
  If every step that ends in a state that is `ok` began in
  one, and spent at most what its label allows, then a run
  that ends so spent at most what its labels allow.
-/
theorem run_spends
    {M : Machine State Label}
    {I ok : State → Prop}
    (spent : State → Nat)
    (allowed : Label → Nat)
    (hStep :
      ∀ s label t,
        I s → M.step s label = some t →
          I t ∧
            (ok t →
              ok s ∧ spent t ≤ spent s + allowed label))
    {s t : State}
    {labels : List Label}
    (hI : I s)
    (hRun : M.run s labels = some t)
    (hOk : ok t) :
    ok s ∧ spent t ≤ spent s + (labels.map allowed).sum := by
  induction labels generalizing s with
  | nil =>
      cases hRun
      exact ⟨hOk, Nat.le_add_right _ _⟩
  | cons label labels ih =>
      rw [Machine.run] at hRun
      split at hRun
      · cases hRun
      · rename_i next hMove
        rcases hStep s label next hI hMove with
          ⟨hNext, hSpent⟩
        rcases ih hNext hRun with ⟨hThere, hRest⟩
        rcases hSpent hThere with ⟨hHere, hFirst⟩
        refine ⟨hHere, ?_⟩
        rw [List.map_cons, List.sum_cons]
        omega

/-
  Execute a list of labels under a decidable guard; refuse
  at the first label the guard does not admit.
-/
def runUnder
    (M : Machine State Label)
    (ok : State → Label → Prop)
    [∀ s label, Decidable (ok s label)] :
    State → List Label → Option State
| s, [] => some s
| s, label :: labels =>
    if ok s label then
      match M.step s label with
      | none => none
      | some t => M.runUnder ok t labels
    else
      none

/- Executing a list under a guard keeps guarded reachability. -/
theorem ReachableUnder.runUnder
    {M : Machine State Label}
    {ok : State → Label → Prop}
    [∀ s label, Decidable (ok s label)]
    {s t : State}
    {labels : List Label}
    (hReach : M.ReachableUnder ok s)
    (hRun : M.runUnder ok s labels = some t) :
    M.ReachableUnder ok t := by
  induction labels generalizing s with
  | nil =>
      simp only [Machine.runUnder, Option.some.injEq] at hRun
      exact hRun ▸ hReach
  | cons label labels ih =>
      rw [Machine.runUnder] at hRun
      split at hRun
      · rename_i hOk
        split at hRun
        · cases hRun
        · rename_i next hMove
          exact ih (.step hReach hOk hMove) hRun
      · cases hRun

theorem reachableUnder_of_runUnder
    {M : Machine State Label}
    {ok : State → Label → Prop}
    [∀ s label, Decidable (ok s label)]
    {s t : State}
    {labels : List Label}
    (hInit : M.init s)
    (hRun : M.runUnder ok s labels = some t) :
    M.ReachableUnder ok t :=
  ReachableUnder.runUnder (.start hInit) hRun

/- Labels that the guard admits everywhere need no check. -/
theorem ReachableUnder.run
    {M : Machine State Label}
    {ok : State → Label → Prop}
    {s t : State}
    {labels : List Label}
    (hReach : M.ReachableUnder ok s)
    (hOk : ∀ label ∈ labels, ∀ u, ok u label)
    (hRun : M.run s labels = some t) :
    M.ReachableUnder ok t := by
  induction labels generalizing s with
  | nil =>
      simp only [Machine.run, Option.some.injEq] at hRun
      exact hRun ▸ hReach
  | cons label labels ih =>
      rw [Machine.run] at hRun
      split at hRun
      · cases hRun
      · rename_i next hMove
        have hFirst := hOk label List.mem_cons_self s
        refine ih (.step hReach hFirst hMove) ?_ hRun
        intro other hOther
        exact hOk other (List.mem_cons_of_mem _ hOther)

/- Executing a list of labels keeps reachability. -/
theorem Reachable.run
    {M : Machine State Label}
    {s t : State}
    {labels : List Label}
    (hReach : M.Reachable s)
    (hRun : M.run s labels = some t) :
    M.Reachable t :=
  ReachableUnder.run hReach (fun _ _ _ => trivial) hRun

theorem reachable_of_run
    {M : Machine State Label}
    {s t : State}
    {labels : List Label}
    (hInit : M.init s)
    (hRun : M.run s labels = some t) :
    M.Reachable t :=
  Reachable.run (.start hInit) hRun

end Machine

end Library

------------------------------------------------------------
-- Progress By A Class Of Labels
------------------------------------------------------------

namespace Library

namespace Machine

variable {State Label : Type}

/- Some label of the class `own` is enabled. -/
def Enabled
    (M : Machine State Label)
    (own : Label → Prop)
    (s : State) : Prop :=
  ∃ label, own label ∧ (M.step s label).isSome

/-
  `s` can move to a state satisfying `goal` by steps of the
  class `own` alone.
-/
inductive Leads
    (M : Machine State Label)
    (own : Label → Prop)
    (goal : State → Prop) : State → Prop
| here {s : State} :
    goal s → Leads M own goal s
| step {s t : State} {label : Label} :
    own label →
      M.step s label = some t →
        Leads M own goal t →
          Leads M own goal s

/-
  A rank that some own step decreases, as long as the goal
  is not reached, leads to the goal. `I` is what the chosen
  steps preserve.
-/
theorem leads_of_rank
    {M : Machine State Label}
    {own : Label → Prop}
    {goal I : State → Prop}
    (rank : State → Nat)
    (hStep :
      ∀ s, I s → ¬ goal s →
        ∃ label t,
          own label ∧ M.step s label = some t ∧
            I t ∧ rank t < rank s)
    {s : State}
    (hI : I s) :
    M.Leads own goal s := by
  induction hRank : rank s using Nat.strongRecOn
      generalizing s with
  | ind bound ih =>
      by_cases hGoal : goal s
      · exact .here hGoal
      · rcases hStep s hI hGoal with
          ⟨label, t, hOwn, hMove, hNext, hLess⟩
        exact .step hOwn hMove
          (ih (rank t) (hRank ▸ hLess) hNext rfl)

/- What a reachable state leads to can be reached. -/
theorem Leads.reachable
    {M : Machine State Label}
    {own : Label → Prop}
    {goal : State → Prop}
    {s : State}
    (hLeads : M.Leads own goal s)
    (hReach : M.Reachable s) :
    ∃ t, M.Reachable t ∧ goal t := by
  induction hLeads with
  | here hGoal => exact ⟨_, hReach, hGoal⟩
  | step _ hMove _ ih => exact ih (.step hReach trivial hMove)

end Machine

end Library

------------------------------------------------------------
-- Properties Along A Run
------------------------------------------------------------

namespace Library

namespace Machine

variable {State Label : Type}

/- The property holds before and after every step of a run. -/
def Along
    (M : Machine State Label)
    (P : State → Prop) :
    State → List Label → Prop
| s, [] => P s
| s, label :: labels =>
    P s ∧
      ∀ t, M.step s label = some t → M.Along P t labels

/- The guard admits every step of a run. -/
def Admits
    (M : Machine State Label)
    (ok : State → Label → Prop) :
    State → List Label → Prop
| _, [] => True
| s, label :: labels =>
    ok s label ∧
      ∀ t, M.step s label = some t → M.Admits ok t labels

theorem Along.head
    {M : Machine State Label}
    {P : State → Prop}
    {s : State}
    {labels : List Label}
    (hAlong : M.Along P s labels) :
    P s := by
  cases labels with
  | nil => exact hAlong
  | cons label labels => exact hAlong.1

/- What holds along a run holds at its end. -/
theorem Along.last
    {M : Machine State Label}
    {P : State → Prop}
    {s t : State}
    {labels : List Label}
    (hAlong : M.Along P s labels)
    (hRun : M.run s labels = some t) :
    P t := by
  induction labels generalizing s with
  | nil =>
      cases hRun
      exact hAlong
  | cons label labels ih =>
      rw [Machine.run] at hRun
      split at hRun
      · cases hRun
      · rename_i next hMove
        exact ih (hAlong.2 next hMove) hRun

/-
  A property that a step keeps exactly if the guard admits
  the step holds along exactly the runs the guard admits.
  `I` is an invariant that helps.
-/
theorem along_iff_admits
    {M : Machine State Label}
    {P I : State → Prop}
    {ok : State → Label → Prop}
    (hInv :
      ∀ s label t,
        I s → M.step s label = some t → I t)
    (hStep :
      ∀ s label t,
        I s → P s → M.step s label = some t →
          (P t ↔ ok s label))
    {s t : State}
    {labels : List Label}
    (hI : I s)
    (hP : P s)
    (hRun : M.run s labels = some t) :
    M.Along P s labels ↔ M.Admits ok s labels := by
  induction labels generalizing s with
  | nil => exact iff_of_true hP trivial
  | cons label labels ih =>
      rw [Machine.run] at hRun
      split at hRun
      · cases hRun
      · rename_i next hMove
        have hOne := hStep s label next hI hP hMove
        have hNext := hInv s label next hI hMove
        simp only [Along, Admits, hMove, Option.some.injEq,
          forall_eq']
        constructor
        · rintro ⟨_, hRest⟩
          have hOk := hOne.mp hRest.head
          exact
            ⟨hOk, (ih hNext (hOne.mpr hOk) hRun).mp hRest⟩
        · rintro ⟨hOk, hRest⟩
          exact
            ⟨hP, (ih hNext (hOne.mpr hOk) hRun).mpr hRest⟩

/-
  What the admitted steps of `own` keep holds along every
  run of such steps.
-/
theorem Admits.along
    {M : Machine State Label}
    {own : Label → Prop}
    {P I : State → Prop}
    {ok : State → Label → Prop}
    (hStep :
      ∀ s label t,
        I s → own label → ok s label →
          M.step s label = some t → I t)
    (hHolds : ∀ s, I s → P s)
    {s : State}
    {labels : List Label}
    (hI : I s)
    (hOwn : ∀ label ∈ labels, own label)
    (hAdmits : M.Admits ok s labels) :
    M.Along P s labels := by
  induction labels generalizing s with
  | nil => exact hHolds s hI
  | cons label labels ih =>
      refine ⟨hHolds s hI, ?_⟩
      intro t hMove
      apply ih ?_ ?_ (hAdmits.2 t hMove)
      · exact
          hStep s label t hI (hOwn label List.mem_cons_self)
            hAdmits.1 hMove
      · intro other hMem
        exact hOwn other (List.mem_cons_of_mem _ hMem)

/- A list executed under a guard is admitted by it. -/
theorem admits_of_runUnder
    {M : Machine State Label}
    {ok : State → Label → Prop}
    [∀ s label, Decidable (ok s label)]
    {s t : State}
    {labels : List Label}
    (hRun : M.runUnder ok s labels = some t) :
    M.Admits ok s labels := by
  induction labels generalizing s with
  | nil => trivial
  | cons label labels ih =>
      rw [Machine.runUnder] at hRun
      split at hRun
      · rename_i hOk
        split at hRun
        · cases hRun
        · rename_i next hMove
          refine ⟨hOk, ?_⟩
          intro other hOther
          cases hMove.symm.trans hOther
          exact ih hRun
      · cases hRun

end Machine

end Library
