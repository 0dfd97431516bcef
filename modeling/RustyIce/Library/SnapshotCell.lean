import RustyIce.Library.Machine

/-
  A shared value that writers replace by an edited copy: a
  writer loads the value, and later stores its edit of what
  it loaded, without a look at what is there by then.

  The reference is the history in which every edit is made
  in one step, at the moment of its store.

  Main declarations:
    * `Editing`, `SnapshotCell`
    * `SnapshotCell.machine`
    * `SnapshotCell.serial`
    * `SnapshotCell.Fresh`
    * `SnapshotCell.serial_iff_fresh`
-/

------------------------------------------------------------
-- Cells And Their Writers
------------------------------------------------------------

namespace Library

/-
  What an edit makes of a value, and whether a writer that
  loaded this value bothers to store it.
-/
structure Editing (Value Edit : Type) where
  apply : Edit → Value → Value
  needed : Edit → Value → Bool
  unneeded :
    ∀ {edit value}, needed edit value = false →
      apply edit value = value

/-
  The value, the copies loaded and not stored yet, and the
  edits made so far, the latest one first.
-/
structure SnapshotCell (Value Edit : Type) where
  value : Value
  copies : Nat → Option (Edit × Value)
  done : List Edit

namespace SnapshotCell

variable {Value Edit : Type}

inductive Access (Edit : Type) where
| load (writer : Nat) (edit : Edit)
| store (writer : Nat)
deriving DecidableEq, Repr

def setCopy
    (s : SnapshotCell Value Edit)
    (writer : Nat)
    (copy : Option (Edit × Value)) :
    SnapshotCell Value Edit :=
  { s with
    copies := fun w =>
      if w = writer then copy else s.copies w }

/-
  A writer has one copy at a time, and is done at its load
  if there is nothing to store.
-/
def step
    (editing : Editing Value Edit)
    (s : SnapshotCell Value Edit) :
    Access Edit → Option (SnapshotCell Value Edit)
| .load writer edit =>
    match s.copies writer with
    | some _ => none
    | none =>
        if editing.needed edit s.value then
          some (s.setCopy writer (some (edit, s.value)))
        else
          some { s with done := edit :: s.done }
| .store writer =>
    match s.copies writer with
    | none => none
    | some (edit, copy) =>
        some
          { s.setCopy writer none with
            value := editing.apply edit copy
            done := edit :: s.done }

/- A cell nobody has touched. -/
def new (value : Value) : SnapshotCell Value Edit where
  value := value
  copies := fun _ => none
  done := []

def machine
    (editing : Editing Value Edit)
    (value : Value) :
    Machine (SnapshotCell Value Edit) (Access Edit) where
  init := fun s => s = new value
  step := step editing

/- Nobody has a copy that is not stored yet. -/
def Settled (s : SnapshotCell Value Edit) : Prop :=
  ∀ writer, s.copies writer = none

end SnapshotCell

end Library

------------------------------------------------------------
-- Stale Copies
------------------------------------------------------------

namespace Library

namespace SnapshotCell

variable {Value Edit : Type}

/- The edits one after the other, from the first value. -/
def serial
    (editing : Editing Value Edit)
    (value : Value)
    (done : List Edit) : Value :=
  done.foldr editing.apply value

/-
  A store is fresh if an edit of the value that is there now
  would give the same.
-/
def Fresh
    (editing : Editing Value Edit)
    (s : SnapshotCell Value Edit) :
    Access Edit → Prop
| .load _ _ => True
| .store writer =>
    ∀ edit copy, s.copies writer = some (edit, copy) →
      editing.apply edit copy = editing.apply edit s.value

/- One access keeps the history serial if it is fresh. -/
theorem serial_step_iff
    {editing : Editing Value Edit}
    {value : Value}
    {s t : SnapshotCell Value Edit}
    {access : Access Edit}
    (hSerial : s.value = serial editing value s.done)
    (hStep : s.step editing access = some t) :
    t.value = serial editing value t.done ↔
      s.Fresh editing access := by
  cases access with
  | load writer edit =>
      refine iff_of_true ?_ trivial
      simp only [step] at hStep
      split at hStep
      · cases hStep
      · split at hStep
        · cases hStep
          exact hSerial
        · rename_i hUnneeded
          cases hStep
          have hSame :=
            editing.unneeded (Bool.not_eq_true _ ▸ hUnneeded)
          show s.value =
            editing.apply edit (serial editing value s.done)
          rw [← hSerial, hSame]
  | store writer =>
      simp only [step] at hStep
      split at hStep
      · cases hStep
      · rename_i edit copy hCopy
        cases hStep
        show editing.apply edit copy =
            editing.apply edit
              (serial editing value s.done) ↔
          _
        rw [← hSerial]
        simp only [Fresh, hCopy, Option.some.injEq,
          Prod.mk.injEq]
        constructor
        · rintro hSame _ _ ⟨rfl, rfl⟩
          exact hSame
        · intro hSame
          exact hSame edit copy ⟨rfl, rfl⟩

/-
  The history is serial throughout a run exactly if every
  store of the run is fresh.
-/
theorem serial_iff_fresh
    {editing : Editing Value Edit}
    {value : Value}
    {accesses : List (Access Edit)}
    {s : SnapshotCell Value Edit}
    (hRun :
      (machine editing value).run (new value) accesses =
        some s) :
    (machine editing value).Along
        (fun t => t.value = serial editing value t.done)
        (new value) accesses ↔
      (machine editing value).Admits (Fresh editing)
        (new value) accesses :=
  Machine.along_iff_admits
    (I := fun _ => True)
    (fun _ _ _ _ _ => trivial)
    (fun _ _ _ _ hSerial hStep =>
      serial_step_iff hSerial hStep)
    trivial rfl hRun

end SnapshotCell

end Library
