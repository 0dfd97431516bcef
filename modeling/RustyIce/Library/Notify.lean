/-
  A wake-up cell with one stored permit and at most one
  waiter: notifying wakes the waiter if there is one and
  stores a permit otherwise.

  Main declarations:
    * `Notify`
    * `Notify.notifyOne`
    * `Notify.pollNotified`
    * `Notify.wake`
    * `Notify.abandon`
-/

------------------------------------------------------------
-- Notification Cells
------------------------------------------------------------

namespace Library

/- The waiter's place in the queue. -/
inductive Waiter where
| absent
| enqueued
| notified
deriving DecidableEq, Repr

/- A notification cell with a single waiter. -/
structure Notify where
  permit : Bool
  waiter : Waiter
deriving DecidableEq, Repr

namespace Notify

/- A cell with neither permit nor waiter. -/
def new : Notify where
  permit := false
  waiter := .absent

/-
  Wake the queued waiter, or store the one permit if nobody
  is queued.
-/
def notifyOne (n : Notify) : Notify :=
  match n.waiter with
  | .enqueued => { n with waiter := .notified }
  | .absent => { n with permit := true }
  | .notified => { n with permit := true }

/-
  First poll of a wait: take the permit and go on, or join
  the queue. The Boolean tells whether the wait is over.
-/
def pollNotified (n : Notify) : Bool × Notify :=
  if n.permit then
    (true, { n with permit := false })
  else
    (false, { n with waiter := .enqueued })

/- Poll of a queued wait: over once the waiter is notified. -/
def wake (n : Notify) : Option Notify :=
  match n.waiter with
  | .notified => some { n with waiter := .absent }
  | .enqueued => none
  | .absent => none

/-
  A wait dropped before it ended leaves the queue; a
  notification it had received but not used is passed on,
  here to the permit since nobody else waits.
-/
def abandon (n : Notify) : Notify :=
  match n.waiter with
  | .notified => { permit := true, waiter := .absent }
  | .enqueued => { n with waiter := .absent }
  | .absent => n

/- The waiter sleeps and nothing has woken it. -/
def Asleep (n : Notify) : Prop :=
  n.waiter = .enqueued

instance (n : Notify) : Decidable n.Asleep := by
  unfold Asleep
  infer_instance

/- The wait is over at once exactly with a permit. -/
theorem pollNotified_fst (n : Notify) :
    n.pollNotified.1 = n.permit := by
  unfold pollNotified
  cases n.permit <;> rfl

/- A notification is never lost. -/
theorem notifyOne_due (n : Notify) :
    n.notifyOne.permit = true ∨
      n.notifyOne.waiter = .notified := by
  unfold notifyOne
  cases n.waiter <;> simp

/- A wait that goes to sleep found no permit. -/
theorem permit_of_pollNotified
    {n : Notify}
    (hPoll : n.pollNotified.1 = false) :
    n.permit = false := by
  unfold pollNotified at hPoll
  split at hPoll
  · cases hPoll
  · rename_i hPermit
    simpa using hPermit

/- And it is queued then. -/
theorem waiter_of_pollNotified
    {n : Notify}
    (hPoll : n.pollNotified.1 = false) :
    n.pollNotified.2.waiter = .enqueued := by
  have hPermit := permit_of_pollNotified hPoll
  unfold pollNotified
  rw [hPermit]
  rfl

end Notify

end Library
