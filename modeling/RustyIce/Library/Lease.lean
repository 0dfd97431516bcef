import Mathlib.Data.List.Chain
import Mathlib.Tactic.Common

/-
  Leases that are kept alive by use: a lease is granted at
  some time, each use within its length renews it, one that
  comes later ends it, and it may be revoked.

  Main declarations:
    * `LeaseEvent`, `Lease`, `Lease.next`, `Lease.after`
    * `Lease.after_iff`
    * `Lease.use_iff`
-/

------------------------------------------------------------
-- Leases And Their Events
------------------------------------------------------------

namespace Library

/- What can happen to one lease; revoking takes no time. -/
inductive LeaseEvent (Holder : Type) where
| grant (time : Nat) (holder : Holder)
| use (time : Nat)
| revoke
deriving DecidableEq, Repr

/- Who holds it, and when it was granted or last used. -/
structure Lease (Holder : Type) where
  holder : Holder
  last : Nat
deriving DecidableEq, Repr

namespace Lease

variable {Holder : Type}

/- The lease behind an event. -/
def next
    (length : Nat)
    (lease : Option (Lease Holder)) :
    LeaseEvent Holder → Option (Lease Holder)
| .grant time holder => some { holder := holder, last := time }
| .use time =>
    match lease with
    | none => none
    | some lease =>
        if lease.last + length < time then
          none
        else
          some { lease with last := time }
| .revoke => none

/- The lease behind some events, from none. -/
def after
    (length : Nat)
    (events : List (LeaseEvent Holder)) :
    Option (Lease Holder) :=
  events.foldl (next length) none

theorem after_concat
    (length : Nat)
    (events : List (LeaseEvent Holder))
    (event : LeaseEvent Holder) :
    after length (events ++ [event]) =
      next length (after length events) event := by
  unfold after
  rw [List.foldl_append]
  rfl

end Lease

end Library

------------------------------------------------------------
-- When A Lease Is Held
------------------------------------------------------------

namespace Library

namespace Lease

variable {Holder : Type}
variable {length : Nat}
variable {events : List (LeaseEvent Holder)}
variable {lease : Lease Holder}

/- Two uses that are close enough. -/
def Within (length earlier later : Nat) : Prop :=
  later ≤ earlier + length

/-
  The lease was granted to its holder, and since then there
  were uses only, none of them late.
-/
def Held
    (length : Nat)
    (events : List (LeaseEvent Holder))
    (lease : Lease Holder) : Prop :=
  ∃ before time uses,
    events =
        before ++
          .grant time lease.holder :: uses.map .use ∧
      (time :: uses).IsChain (Within length) ∧
        (time :: uses).getLast (List.cons_ne_nil _ _) =
          lease.last

/- The last event is the last use, or the grant itself. -/
theorem last_event
    {event : LeaseEvent Holder}
    {before : List (LeaseEvent Holder)}
    {time : Nat}
    {holder : Holder}
    {uses : List Nat}
    (hEvents :
      events ++ [event] =
        before ++ .grant time holder :: uses.map .use) :
    (uses = [] ∧ event = .grant time holder) ∨
      ∃ init last,
        uses = init ++ [last] ∧ event = .use last ∧
          events =
            before ++ .grant time holder :: init.map .use := by
  rcases uses.eq_nil_or_concat' with rfl | ⟨init, last, rfl⟩
  · rcases List.append_inj' hEvents rfl with ⟨-, hSame⟩
    exact .inl ⟨rfl, List.singleton_inj.mp hSame⟩
  · rw [List.map_append, ← List.cons_append,
      ← List.append_assoc] at hEvents
    rcases List.append_inj' hEvents rfl with ⟨hInit, hSame⟩
    exact
      .inr ⟨init, last, rfl, List.singleton_inj.mp hSame, hInit⟩

theorem held_grant
    (events : List (LeaseEvent Holder))
    (lease : Lease Holder)
    (time : Nat)
    (holder : Holder) :
    Held length (events ++ [.grant time holder]) lease ↔
      lease = { holder := holder, last := time } := by
  constructor
  · rintro ⟨before, start, uses, hEvents, -, hLast⟩
    rcases last_event hEvents with
      ⟨rfl, hSame⟩ | ⟨init, last, -, hNever, -⟩
    · cases hSame
      have hTime : time = lease.last := hLast
      rw [hTime]
    · cases hNever
  · rintro rfl
    exact ⟨events, time, [], rfl, .singleton _, rfl⟩

theorem not_held_revoke
    (events : List (LeaseEvent Holder))
    (lease : Lease Holder) :
    ¬ Held length (events ++ [.revoke]) lease := by
  rintro ⟨before, start, uses, hEvents, -, -⟩
  rcases last_event hEvents with
    ⟨-, hNever⟩ | ⟨init, last, -, hNever, -⟩ <;>
    cases hNever

theorem last_use
    (start : Nat)
    (uses : List Nat)
    (time : Nat) :
    (start :: (uses ++ [time])).getLast
        (List.cons_ne_nil _ _) =
      time := by
  rw [List.getLast_cons (by simp),
    List.getLast_append_singleton]

/- A use renews a lease that was held close before. -/
theorem held_use
    (events : List (LeaseEvent Holder))
    (lease : Lease Holder)
    (time : Nat) :
    Held length (events ++ [.use time]) lease ↔
      lease.last = time ∧
        ∃ last,
          Held length events { lease with last := last } ∧
            Within length last time := by
  constructor
  · rintro ⟨before, start, uses, hEvents, hChain, hLast⟩
    rcases last_event hEvents with
      ⟨-, hNever⟩ | ⟨init, final, rfl, hSame, hInit⟩
    · cases hNever
    · cases hSame
      rw [← List.cons_append] at hChain
      have hParts := List.isChain_append.mp hChain
      refine
        ⟨hLast.symm.trans (last_use start init time),
          (start :: init).getLast (List.cons_ne_nil _ _),
          ⟨before, start, init, hInit, hParts.1, rfl⟩, ?_⟩
      apply hParts.2.2 _ _ time rfl
      exact List.getLast?_eq_some_getLast _
  · rintro
      ⟨hTime, last, ⟨before, start, uses, rfl, hChain, hLast⟩,
        hClose⟩
    refine ⟨before, start, uses ++ [time], ?_, ?_, ?_⟩
    · simp
    · rw [← List.cons_append]
      refine
        List.isChain_append.mpr ⟨hChain, .singleton _, ?_⟩
      intro x hMem y hSome
      rw [List.getLast?_eq_some_getLast (List.cons_ne_nil _ _),
        hLast] at hMem
      cases hMem
      cases hSome
      exact hClose
    · rw [last_use]
      exact hTime.symm

theorem next_use_iff
    (lease : Option (Lease Holder))
    (after : Lease Holder)
    (time : Nat) :
    next length lease (.use time) = some after ↔
      after.last = time ∧
        ∃ last,
          lease = some { after with last := last } ∧
            Within length last time := by
  cases lease with
  | none =>
      constructor
      · intro hNever
        cases hNever
      · rintro ⟨-, last, hNever, -⟩
        cases hNever
  | some lease =>
      simp only [next]
      by_cases hLate : lease.last + length < time
      · rw [if_pos hLate]
        constructor
        · intro hNever
          cases hNever
        · rintro ⟨-, last, hSame, hClose⟩
          cases hSame
          exact absurd hLate (Nat.not_lt.mpr hClose)
      · rw [if_neg hLate]
        constructor
        · intro hSame
          cases hSame
          exact ⟨rfl, lease.last, rfl, Nat.not_lt.mp hLate⟩
        · rintro ⟨hTime, last, hSame, -⟩
          cases hSame
          rw [← hTime]

/- The lease behind some events is the one that is held. -/
theorem after_iff :
    after length events = some lease ↔
      Held length events lease := by
  induction events using List.reverseRecOn
      generalizing lease with
  | nil =>
      constructor
      · intro hNever
        cases hNever
      · rintro ⟨before, time, uses, hEvents, -, -⟩
        simp at hEvents
  | append_singleton events event ih =>
      rw [after_concat]
      cases event with
      | grant time holder =>
          rw [held_grant]
          exact
            ⟨fun hSome => (Option.some.inj hSome).symm,
              fun hSame => by rw [hSame]; rfl⟩
      | revoke =>
          constructor
          · intro hNever
            cases hNever
          · intro hHeld
            exact absurd hHeld (not_held_revoke events lease)
      | use time =>
          rw [held_use, next_use_iff]
          simp only [ih]

/-
  A use is granted to whom the lease was granted last, if no
  use since then was late and this one is not either.
-/
theorem use_iff
    {holder : Holder}
    {time : Nat} :
    (next length (after length events) (.use time)).map
          Lease.holder =
        some holder ↔
      ∃ before start uses,
        events = before ++ .grant start holder :: uses.map .use ∧
          (start :: (uses ++ [time])).IsChain
            (Within length) := by
  rw [Option.map_eq_some_iff]
  constructor
  · rintro ⟨lease, hNext, rfl⟩
    rw [← after_concat, after_iff] at hNext
    rcases hNext with ⟨before, start, uses, hEvents, hChain, -⟩
    rcases last_event hEvents with
      ⟨-, hNever⟩ | ⟨init, last, rfl, hSame, hInit⟩
    · cases hNever
    · cases hSame
      exact ⟨before, start, init, hInit, hChain⟩
  · rintro ⟨before, start, uses, rfl, hChain⟩
    refine ⟨{ holder := holder, last := time }, ?_, rfl⟩
    rw [← after_concat, after_iff]
    refine ⟨before, start, uses ++ [time], ?_, hChain, ?_⟩
    · simp
    · exact last_use start uses time

end Lease

end Library
