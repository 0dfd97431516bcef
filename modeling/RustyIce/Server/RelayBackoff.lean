import RustyIce.Server.MountSystem
import Mathlib.Algebra.Order.Ring.Nat

/-
  The delays of a relay: its back-off timer beside the steps
  of its task, over runs that mix failed connections, ended
  and failed streams, kicks and preemptions.

  The attempts made and the delays slept are remembered,
  latest first.

  Main declarations:
    * `Backoff`
    * `Attempt`, `slept`, `failures`
    * `RelayRun`, `relayMachine`
    * `RelayRun.RightDelays`, `RelayRun.DelayOk`
    * `rightDelays_iff`
-/

------------------------------------------------------------
-- The Timer
------------------------------------------------------------

namespace RustyIce

/- Delays in seconds. -/
structure Backoff where
  current : Nat
  max : Nat
deriving DecidableEq, Repr

namespace Backoff

def new : Backoff where
  current := 1
  max := 30

/- The delay to sleep; the next one is twice as long. -/
def nextDelay (backoff : Backoff) : Nat × Backoff :=
  (backoff.current,
    { backoff with
      current := min (backoff.current * 2) backoff.max })

def reset (backoff : Backoff) : Backoff :=
  { backoff with current := 1 }

/- The timer after some delays since it was reset. -/
def after (count : Nat) : Backoff where
  current := min (2 ^ count) 30
  max := 30

theorem after_zero : after 0 = new := rfl

theorem reset_after (count : Nat) :
    (after count).reset = after 0 := rfl

theorem nextDelay_after (count : Nat) :
    (after count).nextDelay =
      (min (2 ^ count) 30, after (count + 1)) := by
  simp only [nextDelay, after, Nat.pow_succ]
  congr 2
  omega

end Backoff

/- Five delays on, the cap hides how many there were. -/
theorem capped_eq_iff (m n : Nat) :
    min (2 ^ m) 30 = min (2 ^ n) 30 ↔
      m = n ∨ (5 ≤ m ∧ 5 ≤ n) := by
  have hSmall :
      ∀ k, k < 5 → 2 ^ k ≤ 16 := by
    intro k hLess
    have hPow : 2 ^ k ≤ 2 ^ 4 :=
      Nat.pow_le_pow_right Nat.two_pos
        (Nat.le_of_lt_succ hLess)
    exact hPow
  have hLarge : ∀ k, 5 ≤ k → 32 ≤ 2 ^ k := by
    intro k hMore
    have hPow : 2 ^ 5 ≤ 2 ^ k :=
      Nat.pow_le_pow_right Nat.two_pos hMore
    exact hPow
  have hInjective := Nat.pow_right_injective (Nat.le_refl 2)
  constructor
  · intro hSame
    rcases Nat.lt_or_ge m 5 with hM | hM
    · rcases Nat.lt_or_ge n 5 with hN | hN
      · have h1 := hSmall m hM
        have h2 := hSmall n hN
        exact .inl (hInjective (by simp only; omega))
      · have h1 := hSmall m hM
        have h2 := hLarge n hN
        omega
    · rcases Nat.lt_or_ge n 5 with hN | hN
      · have h1 := hLarge m hM
        have h2 := hSmall n hN
        omega
      · exact .inr ⟨hM, hN⟩
  · rintro (rfl | ⟨hM, hN⟩)
    · rfl
    · have h1 := hLarge m hM
      have h2 := hLarge n hN
      omega

end RustyIce

------------------------------------------------------------
-- Attempts
------------------------------------------------------------

namespace RustyIce

/- How an attempt ended, and whether it had connected. -/
inductive Attempt where
| connectFailed
| ended
| streamFailed
| cancelled (connected : Bool)
deriving DecidableEq, Repr

namespace Attempt

def of (connected : Bool) : RunOutcome → Attempt
| .ok => .ended
| .failed =>
    if connected then .streamFailed else .connectFailed
| .cancelled => .cancelled connected

def Connected : Attempt → Prop
| .connectFailed => False
| .ended => True
| .streamFailed => True
| .cancelled connected => connected

end Attempt

/-
  The attempts that failed to connect since the last that
  connected.
-/
def failures : List Attempt → Nat
| [] => 0
| .connectFailed :: before => failures before + 1
| .ended :: _ => 0
| .streamFailed :: _ => 0
| .cancelled true :: _ => 0
| .cancelled false :: before => failures before

/-
  The delays slept since the last stream that just ended,
  the one after it included.
-/
def slept : List Attempt → Nat
| [] => 0
| .connectFailed :: before => slept before + 1
| .ended :: _ => 1
| .streamFailed :: before => slept before + 1
| .cancelled _ :: before => slept before

/-
  The failures that the delay after the latest attempt
  counts: with the attempt itself if `own`, or the earlier
  ones only.
-/
def counted
    (own : Bool)
    (attempts : List Attempt) : Nat :=
  if own then failures attempts else failures attempts - 1

/- After an attempt that connected there are none. -/
theorem counted_of_connected
    (own : Bool)
    {attempt : Attempt}
    (hConnected : attempt.Connected)
    (before : List Attempt) :
    counted own (attempt :: before) = 0 := by
  have hNone : failures (attempt :: before) = 0 := by
    cases attempt with
    | connectFailed => exact hConnected.elim
    | ended => rfl
    | streamFailed => rfl
    | cancelled connected =>
        unfold Attempt.Connected at hConnected
        subst hConnected
        rfl
  unfold counted
  rw [hNone]
  split <;> rfl

end RustyIce

------------------------------------------------------------
-- Runs
------------------------------------------------------------

namespace RustyIce

/-
  A mount with a relay and its timer. `connected` tells that
  the attempt under way has connected.
-/
structure RelayRun where
  system : MountSystem
  backoff : Backoff
  connected : Bool
  attempts : List Attempt
  delays : List (List Attempt × Nat)

namespace RelayRun

/- The delay after the latest attempt is slept. -/
def sleep
    (s : RelayRun)
    (backoff : Backoff)
    (attempt : Attempt) : RelayRun :=
  { s with
    backoff := backoff.nextDelay.2
    attempts := attempt :: s.attempts
    delays :=
      (attempt :: s.attempts, backoff.nextDelay.1) ::
        s.delays }

/- What `RelayTask::run` does about the end of an attempt. -/
def finish
    (s : RelayRun)
    (outcome : RunOutcome) : RelayRun :=
  let attempt := Attempt.of s.connected outcome
  match outcome with
  | .cancelled =>
      { s with attempts := attempt :: s.attempts }
  | .ok => s.sleep s.backoff.reset attempt
  | .failed => s.sleep s.backoff attempt

/- What a step of the relay adds. -/
def note
    (s : RelayRun)
    (before after : RelayPhase) : RelayRun :=
  match before with
  | .readCancel => { s with connected := false }
  | .connecting _ =>
      match after with
      | .streaming _ => { s with connected := true }
      | _ => s
  | .passed outcome => s.finish outcome
  | _ => s

def step
    (s : RelayRun)
    (label : MountLabel) : Option RelayRun :=
  match s.system.step label with
  | none => none
  | some system =>
      match label, s.system.task, system.task with
      | .relay _ _, .relay before, .relay after =>
          some
            ({ s with system := system }.note before after)
      | _, _, _ => some { s with system := system }

/- Before the first attempt. -/
def fresh (system : MountSystem) : RelayRun where
  system := system
  backoff := .new
  connected := false
  attempts := []
  delays := []

/-
  The delay after each attempt doubles with the failures it
  counts, up to 30 seconds.
-/
def RightDelays (own : Bool) (s : RelayRun) : Prop :=
  ∀ slept ∈ s.delays,
    slept.2 = min (2 ^ counted own slept.1) 30

/-
  When a failure ends an attempt, as many delays have been
  slept since a stream last just ended as the delay is to
  count failures, or five or more each.
-/
def DelayOk
    (own : Bool)
    (s : RelayRun)
    (label : MountLabel) : Prop :=
  match label, s.system.task with
  | .relay _ _, .relay (.passed .failed) =>
      let count :=
        counted own (.of s.connected .failed :: s.attempts)
      slept s.attempts = count ∨
        (5 ≤ slept s.attempts ∧ 5 ≤ count)
  | _, _ => True

/- The event ends an attempt that has failed. -/
def justFailed
    (s : RelayRun)
    (label : MountLabel) : Bool :=
  match label, s.system.task with
  | .relay _ _, .relay (.passed .failed) => true
  | _, _ => false

theorem delayOk_iff
    (own : Bool)
    (s : RelayRun)
    (label : MountLabel) :
    s.DelayOk own label ↔
      (s.justFailed label = true →
        let count :=
          counted own (.of s.connected .failed :: s.attempts)
        slept s.attempts = count ∨
          (5 ≤ slept s.attempts ∧ 5 ≤ count)) := by
  unfold DelayOk justFailed
  split <;> simp

instance
    (own : Bool)
    (s : RelayRun)
    (label : MountLabel) :
    Decidable (s.DelayOk own label) :=
  decidable_of_iff _ (delayOk_iff own s label).symm

end RelayRun

/- A mount nobody has used, with a relay before its first step. -/
def relayMachine : Library.Machine RelayRun MountLabel where
  init := fun s =>
    ∃ system,
      mountMachine.init system ∧
        system.task = .relay .top ∧ s = .fresh system
  step := RelayRun.step

end RustyIce

------------------------------------------------------------
-- Delays
------------------------------------------------------------

namespace RustyIce

namespace RelayRun

variable {own : Bool}
variable {s t : RelayRun}

/- The timer counts the delays slept since a reset. -/
def Timed (s : RelayRun) : Prop :=
  s.backoff = .after (slept s.attempts)

theorem timed_fresh (system : MountSystem) :
    (fresh system).Timed :=
  Backoff.after_zero.symm

theorem sleep_after
    (s : RelayRun)
    (count : Nat)
    (attempt : Attempt) :
    s.sleep (.after count) attempt =
      { s with
        backoff := .after (count + 1)
        attempts := attempt :: s.attempts
        delays :=
          (attempt :: s.attempts, min (2 ^ count) 30) ::
            s.delays } := by
  unfold sleep
  rw [Backoff.nextDelay_after]

/- One more delay, right or wrong. -/
theorem rightDelays_sleep
    (hRight : s.RightDelays own)
    (count : Nat)
    (attempt : Attempt) :
    (s.sleep (.after count) attempt).RightDelays own ↔
      count = counted own (attempt :: s.attempts) ∨
        (5 ≤ count ∧
          5 ≤ counted own (attempt :: s.attempts)) := by
  rw [sleep_after, ← capped_eq_iff]
  unfold RightDelays at hRight ⊢
  rw [List.forall_mem_cons]
  exact and_iff_left hRight

theorem timed_sleep
    (s : RelayRun)
    {count : Nat}
    {attempt : Attempt}
    (hCount : slept (attempt :: s.attempts) = count + 1) :
    (s.sleep (.after count) attempt).Timed := by
  rw [sleep_after]
  unfold Timed
  rw [hCount]

/- The end of an attempt. -/
theorem timed_finish
    (hTimed : s.Timed)
    (outcome : RunOutcome) :
    (s.finish outcome).Timed := by
  unfold Timed at hTimed
  cases outcome with
  | cancelled => exact hTimed
  | ok =>
      simp only [finish, hTimed, Backoff.reset_after]
      exact timed_sleep s rfl
  | failed =>
      simp only [finish, hTimed]
      apply timed_sleep
      simp only [Attempt.of]
      split <;> rfl

theorem rightDelays_finish
    (hTimed : s.Timed)
    (hRight : s.RightDelays own)
    (outcome : RunOutcome) :
    (s.finish outcome).RightDelays own ↔
      (outcome = .failed →
        slept s.attempts =
            counted own
              (.of s.connected .failed :: s.attempts) ∨
          (5 ≤ slept s.attempts ∧
            5 ≤
              counted own
                (.of s.connected .failed ::
                  s.attempts))) := by
  unfold Timed at hTimed
  cases outcome with
  | cancelled => exact iff_of_true hRight (by simp)
  | ok =>
      refine iff_of_true ?_ (by simp)
      simp only [finish, hTimed, Backoff.reset_after]
      rw [rightDelays_sleep hRight]
      have hNone :
          counted own (.ended :: s.attempts) = 0 := by
        apply counted_of_connected
        trivial
      exact .inl hNone.symm
  | failed =>
      simp only [finish, hTimed, true_implies]
      exact rightDelays_sleep hRight _ _

/-
  A step ends an attempt, or leaves the attempts, the timer
  and the delays.
-/
theorem finish_of_step
    {label : MountLabel}
    (hStep : s.step label = some t) :
    (∃ now event outcome system,
        label = .relay now event ∧
          s.system.task = .relay (.passed outcome) ∧
            t = { s.finish outcome with system := system }) ∨
      ((∀ now event outcome,
          label = .relay now event →
            s.system.task ≠ .relay (.passed outcome)) ∧
        t.backoff = s.backoff ∧ t.attempts = s.attempts ∧
          t.delays = s.delays) := by
  simp only [step] at hStep
  split at hStep
  · cases hStep
  · rename_i system hMove
    split at hStep
    · rename_i now event before after hBefore hAfter
      cases hStep
      cases before with
      | passed outcome =>
          refine
            .inl
              ⟨now, event, outcome, system, rfl, hBefore, ?_⟩
          cases outcome <;> rfl
      | connecting token =>
          refine .inr ⟨by simp [hBefore], ?_⟩
          simp only [note]
          split <;> exact ⟨rfl, rfl, rfl⟩
      | _ =>
          exact
            .inr ⟨by simp [hBefore], rfl, rfl, rfl⟩
    · rename_i hOther
      cases hStep
      refine .inr ⟨?_, rfl, rfl, rfl⟩
      intro now event outcome hLabel hTask
      subst hLabel
      simp only [MountSystem.step, hTask] at hMove
      split at hMove
      · cases hMove
      · cases hMove
        exact hOther now event _ _ rfl hTask rfl

theorem timed_step
    (hTimed : s.Timed)
    {label : MountLabel}
    (hStep : s.step label = some t) :
    t.Timed := by
  rcases finish_of_step hStep with
    ⟨now, event, outcome, system, _, _, rfl⟩ |
      ⟨_, hBackoff, hAttempts, _⟩
  · exact timed_finish hTimed outcome
  · unfold Timed
    rw [hBackoff, hAttempts]
    exact hTimed

/- A step keeps the delays right exactly if it may be taken. -/
theorem rightDelays_step
    (hTimed : s.Timed)
    (hRight : s.RightDelays own)
    {label : MountLabel}
    (hStep : s.step label = some t) :
    t.RightDelays own ↔ s.DelayOk own label := by
  rcases finish_of_step hStep with
    ⟨now, event, outcome, system, rfl, hTask, rfl⟩ |
      ⟨hElse, _, _, hDelays⟩
  · change (s.finish outcome).RightDelays own ↔ _
    rw [rightDelays_finish hTimed hRight outcome]
    unfold DelayOk
    simp only [hTask]
    cases outcome <;> simp
  · refine iff_of_true ?_ ?_
    · unfold RightDelays
      rw [hDelays]
      exact hRight
    · unfold DelayOk
      split
      · rename_i now event hTask
        exact absurd hTask (hElse now event .failed rfl)
      · trivial

end RelayRun

/-
  The delays of a run double with the failures to connect
  exactly if each failure finds the timer where they are.
-/
theorem rightDelays_iff
    (own : Bool)
    {s t : RelayRun}
    {labels : List MountLabel}
    (hInit : relayMachine.init s)
    (hRun : relayMachine.run s labels = some t) :
    relayMachine.Along (·.RightDelays own) s labels ↔
      relayMachine.Admits (·.DelayOk own) s labels := by
  rcases hInit with ⟨system, _, _, rfl⟩
  apply
    Library.Machine.along_iff_admits (I := RelayRun.Timed)
      ?_ ?_ (RelayRun.timed_fresh system)
      (List.forall_mem_nil _) hRun
  · intro u label v hTimed hStep
    exact RelayRun.timed_step hTimed hStep
  · intro u label v hTimed hRight hStep
    exact RelayRun.rightDelays_step hTimed hRight hStep

/- A relay on a mount nobody has used. -/
def idleRelay : RelayRun :=
  .fresh (.idle (.relay .top))

theorem init_idleRelay : relayMachine.init idleRelay :=
  ⟨_, MountSystem.init_idle (.relay .top) rfl, rfl, rfl⟩

/- An attempt, from the top of the loop to its delay. -/
def relayAttempt
    (events : List RelayEvent) : List MountLabel :=
  List.replicate 8 (.relay 0 .go) ++
    events.map (.relay 0) ++
      List.replicate 9 (.relay 0 .go)

/- Two failures to connect, and a stream that breaks. -/
def brokenStream : List MountLabel :=
  relayAttempt [.connectFailed] ++
    relayAttempt [.connectFailed] ++
      relayAttempt [.connected .MP3, .streamFailed]

/- However one counts, the last delay is not one second. -/
theorem brokenStream_not_rightDelays :
    ∃ t,
      relayMachine.run idleRelay brokenStream = some t ∧
        relayMachine.Reachable t ∧
          ∀ own, ¬ t.RightDelays own := by
  refine ⟨_, rfl, ?_, ?_⟩
  · exact
      Library.Machine.reachable_of_run init_idleRelay
        (rfl :
          relayMachine.run idleRelay brokenStream = some _)
  · intro own hRight
    have hLast :
        4 = min (2 ^ counted own
          [.streamFailed, .connectFailed,
            .connectFailed]) 30 :=
      hRight _ List.mem_cons_self
    revert hLast
    cases own <;> decide

/- A stream that ended, and failures after it. -/
theorem rightDelays_endedStream :
    relayMachine.Along (·.RightDelays true) idleRelay
      (relayAttempt [.connected .MP3, .eof] ++
        relayAttempt [.connectFailed] ++
          relayAttempt [.connectFailed]) := by
  apply (rightDelays_iff true init_idleRelay rfl).mpr
  exact
    Library.Machine.admits_of_runUnder
      (rfl :
        relayMachine.runUnder (·.DelayOk true) idleRelay
            (relayAttempt [.connected .MP3, .eof] ++
              relayAttempt [.connectFailed] ++
                relayAttempt [.connectFailed]) =
          some _)

end RustyIce
