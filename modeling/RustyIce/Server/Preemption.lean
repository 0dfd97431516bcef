import RustyIce.Server.MountSystem

/-
  A live source preempts the task of its mount: between the
  release of the task and the claim of the source the slot
  stays free, as long as the task does not come back to it
  by itself.

  Every claim of a slot draws a token, so that no token
  drawn means that nobody claimed.

  Main declarations:
    * `SourcePhase.Preempting`, `Found`, `HandsOver`
    * `Task.ComesBack`, `Unhindered`
    * `Task.Yields`, `Task.yields_of_step`
    * `preemption_hands_over`
-/

------------------------------------------------------------
-- The Property
------------------------------------------------------------

namespace RustyIce

/- The slot was found held, and the claim is to come. -/
def SourcePhase.Preempting : SourcePhase → Prop
| .setPending => True
| .readCancel => True
| .cancelOwner _ => True
| .polling => True
| .verify => True
| .checkCodec => True
| .claim => True
| .checkConnected => False
| .checkKind => False
| .installing _ _ => False
| .streaming _ => False
| .dropping _ => False
| .rejected _ => False
| .over => False

/- Steps of the mount without any source but one. -/
def MountLabel.Alone (i : Nat) : MountLabel → Prop
| .player _ _ => True
| .relay _ _ => True
| .arrive _ _ _ _ => False
| .source j _ _ => j = i
| .capture _ _ => True
| .kick => True
| .cancelTask => True

namespace MountSystem

/- A request has found that the task holds the slot. -/
structure Found
    (i : Nat)
    (s : MountSystem) : Prop where
  request :
    ∃ h, s.sources[i]? = some h ∧ h.phase = .setPending
  held : s.task.role.Holds

/-
  Nobody claims the slot before the request, and the
  exchange of the request does not fail. `first` is the
  token the next claim draws.
-/
def HandsOver
    (i : Nat)
    (first : Token)
    (s : MountSystem) : Prop :=
  ∀ h ∈ s.sources[i]?,
    (h.phase.Preempting → s.slot.nextToken = first) ∧
      h.phase ≠ .rejected 409

end MountSystem

/- The task makes no other pass after the one it is in. -/
def Task.Last (shutdown : Bool) : Task → Prop
| .player loopPlaylist _ =>
    loopPlaylist = false ∨ shutdown = true
| .relay _ => shutdown = true

/-
  A step from which the task comes back to the slot by
  itself: the pass ends by itself and another one follows,
  the flag is read before it is set, or a permit is stored
  for the wait.
-/
def PlayerPhase.ComesBack
    (loopPlaylist : Bool)
    (s : Slot)
    (ends : Bool) : PlayerPhase → Prop
| .playing _ _ => ends = true ∧ loopPlaylist = true
| .swapPending => s.mount.preemptPending = false
| .parkPoll => s.mount.nonLiveResume.permit = true
| .top => False
| .loadConnected => False
| .waiting _ => False
| .afterWait => False
| .scan => False
| .idle => False
| .claim => False
| .installing _ => False
| .readCancel => False
| .releasing _ _ => False
| .passed _ => False
| .parkAsleep => False
| .returned => False

def RelayPhase.ComesBack
    (s : Slot)
    (ends : Bool) : RelayPhase → Prop
| .connecting token =>
    ends = true ∧ s.cancelled token = false
| .streaming token =>
    ends = true ∧ s.cancelled token = false
| .swapPending => s.mount.preemptPending = false
| .parkPoll => s.mount.nonLiveResume.permit = true
| .top => False
| .loadConnected => False
| .loadKind => False
| .waiting _ => False
| .afterWait => False
| .claim => False
| .installing _ => False
| .readCancel => False
| .releasing _ _ => False
| .passed _ => False
| .backingOff => False
| .parkAsleep => False
| .returned => False
| .panicked => False

def Task.ComesBack
    (s : Slot)
    (ends : Bool) : Task → Prop
| .player loopPlaylist phase =>
    phase.ComesBack loopPlaylist s ends
| .relay phase => phase.ComesBack s ends

namespace MountSystem

/-
  No such step before the claim, unless the task is
  cancelled.
-/
def StaysAway
    (i : Nat)
    (s : MountSystem)
    (ends : Bool) : Prop :=
  (∀ h ∈ s.sources[i]?, h.phase.Preempting) →
    s.shutdown = false →
      ¬ s.task.ComesBack s.slot ends

def Unhindered
    (i : Nat)
    (s : MountSystem)
    (label : MountLabel) : Prop :=
  match label with
  | .player _ event => s.StaysAway i event.ends
  | .relay _ event => s.StaysAway i event.ends
  | .arrive _ _ _ _ => True
  | .source _ _ _ => True
  | .capture _ _ => True
  | .kick => True
  | .cancelTask => True

end MountSystem

end RustyIce

------------------------------------------------------------
-- A Task That Yields
------------------------------------------------------------

namespace RustyIce

/-
  What a step that claims nothing leaves of the slot: the
  next token, and that it is free if it is.
-/
structure Slot.Unclaimed (s t : Slot) : Prop where
  token : t.nextToken = s.nextToken
  free :
    s.mount.sourceConnected = false →
      t.mount.sourceConnected = false

namespace Slot

theorem Unclaimed.refl (s : Slot) : s.Unclaimed s :=
  ⟨rfl, id⟩

theorem unclaimed_exec
    (now : Nat)
    (s : Slot)
    (op : SlotOp) :
    s.Unclaimed (op.exec now s) := by
  cases op with
  | clearConnected => exact ⟨rfl, fun _ => rfl⟩
  | _ => exact ⟨rfl, id⟩

theorem unclaimed_storeHeader
    (s : Slot)
    (headers : Option Bytes) :
    s.Unclaimed (s.storeHeader headers) := by
  cases headers with
  | none => exact .refl s
  | some bytes => exact ⟨rfl, id⟩

theorem unclaimed_kick (s : Slot) :
    s.Unclaimed s.kick := by
  unfold kick
  cases s.mount.sourceCancel with
  | none => exact .refl s
  | some token => exact ⟨rfl, id⟩

end Slot

/-
  The task is in its pass, or parks after it until it is
  notified, or is on its way out.
-/
def PlayerPhase.Yields
    (loopPlaylist shutdown : Bool)
    (s : Slot) : PlayerPhase → Prop
| .installing _ => True
| .readCancel => True
| .playing _ _ => True
| .releasing _ .cancelled => True
| .releasing _ .completed =>
    loopPlaylist = false ∨ shutdown = true
| .passed .cancelled => True
| .passed .completed =>
    loopPlaylist = false ∨ shutdown = true
| .swapPending => True
| .parkPoll => True
| .parkAsleep =>
    s.mount.nonLiveResume.waiter = .enqueued
| .top => shutdown = true
| .returned => True
| .loadConnected => False
| .waiting _ => False
| .afterWait => False
| .scan => False
| .idle => False
| .claim => False

def RelayPhase.Yields
    (shutdown : Bool)
    (s : Slot) : RelayPhase → Prop
| .installing _ => True
| .readCancel => True
| .connecting _ => True
| .streaming _ => True
| .releasing _ .cancelled => True
| .releasing _ .ok => shutdown = true
| .releasing _ .failed => shutdown = true
| .passed .cancelled => True
| .passed .ok => shutdown = true
| .passed .failed => shutdown = true
| .backingOff => shutdown = true
| .swapPending => True
| .parkPoll => True
| .parkAsleep =>
    s.mount.nonLiveResume.waiter = .enqueued
| .top => shutdown = true
| .returned => True
| .panicked => True
| .loadConnected => False
| .loadKind => False
| .waiting _ => False
| .afterWait => False
| .claim => False

def Task.Yields
    (shutdown : Bool)
    (s : Slot) : Task → Prop
| .player loopPlaylist phase =>
    phase.Yields loopPlaylist shutdown s
| .relay phase => phase.Yields shutdown s

namespace PlayerPhase

variable {loopPlaylist shutdown : Bool}
variable {now : Nat}
variable {event : PlayerEvent}
variable {s s' : Slot}

theorem yields_of_playStep
    {token : Token}
    {combined : Bool}
    {phase' : PlayerPhase}
    (hAway :
      shutdown = false →
        ¬ (playing token combined).ComesBack loopPlaylist s
            event.ends)
    (hStep :
      playStep shutdown event s token combined =
        some (phase', s')) :
    phase'.Yields loopPlaylist shutdown s' ∧
      s.Unclaimed s' := by
  unfold playStep at hStep
  split at hStep
  · split at hStep
    · cases hStep
      exact ⟨trivial, .refl s⟩
    · cases hStep
  · split at hStep
    · cases hStep
      exact ⟨trivial, .refl s⟩
    · cases hStep
      exact ⟨trivial, s.unclaimed_storeHeader _⟩
  · cases hStep
    refine ⟨?_, .refl s⟩
    show loopPlaylist = false ∨ shutdown = true
    cases hShutdown : shutdown with
    | true => exact .inr rfl
    | false =>
        left
        have hOnce := hAway hShutdown
        simpa [ComesBack, PlayerEvent.ends] using hOnce
  · cases hStep
  · cases hStep

theorem yields_of_step
    {phase phase' : PlayerPhase}
    (hYields : phase.Yields loopPlaylist shutdown s)
    (hAway :
      shutdown = false →
        ¬ phase.ComesBack loopPlaylist s event.ends)
    (hStep :
      phase.step loopPlaylist shutdown now event s =
        some (phase', s')) :
    phase'.Yields loopPlaylist shutdown s' ∧
      s.Unclaimed s' := by
  cases phase with
  | top =>
      simp only [step] at hStep
      rw [if_pos (show shutdown = true from hYields)] at hStep
      cases hStep
      exact ⟨trivial, .refl s⟩
  | installing todo =>
      cases todo with
      | nil =>
          cases hStep
          exact ⟨trivial, .refl s⟩
      | cons op rest =>
          cases hStep
          exact ⟨trivial, s.unclaimed_exec now op⟩
  | readCancel =>
      simp only [step] at hStep
      split at hStep
      · cases hStep
        exact ⟨trivial, .refl s⟩
      · cases hStep
        exact ⟨trivial, .refl s⟩
  | playing token combined =>
      exact yields_of_playStep hAway hStep
  | releasing todo outcome =>
      cases todo with
      | nil =>
          cases hStep
          cases outcome with
          | cancelled => exact ⟨trivial, .refl s⟩
          | completed => exact ⟨hYields, .refl s⟩
      | cons op rest =>
          cases hStep
          cases outcome with
          | cancelled =>
              exact ⟨trivial, s.unclaimed_exec now op⟩
          | completed =>
              exact ⟨hYields, s.unclaimed_exec now op⟩
  | passed outcome =>
      cases outcome with
      | cancelled =>
          simp only [step] at hStep
          split at hStep
          · cases hStep
            exact ⟨trivial, .refl s⟩
          · cases hStep
            exact ⟨trivial, .refl s⟩
      | completed =>
          simp only [step] at hStep
          split at hStep
          · rename_i hLoop
            cases hStep
            refine ⟨?_, .refl s⟩
            rcases hYields with hOnce | hShutdown
            · rw [hLoop] at hOnce
              cases hOnce
            · exact hShutdown
          · cases hStep
            exact ⟨trivial, .refl s⟩
  | swapPending =>
      simp only [step] at hStep
      split at hStep
      · cases hStep
        exact ⟨trivial, rfl, id⟩
      · rename_i hPending
        cases hStep
        refine ⟨?_, rfl, id⟩
        show shutdown = true
        by_contra hShutdown
        exact
          hAway (eq_false_of_ne_true hShutdown)
            (eq_false_of_ne_true hPending)
  | parkPoll =>
      simp only [step] at hStep
      split at hStep
      · rename_i hPermit
        rw [Library.Notify.pollNotified_fst] at hPermit
        cases hStep
        refine ⟨?_, rfl, id⟩
        show shutdown = true
        by_contra hShutdown
        exact hAway (eq_false_of_ne_true hShutdown) hPermit
      · rename_i hPoll
        cases hStep
        exact
          ⟨Library.Notify.waiter_of_pollNotified
              (eq_false_of_ne_true hPoll),
            rfl, id⟩
  | parkAsleep =>
      have hQueued :
          s.mount.nonLiveResume.waiter = .enqueued := hYields
      simp only [step, Library.Notify.wake, hQueued] at hStep
      cases hStep
  | returned => cases hStep
  | loadConnected => exact absurd hYields id
  | waiting wait => exact absurd hYields id
  | afterWait => exact absurd hYields id
  | scan => exact absurd hYields id
  | idle => exact absurd hYields id
  | claim => exact absurd hYields id

end PlayerPhase

namespace RelayPhase

variable {shutdown : Bool}
variable {now : Nat}
variable {event : RelayEvent}
variable {s s' : Slot}

theorem yields_of_connectStep
    {token : Token}
    {phase' : RelayPhase}
    (hAway :
      shutdown = false →
        ¬ (connecting token).ComesBack s event.ends)
    (hStep :
      connectStep shutdown event s token =
        some (phase', s')) :
    phase'.Yields shutdown s' ∧ s.Unclaimed s' := by
  unfold connectStep at hStep
  split at hStep
  · cases hStep
    exact ⟨trivial, .refl s⟩
  · rename_i hNeither
    rw [Bool.or_eq_true, not_or, Bool.not_eq_true,
      Bool.not_eq_true] at hNeither
    cases event with
    | connected codec =>
        cases hStep
        exact ⟨trivial, rfl, id⟩
    | connectFailed =>
        exact
          absurd ⟨rfl, hNeither.2⟩ (hAway hNeither.1)
    | go => cases hStep
    | data captured => cases hStep
    | eof => cases hStep
    | streamFailed => cases hStep

theorem yields_of_streamStep
    {token : Token}
    {phase' : RelayPhase}
    (hAway :
      shutdown = false →
        ¬ (streaming token).ComesBack s event.ends)
    (hStep :
      streamStep event s token = some (phase', s')) :
    phase'.Yields shutdown s' ∧ s.Unclaimed s' := by
  unfold streamStep at hStep
  split at hStep
  · cases hStep
    exact ⟨trivial, .refl s⟩
  · rename_i hKept
    have hLast : event.ends = true → shutdown = true := by
      intro hEnds
      by_contra hShutdown
      exact
        hAway (eq_false_of_ne_true hShutdown)
          ⟨hEnds, eq_false_of_ne_true hKept⟩
    cases event with
    | data captured =>
        cases hStep
        exact ⟨trivial, s.unclaimed_storeHeader captured⟩
    | eof =>
        cases hStep
        exact ⟨hLast rfl, .refl s⟩
    | streamFailed =>
        cases hStep
        exact ⟨hLast rfl, .refl s⟩
    | go => cases hStep
    | connected codec => cases hStep
    | connectFailed => cases hStep

theorem yields_of_step
    {phase phase' : RelayPhase}
    (hYields : phase.Yields shutdown s)
    (hAway :
      shutdown = false → ¬ phase.ComesBack s event.ends)
    (hStep :
      phase.step shutdown now event s = some (phase', s')) :
    phase'.Yields shutdown s' ∧ s.Unclaimed s' := by
  cases phase with
  | top =>
      simp only [step] at hStep
      rw [if_pos (show shutdown = true from hYields)] at hStep
      cases hStep
      exact ⟨trivial, .refl s⟩
  | installing todo =>
      cases todo with
      | nil =>
          cases hStep
          exact ⟨trivial, .refl s⟩
      | cons op rest =>
          cases hStep
          exact ⟨trivial, s.unclaimed_exec now op⟩
  | readCancel =>
      simp only [step] at hStep
      split at hStep
      · cases hStep
        exact ⟨trivial, .refl s⟩
      · cases hStep
        exact ⟨trivial, .refl s⟩
  | connecting token =>
      exact yields_of_connectStep hAway hStep
  | streaming token => exact yields_of_streamStep hAway hStep
  | releasing todo outcome =>
      cases todo with
      | nil =>
          cases hStep
          refine ⟨?_, .refl s⟩
          cases outcome with
          | cancelled => exact trivial
          | ok => exact hYields
          | failed => exact hYields
      | cons op rest =>
          cases hStep
          refine ⟨?_, s.unclaimed_exec now op⟩
          cases outcome with
          | cancelled => exact trivial
          | ok => exact hYields
          | failed => exact hYields
  | passed outcome =>
      cases outcome with
      | cancelled =>
          simp only [step] at hStep
          split at hStep
          · cases hStep
            exact ⟨trivial, .refl s⟩
          · cases hStep
            exact ⟨trivial, .refl s⟩
      | ok =>
          cases hStep
          exact ⟨hYields, .refl s⟩
      | failed =>
          cases hStep
          exact ⟨hYields, .refl s⟩
  | backingOff =>
      simp only [step] at hStep
      rw [if_pos (show shutdown = true from hYields)] at hStep
      cases hStep
      exact ⟨trivial, .refl s⟩
  | swapPending =>
      simp only [step] at hStep
      split at hStep
      · cases hStep
        exact ⟨trivial, rfl, id⟩
      · rename_i hPending
        cases hStep
        refine ⟨?_, rfl, id⟩
        show shutdown = true
        by_contra hShutdown
        exact
          hAway (eq_false_of_ne_true hShutdown)
            (eq_false_of_ne_true hPending)
  | parkPoll =>
      simp only [step] at hStep
      split at hStep
      · cases hStep
        exact ⟨trivial, .refl s⟩
      · rename_i hShutdown
        split at hStep
        · rename_i hPermit
          rw [Library.Notify.pollNotified_fst] at hPermit
          exact
            absurd hPermit
              (hAway (eq_false_of_ne_true hShutdown))
        · rename_i hPoll
          cases hStep
          exact
            ⟨Library.Notify.waiter_of_pollNotified
                (eq_false_of_ne_true hPoll),
              rfl, id⟩
  | parkAsleep =>
      have hQueued :
          s.mount.nonLiveResume.waiter = .enqueued := hYields
      simp only [step, Library.Notify.wake, hQueued] at hStep
      split at hStep
      · cases hStep
        exact ⟨trivial, rfl, id⟩
      · cases hStep
  | returned => cases hStep
  | panicked => cases hStep
  | loadConnected => exact absurd hYields id
  | loadKind => exact absurd hYields id
  | waiting wait => exact absurd hYields id
  | afterWait => exact absurd hYields id
  | claim => exact absurd hYields id

end RelayPhase

/- A task in its pass yields, and so does one after its last. -/
theorem PlayerPhase.yields_of_holds
    {loopPlaylist shutdown : Bool}
    {phase : PlayerPhase}
    (s : Slot)
    (hHeld : phase.role.Holds)
    (hLast :
      phase.role = .leaving →
        loopPlaylist = false ∨ shutdown = true) :
    phase.Yields loopPlaylist shutdown s := by
  cases phase with
  | installing todo => trivial
  | readCancel => trivial
  | playing token combined => trivial
  | releasing todo outcome =>
      cases outcome with
      | cancelled => trivial
      | completed =>
          by_cases hTodo : .clearConnected ∈ todo
          · apply hLast
            simp [role, releaseRole, hTodo]
          · simp [role, releaseRole, hTodo,
              TaskRole.Holds] at hHeld
  | passed outcome =>
      cases outcome with
      | cancelled => trivial
      | completed => exact absurd hHeld (by decide)
  | waiting wait =>
      cases wait with
      | load => exact absurd hHeld (by decide)
      | poll => exact absurd hHeld (by decide)
      | asleep => exact absurd hHeld (by decide)
  | _ => exact absurd hHeld (by decide)

theorem RelayPhase.yields_of_holds
    {shutdown : Bool}
    {phase : RelayPhase}
    (s : Slot)
    (hHeld : phase.role.Holds)
    (hLast : phase.role = .leaving → shutdown = true) :
    phase.Yields shutdown s := by
  cases phase with
  | installing todo => trivial
  | readCancel => trivial
  | connecting token => trivial
  | streaming token => trivial
  | releasing todo outcome =>
      have hLeft :
          outcome ≠ .cancelled → shutdown = true := by
        intro hOther
        by_cases hTodo : .clearConnected ∈ todo
        · apply hLast
          simp [role, releaseRole, hTodo, hOther]
        · simp [role, releaseRole, hTodo, hOther,
            TaskRole.Holds] at hHeld
      cases outcome with
      | cancelled => trivial
      | ok => exact hLeft (by decide)
      | failed => exact hLeft (by decide)
  | passed outcome =>
      cases outcome with
      | cancelled => trivial
      | ok => exact absurd hHeld (by decide)
      | failed => exact absurd hHeld (by decide)
  | waiting wait =>
      cases wait with
      | load => exact absurd hHeld (by decide)
      | poll => exact absurd hHeld (by decide)
      | asleep => exact absurd hHeld (by decide)
  | _ => exact absurd hHeld (by decide)

namespace Task

theorem yields_of_holds
    {task : Task}
    {shutdown : Bool}
    (s : Slot)
    (hHeld : task.role.Holds)
    (hLast : task.role = .leaving → task.Last shutdown) :
    task.Yields shutdown s := by
  cases task with
  | player loopPlaylist phase =>
      exact phase.yields_of_holds s hHeld hLast
  | relay phase => exact phase.yields_of_holds s hHeld hLast

/-
  What others do before the request claims is of no account:
  it wakes nobody, and a cancelled task stays cancelled.
-/
theorem Yields.mono
    {task : Task}
    {shutdown shutdown' : Bool}
    {s s' : Slot}
    (hYields : task.Yields shutdown s)
    (hShutdown : shutdown = true → shutdown' = true)
    (hResume :
      s'.mount.nonLiveResume = s.mount.nonLiveResume) :
    task.Yields shutdown' s' := by
  cases task with
  | player loopPlaylist phase =>
      cases phase with
      | releasing todo outcome =>
          cases outcome with
          | cancelled => exact trivial
          | completed => exact hYields.imp_right hShutdown
      | passed outcome =>
          cases outcome with
          | cancelled => exact trivial
          | completed => exact hYields.imp_right hShutdown
      | top => exact hShutdown hYields
      | parkAsleep =>
          show s'.mount.nonLiveResume.waiter = .enqueued
          rw [hResume]
          exact hYields
      | _ => exact hYields
  | relay phase =>
      cases phase with
      | releasing todo outcome =>
          cases outcome with
          | cancelled => exact trivial
          | ok => exact hShutdown hYields
          | failed => exact hShutdown hYields
      | passed outcome =>
          cases outcome with
          | cancelled => exact trivial
          | ok => exact hShutdown hYields
          | failed => exact hShutdown hYields
      | backingOff => exact hShutdown hYields
      | top => exact hShutdown hYields
      | parkAsleep =>
          show s'.mount.nonLiveResume.waiter = .enqueued
          rw [hResume]
          exact hYields
      | _ => exact hYields

end Task

end RustyIce

------------------------------------------------------------
-- The Request
------------------------------------------------------------

namespace RustyIce

namespace SourcePhase

/- The request saw the slot free. -/
def Arriving : SourcePhase → Prop
| .verify => True
| .checkCodec => True
| .claim => True
| _ => False

/- The request claimed the slot, or gave up before. -/
def Settled : SourcePhase → Prop
| .installing _ _ => True
| .streaming _ => True
| .dropping _ => True
| .rejected status => status ≠ 409
| .over => True
| _ => False

/-
  A preempting request leaves the slot to the task, and to
  nobody, until its claim; the claim finds the slot free if
  it was free before.
-/
theorem preempting_step
    {req : SourceRequest}
    {env : SourceEnv}
    {s s' : Slot}
    {phase phase' : SourcePhase}
    (hPhase : phase.Preempting)
    (hFree :
      phase.Arriving → s.mount.sourceConnected = false)
    (hStep : phase.step req env s = some (phase', s')) :
    (phase'.Preempting ∧
        (phase'.Arriving →
          s'.mount.sourceConnected = false) ∧
          s'.nextToken = s.nextToken ∧
            s'.mount.nonLiveResume = s.mount.nonLiveResume) ∨
      phase'.Settled := by
  cases phase with
  | setPending =>
      cases hStep
      exact .inl ⟨trivial, fun h => absurd h id, rfl, rfl⟩
  | readCancel =>
      simp only [step] at hStep
      split at hStep
      · cases hStep
        exact .inl ⟨trivial, fun h => absurd h id, rfl, rfl⟩
      · cases hStep
        exact .inl ⟨trivial, fun h => absurd h id, rfl, rfl⟩
  | cancelOwner token =>
      cases hStep
      exact .inl ⟨trivial, fun h => absurd h id, rfl, rfl⟩
  | polling =>
      simp only [step] at hStep
      split at hStep
      · split at hStep
        · cases hStep
          exact .inr (show (500 : Nat) ≠ 409 by decide)
        · cases hStep
          exact
            .inl ⟨trivial, fun h => absurd h id, rfl, rfl⟩
      · rename_i hConnected
        cases hStep
        exact
          .inl
            ⟨trivial,
              fun _ => eq_false_of_ne_true hConnected, rfl,
              rfl⟩
  | verify =>
      simp only [step] at hStep
      split at hStep
      · cases hStep
        exact .inl ⟨trivial, fun _ => hFree trivial, rfl, rfl⟩
      · cases hStep
        exact .inr (show (401 : Nat) ≠ 409 by decide)
  | checkCodec =>
      simp only [step] at hStep
      split at hStep
      · cases hStep
        exact .inl ⟨trivial, fun _ => hFree trivial, rfl, rfl⟩
      · cases hStep
        exact .inr (show (415 : Nat) ≠ 409 by decide)
  | claim =>
      simp only [step, hFree trivial, Bool.false_eq_true,
        if_false] at hStep
      cases hStep
      exact .inr trivial
  | checkConnected => exact absurd hPhase id
  | checkKind => exact absurd hPhase id
  | installing todo token => exact absurd hPhase id
  | streaming token => exact absurd hPhase id
  | dropping todo => exact absurd hPhase id
  | rejected status => exact absurd hPhase id
  | «over» => exact absurd hPhase id

theorem settled_step
    {req : SourceRequest}
    {env : SourceEnv}
    {s s' : Slot}
    {phase phase' : SourcePhase}
    (hPhase : phase.Settled)
    (hStep : phase.step req env s = some (phase', s')) :
    phase'.Settled := by
  cases phase with
  | installing todo token =>
      cases todo with
      | nil =>
          cases hStep
          trivial
      | cons op rest =>
          cases hStep
          trivial
  | streaming token =>
      cases hStep
      trivial
  | dropping todo =>
      cases todo with
      | nil =>
          cases hStep
          trivial
      | cons op rest =>
          cases hStep
          trivial
  | rejected status => cases hStep
  | «over» => cases hStep
  | setPending => exact absurd hPhase id
  | readCancel => exact absurd hPhase id
  | cancelOwner token => exact absurd hPhase id
  | polling => exact absurd hPhase id
  | verify => exact absurd hPhase id
  | checkCodec => exact absurd hPhase id
  | claim => exact absurd hPhase id
  | checkConnected => exact absurd hPhase id
  | checkKind => exact absurd hPhase id

theorem not_preempting_of_settled
    {phase : SourcePhase}
    (hSettled : phase.Settled) :
    ¬ phase.Preempting := by
  intro hPreempting
  cases phase <;> first | exact hSettled | exact hPreempting

theorem ne_busy_of_settled
    {phase : SourcePhase}
    (hSettled : phase.Settled) :
    phase ≠ .rejected 409 := by
  rintro rfl
  exact hSettled rfl

theorem ne_busy_of_preempting
    {phase : SourcePhase}
    (hPreempting : phase.Preempting) :
    phase ≠ .rejected 409 := by
  rintro rfl
  exact hPreempting

end SourcePhase

end RustyIce

------------------------------------------------------------
-- The Hand-Over
------------------------------------------------------------

namespace RustyIce

namespace MountSystem

/-
  The request is on its way to the claim and the task
  yields, or the request is past it.
-/
inductive HandOver
    (i : Nat)
    (first : Token)
    (s : MountSystem) : Prop where
| coming (h : Source) :
    s.sources[i]? = some h →
      h.phase.Preempting →
        (h.phase.Arriving →
            s.slot.mount.sourceConnected = false) →
          s.task.Yields s.shutdown s.slot →
            s.slot.nextToken = first →
              HandOver i first s
| settled (h : Source) :
    s.sources[i]? = some h →
      h.phase.Settled →
        HandOver i first s

theorem HandOver.handsOver
    {i : Nat}
    {first : Token}
    {s : MountSystem}
    (hOver : s.HandOver i first) :
    s.HandsOver i first := by
  intro other hOther
  cases hOver with
  | coming h hSome hPhase hFree hYields hToken =>
      cases hSome.symm.trans hOther
      exact
        ⟨fun _ => hToken,
          SourcePhase.ne_busy_of_preempting hPhase⟩
  | settled h hSome hPhase =>
      cases hSome.symm.trans hOther
      refine
        ⟨fun hPreempting => ?_,
          SourcePhase.ne_busy_of_settled hPhase⟩
      exact
        absurd hPreempting
          (SourcePhase.not_preempting_of_settled hPhase)

/- A step that claims nothing and leaves the requests alone. -/
theorem HandOver.beside
    {i : Nat}
    {first : Token}
    {s t : MountSystem}
    (hOver : s.HandOver i first)
    (hSources : t.sources = s.sources)
    (hTask :
      (∀ h ∈ s.sources[i]?, h.phase.Preempting) →
        s.task.Yields s.shutdown s.slot →
          t.task.Yields t.shutdown t.slot ∧
            s.slot.Unclaimed t.slot) :
    t.HandOver i first := by
  cases hOver with
  | coming h hSome hPhase hFree hYields hToken =>
      have hThis :
          ∀ other ∈ s.sources[i]?,
            other.phase.Preempting := by
        intro other hOther
        cases hSome.symm.trans hOther
        exact hPhase
      rcases hTask hThis hYields with ⟨hNext, hSlot⟩
      refine .coming h ?_ hPhase ?_ hNext ?_
      · rw [hSources]
        exact hSome
      · intro hArriving
        exact hSlot.free (hFree hArriving)
      · exact hSlot.token.trans hToken
  | settled h hSome hPhase =>
      refine .settled h ?_ hPhase
      rw [hSources]
      exact hSome

theorem HandOver.step
    {i : Nat}
    {first : Token}
    {s t : MountSystem}
    {label : MountLabel}
    (hOver : s.HandOver i first)
    (hAlone : label.Alone i)
    (hAway : s.Unhindered i label)
    (hStep : s.step label = some t) :
    t.HandOver i first := by
  cases label with
  | player now event =>
      rcases MountSystem.player_step_ok hStep with
        ⟨loopPlaylist, phase, next, slot, hTask, hMove, rfl⟩
      refine hOver.beside rfl ?_
      intro hPhase hYields
      rw [hTask] at hYields
      have hStays := hAway hPhase
      rw [hTask] at hStays
      exact
        PlayerPhase.yields_of_step hYields hStays hMove
  | relay now event =>
      rcases MountSystem.relay_step_ok hStep with
        ⟨phase, next, slot, hTask, hMove, rfl⟩
      refine hOver.beside rfl ?_
      intro hPhase hYields
      rw [hTask] at hYields
      have hStays := hAway hPhase
      rw [hTask] at hStays
      exact
        RelayPhase.yields_of_step hYields hStays hMove
  | arrive codec overlay authorised accepted =>
      exact absurd hAlone id
  | source j now expired =>
      have hSame : j = i := hAlone
      subst hSame
      rcases MountSystem.source_step_ok hStep with
        ⟨h, next, slot, hSome, hMove, rfl⟩
      have hLess := (List.getElem?_eq_some_iff.mp hSome).1
      have hNext :
          (s.sources.set j { h with phase := next })[j]? =
            some { h with phase := next } :=
        List.getElem?_set_self hLess
      cases hOver with
      | coming k hOld hPhase hFree hYields hToken =>
          cases hSome.symm.trans hOld
          rcases SourcePhase.preempting_step hPhase hFree
              hMove with
            ⟨hPhase', hFree', hToken', hResume⟩ | hSettled
          · exact
              .coming _ hNext hPhase' hFree'
                (hYields.mono id hResume)
                (hToken'.trans hToken)
          · exact .settled _ hNext hSettled
      | settled k hOld hPhase =>
          cases hSome.symm.trans hOld
          exact
            .settled _ hNext
              (SourcePhase.settled_step hPhase hMove)
  | capture j headers =>
      rcases MountSystem.capture_step_ok hStep with
        ⟨_, _, _, _, rfl⟩
      refine hOver.beside rfl ?_
      intro _ hYields
      refine
        ⟨hYields.mono id rfl,
          s.slot.unclaimed_storeHeader (some headers)⟩
  | kick =>
      cases hStep
      refine hOver.beside rfl ?_
      intro _ hYields
      refine
        ⟨hYields.mono id ?_, s.slot.unclaimed_kick⟩
      exact congrArg Gate.resume s.slot.gate_kick
  | cancelTask =>
      cases hStep
      refine hOver.beside rfl ?_
      intro _ hYields
      exact
        ⟨hYields.mono (fun _ => rfl) rfl, .refl s.slot⟩

/-
  From any state in which a request has found the slot held
  by the task, and is the only request to go on: the task
  does not claim the slot before the request, as long as it
  does not come back to it by itself.
-/
theorem preemption_hands_over
    {i : Nat}
    {s : MountSystem}
    (hFound : s.Found i)
    (hLast :
      s.task.role = .leaving → s.task.Last s.shutdown)
    {labels : List MountLabel}
    (hAlone : ∀ label ∈ labels, label.Alone i)
    (hAway : mountMachine.Admits (Unhindered i) s labels) :
    mountMachine.Along (HandsOver i s.slot.nextToken) s
      labels := by
  rcases hFound.request with ⟨h, hSome, hPhase⟩
  refine
    Library.Machine.Admits.along
      (I := HandOver i s.slot.nextToken) ?_ ?_ ?_ hAlone hAway
  · intro u label t hOver hOwn hOk hStep
    exact hOver.step hOwn hOk hStep
  · intro u hOver
    exact hOver.handsOver
  · refine .coming h hSome ?_ ?_ ?_ rfl
    · rw [hPhase]
      trivial
    · rw [hPhase]
      exact fun hArriving => absurd hArriving id
    · exact Task.yields_of_holds s.slot hFound.held hLast

/- From the top of its loop a task claims a free slot. -/
theorem player_claims
    (slot : Slot)
    (loopPlaylist : Bool)
    (sources : List Source)
    (hFree : slot.mount.sourceConnected = false) :
    ∃ u,
      mountMachine.run
          { slot := slot
            shutdown := false
            task := .player loopPlaylist .top
            sources := sources }
          [.player 0 .go, .player 0 .go,
            .player 0 (.scanned .tracks), .player 0 .go] =
        some u ∧
        u.sources = sources ∧
          u.slot.nextToken = slot.nextToken + 1 := by
  simp [Library.Machine.run, mountMachine, step,
    PlayerPhase.step, hFree, Slot.connect]

theorem relay_claims
    (slot : Slot)
    (sources : List Source)
    (hFree : slot.mount.sourceConnected = false) :
    ∃ u,
      mountMachine.run
          { slot := slot
            shutdown := false
            task := .relay .top
            sources := sources }
          (List.replicate 3 (.relay 0 .go)) =
        some u ∧
        u.sources = sources ∧
          u.slot.nextToken = slot.nextToken + 1 := by
  simp [Library.Machine.run, mountMachine, step,
    RelayPhase.step, hFree, Slot.connect,
    List.replicate_succ]

theorem player_comesBack
    {slot slot' : Slot}
    {loopPlaylist : Bool}
    {now : Nat}
    {event : PlayerEvent}
    {phase phase' : PlayerPhase}
    (sources : List Source)
    (hFree :
      ¬ phase.role.Holds →
        slot.mount.sourceConnected = false)
    (hBack : phase.ComesBack loopPlaylist slot event.ends)
    (hStep :
      phase.step loopPlaylist false now event slot =
        some (phase', slot')) :
    ∃ labels u,
      (∀ label ∈ labels, ∃ e, label = .player 0 e) ∧
        mountMachine.run
            { slot := slot'
              shutdown := false
              task := .player loopPlaylist phase'
              sources := sources }
            labels =
          some u ∧
          u.sources = sources ∧
            u.slot.nextToken = slot.nextToken + 1 := by
  cases phase with
  | playing token combined =>
      rcases hBack with ⟨hEnds, rfl⟩
      cases event with
      | finish =>
          cases hStep
          refine
            ⟨List.replicate 10 (.player 0 .go) ++
                [.player 0 (.scanned .tracks),
                  .player 0 .go],
              _, ?_, rfl, rfl, rfl⟩
          simp
      | go => cases hEnds
      | scanned result => cases hEnds
      | bridge => cases hEnds
      | chunk captured => cases hEnds
  | swapPending =>
      have hPending : slot.mount.preemptPending = false :=
        hBack
      simp only [PlayerPhase.step, hPending,
        Bool.false_eq_true, if_false] at hStep
      cases hStep
      rcases player_claims (slot.storePending false)
          loopPlaylist sources (hFree (by decide)) with ⟨u, hRun, hRest⟩
      exact ⟨_, u, by simp, hRun, hRest⟩
  | parkPoll =>
      have hPermit :
          slot.mount.nonLiveResume.permit = true := hBack
      simp only [PlayerPhase.step,
        Library.Notify.pollNotified, hPermit, if_true]
        at hStep
      cases hStep
      rcases player_claims
          (slot.storeResume
            { slot.mount.nonLiveResume with permit := false })
          loopPlaylist sources (hFree (by decide)) with ⟨u, hRun, hRest⟩
      exact ⟨_, u, by simp, hRun, hRest⟩
  | _ => exact absurd hBack id

theorem relay_comesBack
    {slot slot' : Slot}
    {now : Nat}
    {event : RelayEvent}
    {phase phase' : RelayPhase}
    (sources : List Source)
    (hFree :
      ¬ phase.role.Holds →
        slot.mount.sourceConnected = false)
    (hBack : phase.ComesBack slot event.ends)
    (hStep :
      phase.step false now event slot =
        some (phase', slot')) :
    ∃ labels u,
      (∀ label ∈ labels, ∃ e, label = .relay 0 e) ∧
        mountMachine.run
            { slot := slot'
              shutdown := false
              task := .relay phase'
              sources := sources }
            labels =
          some u ∧
          u.sources = sources ∧
            u.slot.nextToken = slot.nextToken + 1 := by
  have hGo :
      ∀ label ∈ List.replicate 12 (.relay 0 .go),
        ∃ e, label = MountLabel.relay 0 e := by
    simp
  cases phase with
  | connecting token =>
      rcases hBack with ⟨hEnds, hKept⟩
      simp only [RelayPhase.step, RelayPhase.connectStep,
        hKept, Bool.or_self, Bool.false_eq_true, if_false]
        at hStep
      cases event with
      | connectFailed =>
          cases hStep
          exact ⟨_, _, hGo, rfl, rfl, rfl⟩
      | eof => cases hStep
      | streamFailed => cases hStep
      | go => cases hEnds
      | connected codec => cases hEnds
      | data captured => cases hEnds
  | streaming token =>
      rcases hBack with ⟨hEnds, hKept⟩
      simp only [RelayPhase.step, RelayPhase.streamStep,
        hKept, Bool.false_eq_true, if_false] at hStep
      cases event with
      | connectFailed => cases hStep
      | eof =>
          cases hStep
          exact ⟨_, _, hGo, rfl, rfl, rfl⟩
      | streamFailed =>
          cases hStep
          exact ⟨_, _, hGo, rfl, rfl, rfl⟩
      | go => cases hEnds
      | connected codec => cases hEnds
      | data captured => cases hEnds
  | swapPending =>
      have hPending : slot.mount.preemptPending = false :=
        hBack
      simp only [RelayPhase.step, hPending,
        Bool.false_eq_true, if_false] at hStep
      cases hStep
      rcases relay_claims (slot.storePending false) sources
          (hFree (by decide)) with ⟨u, hRun, hRest⟩
      exact ⟨_, u, by simp, hRun, hRest⟩
  | parkPoll =>
      have hPermit :
          slot.mount.nonLiveResume.permit = true := hBack
      simp only [RelayPhase.step,
        Library.Notify.pollNotified, hPermit,
        Bool.false_eq_true, if_false, if_true] at hStep
      cases hStep
      rcases relay_claims
          (slot.storeResume
            { slot.mount.nonLiveResume with permit := false })
          sources (hFree (by decide)) with ⟨u, hRun, hRest⟩
      exact ⟨_, u, by simp, hRun, hRest⟩
  | _ => exact absurd hBack id

/-
  The condition leaves out only what goes wrong: after a
  step from which the task comes back, its own steps alone
  claim the slot, if no other party has taken it.
-/
theorem comesBack_claims
    {i : Nat}
    {s t : MountSystem}
    {label : MountLabel}
    {h : Source}
    (hSome : s.sources[i]? = some h)
    (hPhase : h.phase.Preempting)
    (hFree :
      ¬ s.task.role.Holds →
        s.slot.mount.sourceConnected = false)
    (hBack : ¬ s.Unhindered i label)
    (hStep : s.step label = some t) :
    ∃ labels u,
      (∀ other ∈ labels, other.Alone i) ∧
        mountMachine.run t labels = some u ∧
          ¬ u.HandsOver i s.slot.nextToken := by
  -- A claim that leaves the request where it is.
  have hEnough :
      ∀ u : MountSystem,
        u.sources = s.sources →
          u.slot.nextToken = s.slot.nextToken + 1 →
            ¬ u.HandsOver i s.slot.nextToken := by
    intro u hSources hToken hOver
    have hThis : u.sources[i]? = some h := by
      rw [hSources]
      exact hSome
    have hSame := (hOver h hThis).1 hPhase
    rw [hToken] at hSame
    exact Nat.succ_ne_self _ hSame
  rcases s with ⟨slot, shutdown, task, sources⟩
  cases label with
  | player now event =>
      simp only [Unhindered, StaysAway, Classical.not_imp,
        not_not] at hBack
      rcases hBack with ⟨_, rfl, hBack⟩
      cases task with
      | relay phase => cases hStep
      | player loopPlaylist phase =>
          simp only [step] at hStep
          split at hStep
          · cases hStep
          · rename_i next slot' hMove
            cases hStep
            rcases player_comesBack sources hFree hBack hMove
              with ⟨labels, u, hOwn, hRun, hSources, hToken⟩
            refine
              ⟨labels, u, ?_, hRun,
                hEnough u hSources hToken⟩
            intro other hMem
            rcases hOwn other hMem with ⟨e, rfl⟩
            trivial
  | relay now event =>
      simp only [Unhindered, StaysAway, Classical.not_imp,
        not_not] at hBack
      rcases hBack with ⟨_, rfl, hBack⟩
      cases task with
      | player loopPlaylist phase => cases hStep
      | relay phase =>
          simp only [step] at hStep
          split at hStep
          · cases hStep
          · rename_i next slot' hMove
            cases hStep
            rcases relay_comesBack sources hFree hBack hMove
              with ⟨labels, u, hOwn, hRun, hSources, hToken⟩
            refine
              ⟨labels, u, ?_, hRun,
                hEnough u hSources hToken⟩
            intro other hMem
            rcases hOwn other hMem with ⟨e, rfl⟩
            trivial
  | arrive codec overlay authorised accepted =>
      exact absurd trivial hBack
  | source j now expired => exact absurd trivial hBack
  | capture j headers => exact absurd trivial hBack
  | kick => exact absurd trivial hBack
  | cancelTask => exact absurd trivial hBack

instance
    (loopPlaylist : Bool)
    (s : Slot)
    (ends : Bool)
    (phase : PlayerPhase) :
    Decidable (phase.ComesBack loopPlaylist s ends) := by
  unfold PlayerPhase.ComesBack
  split <;> infer_instance

instance
    (s : Slot)
    (ends : Bool)
    (phase : RelayPhase) :
    Decidable (phase.ComesBack s ends) := by
  unfold RelayPhase.ComesBack
  split <;> infer_instance

instance
    (s : Slot)
    (ends : Bool)
    (task : Task) :
    Decidable (task.ComesBack s ends) := by
  unfold Task.ComesBack
  split <;> infer_instance

instance (phase : SourcePhase) :
    Decidable phase.Preempting := by
  unfold SourcePhase.Preempting
  split <;> infer_instance

instance
    (i : Nat)
    (s : MountSystem)
    (ends : Bool) :
    Decidable (s.StaysAway i ends) := by
  unfold StaysAway
  infer_instance

instance
    (i : Nat)
    (s : MountSystem)
    (label : MountLabel) :
    Decidable (s.Unhindered i label) :=
  match label with
  | .player _ event | .relay _ event =>
      inferInstanceAs (Decidable (s.StaysAway i event.ends))
  | .arrive _ _ _ _ | .source _ _ _ | .capture _ _ | .kick
  | .cancelTask => inferInstanceAs (Decidable True)

/- A rotation in its first pass; a live source finds it. -/
def liveArrives : List MountLabel :=
  playing ++ anySource true :: sourceSteps 2

/- The rotation is preempted and the source takes over. -/
def handedOver : List MountLabel :=
  sourceSteps 3 ++ .player 0 .bridge ::
    .player 0 (.chunk none) ::
      List.replicate 10 (.player 0 .go) ++ sourceSteps 4

theorem preemption_hands_over_liveArrives :
    ∃ s t,
      mountMachine.run (.idle (.player true .top))
          liveArrives = some s ∧
        mountMachine.run s handedOver = some t ∧
          mountMachine.Along (HandsOver 0 s.slot.nextToken) s
            handedOver := by
  refine ⟨_, _, rfl, rfl, ?_⟩
  refine preemption_hands_over ⟨⟨_, rfl, rfl⟩, ?_⟩ ?_ ?_ ?_
  · exact .inl rfl
  · intro hLeaving
    cases hLeaving
  · intro label hMem
    simp [handedOver, sourceSteps] at hMem
    rcases hMem with rfl | rfl | rfl | rfl | rfl <;> trivial
  · exact Library.Machine.admits_of_runUnder (t := _) rfl

/-
  A live source came and went while the rotation idled over
  an empty folder, so that its permit is kept. The rotation
  plays, and another live source finds it.
-/
def permitKept : List MountLabel :=
  List.replicate 2 (.player 0 .go) ++
      .player 0 (.scanned .empty) :: anySource true ::
        sourceSteps 18 ++
    .player 0 .go :: playing ++ anySource true ::
      List.replicate 2 (.source 1 0 false)

/-
  The cancelled rotation takes the permit for its wait and
  plays on before the source looks again.
-/
def reclaimed : List MountLabel :=
  List.replicate 3 (.source 1 0 false) ++ .player 0 .bridge ::
      .player 0 (.chunk none) ::
        List.replicate 12 (.player 0 .go) ++
    [.player 0 (.scanned .tracks), .player 0 .go]

theorem permitKept_reclaimed :
    ∃ s t u,
      mountMachine.Reachable s ∧
        mountMachine.run (.idle (.player true .top))
            permitKept = some s ∧
          s.Found 1 ∧
            s.task.role = .holding ∧
              (∀ label ∈ reclaimed, label.Alone 1) ∧
                mountMachine.run s reclaimed = some t ∧
                  ¬ mountMachine.Along
                      (HandsOver 1 s.slot.nextToken) s
                      reclaimed ∧
                    mountMachine.run t [.source 1 0 true] =
                        some u ∧
                      u.sources[1]?.map Source.phase =
                        some (.rejected 500) := by
  have hStart :
      mountMachine.run (.idle (.player true .top))
          permitKept =
        some _ := rfl
  refine
    ⟨_, _, _,
      Library.Machine.reachable_of_run
        (init_idle (.player true .top) rfl) hStart,
      hStart, ⟨⟨_, rfl, rfl⟩, .inl rfl⟩, rfl, ?_, rfl, ?_,
      rfl, rfl⟩
  · intro label hMem
    simp [reclaimed] at hMem
    rcases hMem with rfl | rfl | rfl | rfl | rfl | rfl <;>
      trivial
  · intro hAlong
    have hOver := hAlong.last rfl
    have hToken := (hOver _ rfl).1 trivial
    cases hToken

end MountSystem

end RustyIce
