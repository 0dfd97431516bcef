import RustyIce.Server.Ownership

/-
  A task that waits to be resumed will be: either a permit
  is stored, or a live source is on the slot or on its way.

  The flag that makes a task park is set by a request and
  read by the task much later. The runs considered are those
  in which every request that sets the flag goes on to claim
  the slot, and every flag is read by the pass it was meant
  for.

  Main declarations:
    * `Source.Due`, `NoLostWakeup`
    * `PreemptionsCarried`
    * `Signalled`, `WakeupInv`
    * `no_lost_wakeup`
-/

------------------------------------------------------------
-- The Property
------------------------------------------------------------

namespace RustyIce

namespace Source

/- The guard of the source runs, or will. -/
def Notifies (h : Source) : Prop :=
  h.role = .holding ∨ h.role = .dropping

/- The request goes on to claim the slot once it is free. -/
def Comes (h : Source) : Prop :=
  h.Admissible ∧ (h.role = .waiting ∨ h.role = .arriving)

def Due (h : Source) : Prop :=
  h.Notifies ∨ h.Comes

/- As `Due`, with the claim still after the release. -/
def Expected (h : Source) : Prop :=
  h.Notifies ∨ (h.Admissible ∧ h.role = .waiting)

theorem Expected.due
    {h : Source}
    (hExpected : h.Expected) :
    h.Due := by
  rcases hExpected with hNotifies | ⟨hAdmissible, hRole⟩
  · exact .inl hNotifies
  · exact .inr ⟨hAdmissible, .inl hRole⟩

end Source

/-
  If the task sleeps until it is resumed, a permit is
  stored, or some live source owns the slot or has yet to
  notify, or the slot is free and a request that passes the
  checks is about to claim it.
-/
def NoLostWakeup (s : MountSystem) : Prop :=
  s.task.role = .asleep →
    s.slot.mount.nonLiveResume.Asleep →
      s.slot.mount.nonLiveResume.permit = true ∨
        (∃ h ∈ s.sources, h.Notifies) ∨
          (s.slot.mount.sourceConnected = false ∧
            ∃ h ∈ s.sources, h.Comes)

/-
  Preemptions carried through. A request that sets the flag
  passes the checks, and the task is in a pass or has yet to
  read the flag after one. A preemption does not time out
  while the task still holds the slot. A pass does not end
  by itself once the flag is set.
-/
def PreemptionsCarried
    (s : MountSystem) : MountLabel → Prop
| .player _ event =>
    event.ends = true →
      s.task.role = .holding →
        s.slot.mount.preemptPending = false
| .relay _ event =>
    event.ends = true →
      s.task.role = .holding →
        s.slot.mount.preemptPending = false
| .source i _ expired =>
    ∀ h ∈ s.sources[i]?,
      (h.phase = .setPending →
        h.Admissible ∧
          (s.task.role.TakesFlag ∨ s.task.role = .gone)) ∧
        (h.phase = .polling →
          expired = true →
            s.slot.mount.sourceConnected = true →
              s.slot.mount.preemptPending = true →
                ¬ s.task.role.Holds)
| .arrive _ _ _ _ => True
| .capture _ _ => True
| .kick => True
| .cancelTask => True

end RustyIce

------------------------------------------------------------
-- Signals
------------------------------------------------------------

namespace RustyIce

/-
  The flag, the permit and the waiter of a gate against the
  role of the task. `expected` and `due` say that some
  request is `Expected` or `Due`.
-/
structure Signalled
    (g : Gate)
    (role : TaskRole)
    (expected due : Prop) : Prop where
  flag :
    g.pending = true → role.TakesFlag ∨ role = .gone
  waiter :
    role ≠ .asleep → role ≠ .gone →
      g.resume.waiter = .absent
  holding :
    g.pending = true → role = .holding →
      g.resume.permit = true ∨ expected
  polling :
    (g.pending = true ∧ role = .ended) ∨ role = .polling →
      g.resume.permit = true ∨ due
  asleep :
    role = .asleep →
      g.resume.permit = true ∨ g.resume.waiter = .notified ∨
        due

namespace Signalled

variable {g g' : Gate}
variable {role role' : TaskRole}
variable {expected due : Prop}

/- A task gone has no signals to wait for. -/
theorem of_gone : Signalled g .gone expected due where
  flag := fun _ => .inr rfl
  waiter := fun _ hHere => absurd rfl hHere
  holding := fun _ hRole => by cases hRole
  polling := by
    rintro (⟨_, hRole⟩ | hRole)
    · cases hRole
    · cases hRole
  asleep := fun hRole => by cases hRole

/- A free task that owes no answer. -/
theorem of_free
    (hPending : g.pending = false)
    (hWaiter : g.resume.waiter = .absent) :
    Signalled g .free expected due where
  flag := fun h => by
    rw [hPending] at h
    cases h
  waiter := fun _ _ => hWaiter
  holding := fun _ hRole => by cases hRole
  polling := by
    rintro (⟨_, hRole⟩ | hRole)
    · cases hRole
    · cases hRole
  asleep := fun hRole => by cases hRole

/- A task about to wait. -/
theorem of_polling
    (hPending : g.pending = false)
    (hWaiter : g.resume.waiter = .absent)
    (hDue : g.resume.permit = true ∨ due) :
    Signalled g .polling expected due where
  flag := fun h => by
    rw [hPending] at h
    cases h
  waiter := fun _ _ => hWaiter
  holding := fun _ hRole => by cases hRole
  polling := fun _ => hDue
  asleep := fun hRole => by cases hRole

/- A task that has neither the flag nor the slot. -/
theorem pending_eq_false
    (hSignalled : Signalled g role expected due)
    (hFlag : ¬ role.TakesFlag)
    (hHere : role ≠ .gone) :
    g.pending = false := by
  cases hPending : g.pending with
  | false => rfl
  | true =>
      rcases hSignalled.flag hPending with hTakes | hGone
      · exact absurd hTakes hFlag
      · exact absurd hGone hHere

/- A step of the task. -/
theorem taskMove
    {ends : Bool}
    (hSignalled : Signalled g role expected due)
    (hExpected : expected → due)
    (hOwner :
      g.connected = true → ¬ role.Holds → role ≠ .gone →
        due)
    (hEnds :
      ends = true → role = .holding → g.pending = false)
    (hMove : TaskMove ends g role g' role') :
    Signalled g' role' expected due := by
  cases hMove with
  | stay => exact hSignalled
  | queue hConnected =>
      have hPending :=
        hSignalled.pending_eq_false (by decide) (by decide)
      have hWaiter :=
        hSignalled.waiter (by decide) (by decide)
      exact
        of_polling hPending hWaiter
          (.inr (hOwner hConnected (by decide) (by decide)))
  | leave =>
      exact
        of_free
          (hSignalled.pending_eq_false (by decide)
            (by decide))
          (hSignalled.waiter (by decide) (by decide))
  | take hPermit =>
      have hWaiter :=
        hSignalled.waiter (by decide) (by decide)
      refine
        of_free
          (hSignalled.pending_eq_false (by decide)
            (by decide)) ?_
      simp only [Gate.storeResume,
        Library.Notify.pollNotified, hPermit, if_true]
      exact hWaiter
  | sleep hPermit =>
      have hDue :=
        (hSignalled.polling (.inr rfl)).resolve_left (by
          rw [hPermit]
          decide)
      have hPending :=
        hSignalled.pending_eq_false (by decide) (by decide)
      constructor
      · intro hSet
        simp only [Gate.storeResume] at hSet
        rw [hPending] at hSet
        cases hSet
      · intro hAwake
        exact absurd rfl hAwake
      · intro _ hRole
        cases hRole
      · rintro (⟨_, hRole⟩ | hRole)
        · cases hRole
        · cases hRole
      · intro _
        exact .inr (.inr hDue)
  | wake hWake =>
      refine
        of_free
          (hSignalled.pending_eq_false (by decide)
            (by decide)) ?_
      unfold Library.Notify.wake at hWake
      split at hWake
      · cases hWake
        rfl
      · cases hWake
      · cases hWake
  | abandon =>
      refine
        of_free
          (hSignalled.pending_eq_false (by decide)
            (by decide)) ?_
      simp only [Gate.storeResume, Library.Notify.abandon]
      cases hWaiter : g.resume.waiter with
      | absent => exact hWaiter
      | enqueued => rfl
      | notified => rfl
  | claim hFree =>
      have hPending :=
        hSignalled.pending_eq_false (by decide) (by decide)
      have hWaiter :=
        hSignalled.waiter (by decide) (by decide)
      constructor
      · intro _
        exact .inl (.inl rfl)
      · intro _ _
        exact hWaiter
      · intro hSet
        simp only [Gate.connect] at hSet
        rw [hPending] at hSet
        cases hSet
      · rintro (⟨_, hRole⟩ | hRole)
        · cases hRole
        · cases hRole
      · intro hRole
        cases hRole
  | finish hEnd =>
      have hPending := hEnds hEnd rfl
      have hWaiter :=
        hSignalled.waiter (by decide) (by decide)
      constructor
      · intro hSet
        rw [hPending] at hSet
        cases hSet
      · intro _ _
        exact hWaiter
      · intro _ hRole
        cases hRole
      · rintro (⟨_, hRole⟩ | hRole)
        · cases hRole
        · cases hRole
      · intro hRole
        cases hRole
  | left =>
      exact
        of_free
          (hSignalled.pending_eq_false (by decide)
            (by decide))
          (hSignalled.waiter (by decide) (by decide))
  | released =>
      have hWaiter :=
        hSignalled.waiter (by decide) (by decide)
      constructor
      · intro _
        exact .inl (.inr rfl)
      · intro _ _
        exact hWaiter
      · intro _ hRole
        cases hRole
      · rintro (⟨hPending, _⟩ | hRole)
        · exact
            (hSignalled.holding hPending rfl).imp_right
              hExpected
        · cases hRole
      · intro hRole
        cases hRole
  | go hPending =>
      exact
        of_free rfl
          (hSignalled.waiter (by decide) (by decide))
  | park hPending =>
      exact
        of_polling rfl
          (hSignalled.waiter (by decide) (by decide))
          (hSignalled.polling (.inl ⟨hPending, rfl⟩))
  | quit hNot => exact of_gone
  | quitAsleep => exact of_gone
  | crash => exact of_gone

/- Other requests, with the flag and the cell as they are. -/
theorem mono
    {expected' due' : Prop}
    (hSignalled : Signalled g role expected due)
    (hPending : g'.pending = g.pending)
    (hResume : g'.resume = g.resume)
    (hExpected :
      g.pending = true → role = .holding →
        expected → expected')
    (hDue : ¬ role.Holds → role ≠ .gone → due → due') :
    Signalled g' role expected' due' := by
  constructor
  · rw [hPending]
    exact hSignalled.flag
  · rw [hResume]
    exact hSignalled.waiter
  · rw [hPending, hResume]
    intro hSet hRole
    exact
      (hSignalled.holding hSet hRole).imp_right
        (hExpected hSet hRole)
  · rw [hPending, hResume]
    intro hRole
    have hKeeps : due → due' := by
      rcases hRole with ⟨_, rfl⟩ | rfl
      · exact hDue (by decide) (by decide)
      · exact hDue (by decide) (by decide)
    exact (hSignalled.polling hRole).imp_right hKeeps
  · rw [hResume]
    intro hRole
    have hKeeps : due → due' := by
      subst hRole
      exact hDue (by decide) (by decide)
    exact
      (hSignalled.asleep hRole).imp_right
        (Or.imp_right hKeeps)

/- An admitted request sets the flag. -/
theorem flagged
    {expected' due' : Prop}
    (hSignalled : Signalled g role expected due)
    (hTakes : role.TakesFlag ∨ role = .gone)
    (hExpected : expected')
    (hDue : due') :
    Signalled (g.storePending true) role expected' due' where
  flag := fun _ => hTakes
  waiter := hSignalled.waiter
  holding := fun _ _ => .inr hExpected
  polling := fun _ => .inr hDue
  asleep := fun _ => .inr (.inr hDue)

/- A notification serves whoever waits, now or later. -/
theorem notified
    {expected' due' : Prop}
    (hSignalled : Signalled g role expected due) :
    Signalled (g.storeResume g.resume.notifyOne) role
      expected' due' := by
  have hPermit :
      g.resume.waiter = .absent →
        g.resume.notifyOne.permit = true := by
    intro hWaiter
    simp [Library.Notify.notifyOne, hWaiter]
  constructor
  · exact hSignalled.flag
  · intro hAwake hHere
    have hWaiter := hSignalled.waiter hAwake hHere
    simp [Gate.storeResume, Library.Notify.notifyOne,
      hWaiter]
  · intro _ hRole
    subst hRole
    exact
      .inl
        (hPermit
          (hSignalled.waiter (by decide) (by decide)))
  · intro hRole
    left
    apply hPermit
    rcases hRole with ⟨_, rfl⟩ | rfl
    · exact hSignalled.waiter (by decide) (by decide)
    · exact hSignalled.waiter (by decide) (by decide)
  · intro _
    rcases Library.Notify.notifyOne_due g.resume with
      hStored | hWoken
    · exact .inl hStored
    · exact .inr (.inl hWoken)

end Signalled

end RustyIce

------------------------------------------------------------
-- The Invariant
------------------------------------------------------------

namespace RustyIce

def ExpectedSource (s : MountSystem) : Prop :=
  ∃ h ∈ s.sources, h.Expected

def DueSource (s : MountSystem) : Prop :=
  ∃ h ∈ s.sources, h.Due

structure WakeupInv (s : MountSystem) : Prop where
  owned : Owned s
  signals :
    Signalled s.slot.gate s.task.role (ExpectedSource s)
      (DueSource s)

theorem ExpectedSource.due
    {s : MountSystem}
    (hExpected : ExpectedSource s) :
    DueSource s := by
  rcases hExpected with ⟨h, hMem, hSource⟩
  exact ⟨h, hMem, hSource.due⟩

/- An owner other than the task is a live source. -/
theorem Owned.exists_notifies
    {s : MountSystem}
    (hOwned : Owned s)
    (hConnected : s.slot.gate.connected = true)
    (hNot : ¬ s.task.role.Holds)
    (hHere : s.task.role ≠ .gone) :
    ∃ h ∈ s.sources, h.Holding := by
  rcases hOwned.owner hConnected with
    hHolds | hGone | hThere
  · exact absurd hHolds hNot
  · exact absurd hGone hHere
  · exact hThere

/- While the task holds the slot it is connected. -/
theorem Owned.connected_of_holds
    {s : MountSystem}
    (hOwned : Owned s)
    (hHolds : s.task.role.Holds) :
    s.slot.gate.connected = true := by
  have hCount := hOwned.atMostOne
  unfold MountSystem.holders at hCount
  rw [TaskRole.held_eq_one hHolds] at hCount
  cases hConnected : s.slot.gate.connected with
  | true => rfl
  | false =>
      rw [hConnected] at hCount
      simp only [Bool.toNat_false] at hCount
      omega

theorem wakeupInv_init
    {s : MountSystem}
    (hInit : mountMachine.init s) :
    WakeupInv s := by
  have hOwned := owned_init hInit
  rcases hInit with ⟨⟨info, bus, hMount⟩, _, hFresh, hNone⟩
  refine ⟨hOwned, ?_⟩
  rw [hFresh.role_eq]
  apply Signalled.of_free
  · simp [hMount, ActiveMount.new]
  · simp [hMount, ActiveMount.new, Library.Notify.new]

/-
  A request that gives up or fails while some live source
  holds the slot: the other one is still due.
-/
theorem due_of_connected
    {s : MountSystem}
    (hOwned : Owned s)
    {i : Nat}
    {h h' : Source}
    (hSome : s.sources[i]? = some h)
    (hOther : ¬ h.Holding)
    (hConnected : s.slot.gate.connected = true)
    (hNot : ¬ s.task.role.Holds)
    (hHere : s.task.role ≠ .gone) :
    ∃ k ∈ s.sources.set i h', k.Due := by
  have hHolding :=
    hOwned.exists_notifies hConnected hNot hHere
  rcases
      exists_set_of_exists hSome
        (fun hIs => absurd hIs hOther) hHolding with
    ⟨k, hMem, hK⟩
  exact ⟨k, hMem, .inl (.inl hK)⟩

/- A request at the checks has not taken the slot. -/
theorem Source.not_expected_of_arriving
    {h : Source}
    (hArriving : h.role = .arriving) :
    ¬ h.Expected := by
  unfold Source.Expected Source.Notifies
  rw [hArriving]
  simp

/- Nor does it come for one that it is turned away from. -/
theorem Source.not_due_of_rejected
    {h : Source}
    (hArriving : h.role = .arriving)
    (hRejected : ¬ h.Admissible) :
    ¬ h.Due := by
  unfold Source.Due Source.Notifies
  rw [hArriving]
  rintro (hNotifies | ⟨hIs, _⟩)
  · simp at hNotifies
  · exact hRejected hIs

/- Turned away, a request changes nothing. -/
theorem Signalled.turnedAway
    {g : Gate}
    {role : TaskRole}
    {sources : List Source}
    {i : Nat}
    {h : Source}
    (h' : Source)
    (hSignalled :
      Signalled g role (∃ k ∈ sources, k.Expected)
        (∃ k ∈ sources, k.Due))
    (hSome : sources[i]? = some h)
    (hArriving : h.role = .arriving)
    (hRejected : ¬ h.Admissible) :
    Signalled g role (∃ k ∈ sources.set i h', k.Expected)
      (∃ k ∈ sources.set i h', k.Due) := by
  refine hSignalled.mono rfl rfl ?_ ?_
  · intro _ _
    apply exists_set_of_exists hSome
    intro hIs
    exact
      absurd hIs (Source.not_expected_of_arriving hArriving)
  · intro _ _
    apply exists_set_of_exists hSome
    intro hIs
    exact
      absurd hIs
        (Source.not_due_of_rejected hArriving hRejected)

/- A step of a request. -/
theorem signalled_sourceMove
    {s : MountSystem}
    (hInv : WakeupInv s)
    {i now : Nat}
    {expired : Bool}
    {h h' : Source}
    (hOk : PreemptionsCarried s (.source i now expired))
    (hSome : s.sources[i]? = some h)
    (hSame :
      h'.authorised = h.authorised ∧
        h'.accepted = h.accepted)
    {g' : Gate}
    (hMove :
      SourceMove (h.env now expired) h.phase s.slot.gate
        h.role g' h'.role) :
    Signalled g' s.task.role
      (∃ k ∈ s.sources.set i h', k.Expected)
      (∃ k ∈ s.sources.set i h', k.Due) := by
  have hSignals := hInv.signals
  have hIndex := (List.getElem?_eq_some_iff.mp hSome).1
  have hThere : h' ∈ s.sources.set i h' :=
    List.mem_set hIndex h'
  have hAdmissible : h.Admissible → h'.Admissible := by
    intro hIs
    unfold Source.Admissible
    rw [hSame.1, hSame.2]
    exact hIs
  have hStep := hOk h (by simp [hSome])
  have hKeep :
      ∀ P : Source → Prop,
        (P h → P h') →
          (∃ k ∈ s.sources, P k) →
            ∃ k ∈ s.sources.set i h', P k := by
    intro P hP
    exact exists_set_of_exists hSome hP
  generalize hBefore : h.role = role at hMove
  generalize hAfter : h'.role = role' at hMove
  cases hMove with
  | stay =>
      refine hSignals.mono rfl rfl ?_ ?_
      · intro _ _
        apply hKeep
        unfold Source.Expected Source.Notifies
        rw [hBefore, hAfter]
        exact Or.imp_right (And.imp_left hAdmissible)
      · intro _ _
        apply hKeep
        unfold Source.Due Source.Notifies Source.Comes
        rw [hBefore, hAfter]
        exact Or.imp_right (And.imp_left hAdmissible)
  | pass =>
      refine hSignals.mono rfl rfl ?_ ?_
      · intro _ _
        apply hKeep
        unfold Source.Expected Source.Notifies
        rw [hBefore]
        simp
      · intro _ _
        apply hKeep
        unfold Source.Due Source.Notifies Source.Comes
        rw [hBefore]
        simp
  | flag hPhase =>
      rcases hStep.1 hPhase with ⟨hIs, hTakes⟩
      have hComes : h'.Expected :=
        .inr ⟨hAdmissible hIs, hAfter⟩
      exact
        hSignals.flagged hTakes ⟨h', hThere, hComes⟩
          ⟨h', hThere, hComes.due⟩
  | freed hFree =>
      refine hSignals.mono rfl rfl ?_ ?_
      · intro _ hHolding
        have hConnected :=
          hInv.owned.connected_of_holds (.inl hHolding)
        rw [hFree] at hConnected
        cases hConnected
      · intro _ _
        apply hKeep
        unfold Source.Due Source.Notifies Source.Comes
        rw [hBefore, hAfter]
        rintro (hNotifies | ⟨hIs, _⟩)
        · simp at hNotifies
        · exact .inr ⟨hAdmissible hIs, .inr rfl⟩
  | timeout hPhase hExpired hConnected =>
      refine hSignals.mono rfl rfl ?_ ?_
      · intro hPending hHolding
        exact
          absurd (.inl hHolding)
            (hStep.2 hPhase hExpired hConnected hPending)
      · intro hNot hHere _
        apply due_of_connected hInv.owned hSome _ hConnected
          hNot hHere
        unfold Source.Holding
        rw [hBefore]
        decide
  | unauthorised hNot =>
      have hRejected : ¬ h.Admissible := fun hIs =>
        Bool.false_ne_true (hNot.symm.trans hIs.1)
      exact hSignals.turnedAway h' hSome hBefore hRejected
  | refused hNot =>
      have hRejected : ¬ h.Admissible := fun hIs =>
        Bool.false_ne_true (hNot.symm.trans hIs.2)
      exact hSignals.turnedAway h' hSome hBefore hRejected
  | busy hConnected =>
      refine hSignals.mono rfl rfl ?_ ?_
      · intro _ _
        exact
          hKeep _ fun hIs =>
            absurd hIs
              (Source.not_expected_of_arriving hBefore)
      · intro hNot hHere _
        apply due_of_connected hInv.owned hSome _ hConnected
          hNot hHere
        unfold Source.Holding
        rw [hBefore]
        decide
  | won hFree =>
      have hNotifies : h'.Notifies := .inl hAfter
      refine hSignals.mono rfl rfl ?_ ?_
      · intro _ _
        exact hKeep _ fun _ => .inl hNotifies
      · intro _ _
        exact hKeep _ fun _ => .inl hNotifies
  | disconnected =>
      have hNotifies : h'.Notifies := .inr hAfter
      refine hSignals.mono rfl rfl ?_ ?_
      · intro _ _
        exact hKeep _ fun _ => .inl hNotifies
      · intro _ _
        exact hKeep _ fun _ => .inl hNotifies
  | notified => exact hSignals.notified

/- An event of such a run. -/
theorem wakeupInv_step
    {s t : MountSystem}
    {label : MountLabel}
    (hInv : WakeupInv s)
    (hOk : PreemptionsCarried s label)
    (hStep : s.step label = some t) :
    WakeupInv t := by
  have hMove :=
    MountSystem.move_of_step hInv.owned.proper hStep
  refine ⟨owned_move hInv.owned hMove, ?_⟩
  have hSignals := hInv.signals
  unfold ExpectedSource DueSource at hSignals ⊢
  cases hMove with
  | task hTask hTaskProper hSources =>
      rw [hSources]
      refine
        hSignals.taskMove ExpectedSource.due ?_ ?_ hTask
      · intro hConnected hNot hHere
        rcases
            hInv.owned.exists_notifies hConnected hNot hHere
          with ⟨k, hMem, hHolding⟩
        exact ⟨k, hMem, .inl (.inl hHolding)⟩
      · intro hEnds hHolding
        cases label with
        | player now event => exact hOk hEnds hHolding
        | relay now event => exact hOk hEnds hHolding
        | _ => cases hEnds
  | arrive hPhase hSources hSlot hTask =>
      rw [hSources, hSlot, hTask]
      refine hSignals.mono rfl rfl ?_ ?_
      · rintro _ _ ⟨k, hMem, hK⟩
        exact ⟨k, List.mem_append_left _ hMem, hK⟩
      · rintro _ _ ⟨k, hMem, hK⟩
        exact ⟨k, List.mem_append_left _ hMem, hK⟩
  | source hSome hSource hSame hGate hSources hTask =>
      rw [hSources, hTask]
      exact signalled_sourceMove hInv hOk hSome hSame hGate
  | aside hGate hTask hSources =>
      rw [hGate, hTask, hSources]
      exact hSignals

/- What the invariant says of a sleeping task. -/
theorem WakeupInv.noLostWakeup
    {s : MountSystem}
    (hInv : WakeupInv s) :
    NoLostWakeup s := by
  intro hRole hAsleep
  have hNot : ¬ s.task.role.Holds := by
    rw [hRole]
    decide
  have hHere : s.task.role ≠ .gone := by
    rw [hRole]
    decide
  rcases hInv.signals.asleep hRole with
    hPermit | hWoken | ⟨h, hMem, hNotifies | hComes⟩
  · exact .inl hPermit
  · unfold Library.Notify.Asleep at hAsleep
    have hWaiter :
        s.slot.mount.nonLiveResume.waiter = .notified :=
      hWoken
    rw [hAsleep] at hWaiter
    cases hWaiter
  · exact .inr (.inl ⟨h, hMem, hNotifies⟩)
  · cases hConnected : s.slot.mount.sourceConnected with
    | false => exact .inr (.inr ⟨rfl, h, hMem, hComes⟩)
    | true =>
        -- The slot is taken, and not by the task.
        rcases
            hInv.owned.exists_notifies hConnected hNot hHere
          with ⟨k, hK, hHolding⟩
        exact .inr (.inl ⟨k, hK, .inl hHolding⟩)

/-
  In every run whose preemptions are carried through, no
  wake-up is lost.
-/
theorem no_lost_wakeup
    {s : MountSystem}
    (hReach :
      mountMachine.ReachableUnder PreemptionsCarried s) :
    NoLostWakeup s := by
  have hInv : WakeupInv s := by
    apply hReach.invariant
    · intro t
      exact wakeupInv_init
    · intro _ _ _
      exact wakeupInv_step
  exact hInv.noLostWakeup

end RustyIce

------------------------------------------------------------
-- A Preempted Rotation
------------------------------------------------------------

namespace RustyIce

instance (s : MountSystem) (label : MountLabel) :
    Decidable (PreemptionsCarried s label) :=
  match label with
  | .player _ event =>
      inferInstanceAs
        (Decidable
          (event.ends = true →
            s.task.role = .holding →
              s.slot.mount.preemptPending = false))
  | .relay _ event =>
      inferInstanceAs
        (Decidable
          (event.ends = true →
            s.task.role = .holding →
              s.slot.mount.preemptPending = false))
  | .source i _ expired =>
      inferInstanceAs
        (Decidable
          (∀ h ∈ s.sources[i]?,
            (h.phase = .setPending →
              h.Admissible ∧
                (s.task.role.TakesFlag ∨
                  s.task.role = .gone)) ∧
              (h.phase = .polling →
                expired = true →
                  s.slot.mount.sourceConnected = true →
                    s.slot.mount.preemptPending = true →
                      ¬ s.task.role.Holds)))
  | .arrive _ _ _ _ => isTrue trivial
  | .capture _ _ => isTrue trivial
  | .kick => isTrue trivial
  | .cancelTask => isTrue trivial

/-
  A request preempts a rotation, waits until it is off the
  slot, and takes `count` steps before the rotation parks.
-/
def preempting
    (authorised : Bool)
    (count : Nat) : List MountLabel :=
  playing ++ anySource authorised :: sourceSteps 5 ++
    .player 0 .bridge :: .player 0 (.chunk none) ::
      List.replicate 8 (.player 0 .go) ++
    sourceSteps count ++ List.replicate 2 (.player 0 .go)

/- With the right password the request has the slot. -/
theorem no_lost_wakeup_preempting :
    ∃ s,
      mountMachine.runUnder PreemptionsCarried
          (.idle (.player true .top)) (preempting true 5) =
        some s ∧
        s.task = .player true .parkAsleep ∧
          NoLostWakeup s :=
  ⟨_, rfl, rfl,
    no_lost_wakeup
      (Library.Machine.reachableUnder_of_runUnder
        (MountSystem.init_idle (.player true .top) rfl)
        (rfl :
          mountMachine.runUnder PreemptionsCarried
              (.idle (.player true .top))
              (preempting true 5) =
            some _))⟩

/- A sleeping task that nobody is going to resume. -/
theorem NoLostWakeup.not_of_done
    {s : MountSystem}
    (hRole : s.task.role = .asleep)
    (hAsleep : s.slot.mount.nonLiveResume.Asleep)
    (hPermit : s.slot.mount.nonLiveResume.permit = false)
    (hDone : ∀ role ∈ s.sources.map Source.role, role = .done) :
    ¬ NoLostWakeup s := by
  have hRoles : ∀ h ∈ s.sources, h.role = .done :=
    fun h hMem => hDone h.role (List.mem_map_of_mem hMem)
  intro hNone
  rcases hNone hRole hAsleep with
    hStored | ⟨h, hMem, hNotifies⟩ | ⟨_, h, hMem, hComes⟩
  · rw [hPermit] at hStored
    cases hStored
  · unfold Source.Notifies at hNotifies
    rw [hRoles h hMem] at hNotifies
    simp at hNotifies
  · unfold Source.Comes at hComes
    rw [hRoles h hMem] at hComes
    simp at hComes

/-
  With a wrong password it is rejected, and the rotation
  waits for a source that does not exist.
-/
theorem preempting_unauthorised_lost :
    ∃ s,
      mountMachine.Reachable s ∧
        mountMachine.run (.idle (.player true .top))
            (preempting false 2) =
          some s ∧
          s.sources.map Source.phase = [.rejected 401] ∧
            ¬ NoLostWakeup s :=
  ⟨_,
    Library.Machine.reachable_of_run
      (MountSystem.init_idle (.player true .top) rfl)
      (rfl :
        mountMachine.run (.idle (.player true .top))
            (preempting false 2) =
          some _),
    rfl, rfl,
    NoLostWakeup.not_of_done rfl rfl rfl
      (List.forall_mem_singleton.mpr rfl)⟩

end RustyIce
