import RustyIce.Server.MountSystem

/-
  A cancelled background task has something to do that needs
  nobody else, in every run that does not cancel it while it
  cannot hear.

  Main declarations:
    * `MountLabel.Own`, `CancellationHeard`
    * `Task.Deaf`, `HeardInTime`
    * `cancellation_heard`
-/

------------------------------------------------------------
-- Own Steps And Deaf Waits
------------------------------------------------------------

namespace RustyIce

/- Steps of the task that need no other party. -/
def MountLabel.Own : MountLabel → Prop
| .player _ _ => True
| .relay _ event => event = .go
| .arrive _ _ _ _ => False
| .source _ _ _ => False
| .capture _ _ => False
| .kick => False
| .cancelTask => False

/-
  A task that was cancelled and has not returned can take a
  step of its own.
-/
def CancellationHeard (s : MountSystem) : Prop :=
  s.shutdown = true →
    ¬ s.task.Returned →
      mountMachine.Enabled MountLabel.Own s

/-
  The two waits that do not select on the token of the task:
  the park of a rotation nobody has notified, and the ingest
  of a relay whose slot token is not cancelled.
-/
def PlayerPhase.Deaf
    (s : Slot)
    (phase : PlayerPhase) : Prop :=
  phase = .parkAsleep ∧
    s.mount.nonLiveResume.waiter ≠ .notified

def RelayPhase.Deaf (s : Slot) : RelayPhase → Prop
| .streaming token => s.cancelled token = false
| _ => False

def Task.Deaf (s : Slot) : Task → Prop
| .player _ phase => phase.Deaf s
| .relay phase => phase.Deaf s

/- A poll of the park that would find no permit. -/
def Task.ParksOn (s : Slot) : Task → Prop
| .player _ phase =>
    phase = .parkPoll ∧
      s.mount.nonLiveResume.permit = false
| .relay _ => False

/-
  The task is not cancelled during a deaf wait, and a
  cancelled rotation does not begin one.
-/
def HeardInTime
    (s : MountSystem) : MountLabel → Prop
| .cancelTask => ¬ s.task.Deaf s.slot
| .player _ _ =>
    s.shutdown = true → ¬ s.task.ParksOn s.slot
| .relay _ _ => True
| .arrive _ _ _ _ => True
| .source _ _ _ => True
| .capture _ _ => True
| .kick => True

end RustyIce

------------------------------------------------------------
-- Progress Of Each Task
------------------------------------------------------------

namespace RustyIce

/- A rotation that is not parked goes on. -/
theorem PlayerPhase.enabled_of_not_deaf
    (loopPlaylist : Bool)
    {s : Slot}
    {phase : PlayerPhase}
    (hReturned : phase ≠ .returned)
    (hHears : ¬ phase.Deaf s) :
    ∃ event,
      (phase.step loopPlaylist true 0 event s).isSome := by
  cases phase with
  | top => exact ⟨.go, rfl⟩
  | loadConnected =>
      refine ⟨.go, ?_⟩
      simp only [step]
      split <;> rfl
  | waiting wait =>
      refine ⟨.go, ?_⟩
      cases wait with
      | load =>
          simp only [step, WaitPhase.step]
          cases s.mount.sourceConnected <;> rfl
      | poll => rfl
      | asleep => rfl
  | afterWait => exact ⟨.go, rfl⟩
  | scan => exact ⟨.scanned .failed, rfl⟩
  | idle => exact ⟨.go, rfl⟩
  | claim =>
      refine ⟨.go, ?_⟩
      simp only [step]
      split <;> rfl
  | installing todo =>
      refine ⟨.go, ?_⟩
      cases todo <;> rfl
  | readCancel =>
      refine ⟨.go, ?_⟩
      simp only [step]
      split <;> rfl
  | playing token combined =>
      -- The bridge hears the cancelled task token.
      refine ⟨.bridge, ?_⟩
      simp [step, playStep]
  | releasing todo outcome =>
      refine ⟨.go, ?_⟩
      cases todo <;> rfl
  | passed outcome =>
      refine ⟨.go, ?_⟩
      cases outcome with
      | cancelled => rfl
      | completed =>
          simp only [step]
          split <;> rfl
  | swapPending =>
      refine ⟨.go, ?_⟩
      simp only [step]
      split <;> rfl
  | parkPoll =>
      refine ⟨.go, ?_⟩
      simp only [step]
      split <;> rfl
  | parkAsleep =>
      have hNotified :
          s.mount.nonLiveResume.waiter = .notified := by
        by_contra hNot
        exact hHears ⟨rfl, hNot⟩
      refine ⟨.go, ?_⟩
      simp [step, Library.Notify.wake, hNotified]
  | returned => exact absurd rfl hReturned

/- A relay that is not streaming goes on. -/
theorem RelayPhase.enabled_of_not_deaf
    {s : Slot}
    {phase : RelayPhase}
    (hReturned : phase ≠ .returned)
    (hPanicked : phase ≠ .panicked)
    (hHears : ¬ phase.Deaf s) :
    (phase.step true 0 .go s).isSome := by
  cases phase with
  | top => rfl
  | loadConnected =>
      simp only [step]
      split <;> rfl
  | loadKind =>
      simp only [step]
      split <;> rfl
  | waiting wait =>
      cases wait with
      | load =>
          simp only [step, WaitPhase.step]
          cases s.mount.sourceConnected <;> rfl
      | poll => rfl
      | asleep => rfl
  | afterWait => rfl
  | claim =>
      simp only [step]
      split <;> rfl
  | installing todo => cases todo <;> rfl
  | readCancel =>
      simp only [step]
      split <;> rfl
  | connecting token => rfl
  | streaming token =>
      have hCancelled : s.cancelled token = true := by
        simpa [Deaf] using hHears
      simp [step, streamStep, hCancelled]
  | releasing todo outcome => cases todo <;> rfl
  | passed outcome => cases outcome <;> rfl
  | backingOff => rfl
  | swapPending =>
      simp only [step]
      split <;> rfl
  | parkPoll => rfl
  | parkAsleep => rfl
  | returned => exact absurd rfl hReturned
  | panicked => exact absurd rfl hPanicked

/- A task that can hear goes on by itself. -/
theorem cancellationHeard_of_not_deaf
    {s : MountSystem}
    (hHears :
      s.shutdown = true → ¬ s.task.Deaf s.slot) :
    CancellationHeard s := by
  intro hShutdown hReturned
  have hNotDeaf := hHears hShutdown
  cases hTask : s.task with
  | player loopPlaylist phase =>
      rw [hTask] at hReturned hNotDeaf
      rcases
          PlayerPhase.enabled_of_not_deaf loopPlaylist
            hReturned hNotDeaf with
        ⟨event, hStep⟩
      rcases Option.isSome_iff_exists.mp hStep with
        ⟨next, hNext⟩
      refine ⟨.player 0 event, trivial, ?_⟩
      show (s.step (.player 0 event)).isSome
      simp only [MountSystem.step, hTask, hShutdown, hNext]
      rfl
  | relay phase =>
      rw [hTask] at hReturned hNotDeaf
      simp only [Task.Returned, not_or] at hReturned
      have hStep :=
        RelayPhase.enabled_of_not_deaf hReturned.1
          hReturned.2 hNotDeaf
      rcases Option.isSome_iff_exists.mp hStep with
        ⟨next, hNext⟩
      refine ⟨.relay 0 .go, rfl, ?_⟩
      show (s.step (.relay 0 .go)).isSome
      simp only [MountSystem.step, hTask, hShutdown, hNext]
      rfl

end RustyIce

------------------------------------------------------------
-- Deaf Waits Of A Cancelled Task
------------------------------------------------------------

namespace RustyIce

/-
  What other parties do to a slot: they never take back a
  notification or a cancellation.
-/
structure Louder (s s' : Slot) : Prop where
  notified :
    s.mount.nonLiveResume.waiter = .notified →
      s'.mount.nonLiveResume.waiter = .notified
  cancelled :
    ∀ token,
      s.cancelled token = true → s'.cancelled token = true

theorem Louder.refl (s : Slot) : Louder s s where
  notified := id
  cancelled := fun _ => id

theorem louder_cancel
    (s : Slot)
    (token : Token) :
    Louder s (s.cancel token) where
  notified := id
  cancelled := by
    intro other hOther
    simp only [Slot.cancel]
    split
    · rfl
    · exact hOther

theorem louder_kick (s : Slot) : Louder s s.kick := by
  unfold Slot.kick
  cases s.mount.sourceCancel with
  | none => exact .refl s
  | some token => exact louder_cancel s token

theorem louder_exec
    (now : Nat)
    (s : Slot)
    (op : SlotOp) :
    Louder s (op.exec now s) := by
  cases op with
  | notifyResume =>
      refine ⟨?_, fun _ => id⟩
      intro hNotified
      simp [SlotOp.exec, Library.Notify.notifyOne, hNotified]
  | _ => exact ⟨id, fun _ => id⟩

theorem louder_storeHeader
    (s : Slot)
    (headers : Option Bytes) :
    Louder s (s.storeHeader headers) := by
  cases headers with
  | none => exact .refl s
  | some bytes => exact ⟨id, fun _ => id⟩

/- A source request is another party. -/
theorem louder_sourceStep
    {req : SourceRequest}
    {env : SourceEnv}
    {s s' : Slot}
    {phase phase' : SourcePhase}
    (hStep : phase.step req env s = some (phase', s')) :
    Louder s s' := by
  cases phase with
  | checkConnected =>
      simp only [SourcePhase.step] at hStep
      split at hStep <;> cases hStep <;> exact .refl s
  | checkKind =>
      simp only [SourcePhase.step] at hStep
      split at hStep <;> cases hStep <;> exact .refl s
  | setPending =>
      cases hStep
      exact ⟨id, fun _ => id⟩
  | readCancel =>
      simp only [SourcePhase.step] at hStep
      split at hStep <;> cases hStep <;> exact .refl s
  | cancelOwner token =>
      cases hStep
      exact louder_cancel s token
  | polling =>
      simp only [SourcePhase.step] at hStep
      split at hStep
      · split at hStep <;> cases hStep <;> exact .refl s
      · cases hStep
        exact .refl s
  | verify =>
      simp only [SourcePhase.step] at hStep
      split at hStep <;> cases hStep <;> exact .refl s
  | checkCodec =>
      simp only [SourcePhase.step] at hStep
      split at hStep <;> cases hStep <;> exact .refl s
  | claim =>
      simp only [SourcePhase.step] at hStep
      split at hStep
      · cases hStep
        exact .refl s
      · cases hStep
        exact ⟨id, fun _ => id⟩
  | installing todo token =>
      cases todo with
      | nil =>
          cases hStep
          exact .refl s
      | cons op rest =>
          cases hStep
          exact louder_exec _ s op
  | streaming token =>
      cases hStep
      exact .refl s
  | dropping todo =>
      cases todo with
      | nil =>
          cases hStep
          exact .refl s
      | cons op rest =>
          cases hStep
          exact louder_exec _ s op
  | rejected status => cases hStep
  | «over» => cases hStep

/- Another party never makes a task deaf. -/
theorem Task.Deaf.of_louder
    {s s' : Slot}
    (hLouder : Louder s s')
    {task : Task}
    (hDeaf : task.Deaf s') :
    task.Deaf s := by
  cases task with
  | player loopPlaylist phase =>
      rcases hDeaf with ⟨hPhase, hNot⟩
      refine ⟨hPhase, ?_⟩
      intro hNotified
      exact hNot (hLouder.notified hNotified)
  | relay phase =>
      cases phase with
      | streaming token =>
          cases hCancelled : s.cancelled token with
          | false => exact hCancelled
          | true =>
              have hLater :=
                hLouder.cancelled token hCancelled
              have hNot : s'.cancelled token = false := hDeaf
              rw [hLater] at hNot
              cases hNot
      | _ => exact hDeaf.elim

/-
  A cancelled rotation becomes deaf only by a poll of the
  park that finds no permit.
-/
theorem PlayerPhase.parks_of_deaf
    {loopPlaylist : Bool}
    {now : Nat}
    {event : PlayerEvent}
    {s s' : Slot}
    {phase phase' : PlayerPhase}
    (hStep :
      phase.step loopPlaylist true now event s =
        some (phase', s'))
    (hDeaf : phase'.Deaf s') :
    phase = .parkPoll ∧
      s.mount.nonLiveResume.permit = false := by
  rcases hDeaf with ⟨rfl, _⟩
  cases phase with
  | parkPoll =>
      refine ⟨rfl, ?_⟩
      simp only [step] at hStep
      split at hStep
      · cases hStep
      · rename_i hPermit
        rw [Library.Notify.pollNotified_fst] at hPermit
        exact eq_false_of_ne_true hPermit
  | installing todo => cases todo <;> cases hStep
  | releasing todo outcome => cases todo <;> cases hStep
  | passed outcome =>
      cases outcome with
      | cancelled => cases hStep
      | completed =>
          simp only [step] at hStep
          split at hStep <;> cases hStep
  | playing token combined =>
      cases event with
      | bridge =>
          simp only [step, playStep] at hStep
          split at hStep <;> cases hStep
      | chunk captured =>
          simp only [step, playStep] at hStep
          split at hStep <;> cases hStep
      | finish => cases hStep
      | go => cases hStep
      | scanned result => cases hStep
  | top => cases hStep
  | afterWait => cases hStep
  | idle => cases hStep
  | returned => cases hStep
  | _ =>
      simp only [step] at hStep
      split at hStep <;> cases hStep

/- A cancelled relay does not become deaf. -/
theorem RelayPhase.deaf_of_deaf
    {now : Nat}
    {event : RelayEvent}
    {s s' : Slot}
    {phase phase' : RelayPhase}
    (hStep :
      phase.step true now event s = some (phase', s'))
    (hDeaf : phase'.Deaf s') :
    phase.Deaf s := by
  cases phase' with
  | streaming token =>
      cases phase with
      | streaming other =>
          simp only [step, streamStep] at hStep
          split at hStep
          · cases hStep
          · rename_i hNot
            exact eq_false_of_ne_true hNot
      | installing todo => cases todo <;> cases hStep
      | releasing todo outcome => cases todo <;> cases hStep
      | passed outcome => cases outcome <;> cases hStep
      | top => cases hStep
      | afterWait => cases hStep
      | connecting other => cases hStep
      | backingOff => cases hStep
      | parkPoll => cases hStep
      | parkAsleep => cases hStep
      | returned => cases hStep
      | panicked => cases hStep
      | _ =>
          simp only [step] at hStep
          split at hStep <;> cases hStep
  | _ => exact hDeaf.elim

/- A cancelled task is not deaf, and does not become so. -/
theorem not_deaf_step
    {s t : MountSystem}
    {label : MountLabel}
    (hHears : s.shutdown = true → ¬ s.task.Deaf s.slot)
    (hOk : HeardInTime s label)
    (hStep : s.step label = some t) :
    t.shutdown = true → ¬ t.task.Deaf t.slot := by
  intro hShutdown hDeaf
  cases label with
  | player now event =>
      rcases MountSystem.player_step_ok hStep with
        ⟨loopPlaylist, phase, next, slot, hTask, hMove, rfl⟩
      have hCancelled : s.shutdown = true := hShutdown
      rw [hCancelled] at hMove
      apply hOk hCancelled
      rw [hTask]
      exact PlayerPhase.parks_of_deaf hMove hDeaf
  | relay now event =>
      rcases MountSystem.relay_step_ok hStep with
        ⟨phase, next, slot, hTask, hMove, rfl⟩
      have hCancelled : s.shutdown = true := hShutdown
      rw [hCancelled] at hMove
      apply hHears hCancelled
      rw [hTask]
      exact RelayPhase.deaf_of_deaf hMove hDeaf
  | arrive codec overlay authorised accepted =>
      cases hStep
      exact hHears hShutdown hDeaf
  | source i now expired =>
      rcases MountSystem.source_step_ok hStep with
        ⟨_, next, slot, _, hMove, rfl⟩
      exact
        hHears hShutdown
          (hDeaf.of_louder (louder_sourceStep hMove))
  | capture i headers =>
      rcases MountSystem.capture_step_ok hStep with
        ⟨_, _, _, _, rfl⟩
      exact
        hHears hShutdown
          (hDeaf.of_louder (louder_storeHeader _ _))
  | kick =>
      cases hStep
      exact
        hHears hShutdown (hDeaf.of_louder (louder_kick _))
  | cancelTask =>
      cases hStep
      exact hOk hDeaf

/-
  In every run that cancels the task when it can hear, a
  cancelled task is never stuck.
-/
theorem cancellation_heard
    {s : MountSystem}
    (hReach : mountMachine.ReachableUnder HeardInTime s) :
    CancellationHeard s := by
  apply cancellationHeard_of_not_deaf
  apply hReach.invariant
  · rintro t ⟨_, hRunning, _⟩ hShutdown
    rw [hRunning] at hShutdown
    cases hShutdown
  · intro _ _ _
    exact not_deaf_step

end RustyIce

------------------------------------------------------------
-- A Parked Rotation
------------------------------------------------------------

namespace RustyIce

instance (s : Slot) (task : Task) :
    Decidable (task.Deaf s) :=
  match task with
  | .player _ phase =>
      inferInstanceAs
        (Decidable
          (phase = .parkAsleep ∧
            s.mount.nonLiveResume.waiter ≠ .notified))
  | .relay phase =>
      match phase with
      | .streaming token =>
          inferInstanceAs (Decidable (s.cancelled token = false))
      | .top => isFalse id
      | .loadConnected => isFalse id
      | .loadKind => isFalse id
      | .waiting _ => isFalse id
      | .afterWait => isFalse id
      | .claim => isFalse id
      | .installing _ => isFalse id
      | .readCancel => isFalse id
      | .connecting _ => isFalse id
      | .releasing _ _ => isFalse id
      | .passed _ => isFalse id
      | .backingOff => isFalse id
      | .swapPending => isFalse id
      | .parkPoll => isFalse id
      | .parkAsleep => isFalse id
      | .returned => isFalse id
      | .panicked => isFalse id

instance (s : Slot) (task : Task) :
    Decidable (task.ParksOn s) :=
  match task with
  | .player _ phase =>
      inferInstanceAs
        (Decidable
          (phase = .parkPoll ∧
            s.mount.nonLiveResume.permit = false))
  | .relay _ => isFalse id

instance (s : MountSystem) (label : MountLabel) :
    Decidable (HeardInTime s label) :=
  match label with
  | .cancelTask =>
      inferInstanceAs (Decidable (¬ s.task.Deaf s.slot))
  | .player _ _ =>
      inferInstanceAs
        (Decidable
          (s.shutdown = true → ¬ s.task.ParksOn s.slot))
  | .relay _ _ => isTrue trivial
  | .arrive _ _ _ _ => isTrue trivial
  | .source _ _ _ => isTrue trivial
  | .capture _ _ => isTrue trivial
  | .kick => isTrue trivial

/- The rotation is cancelled while it plays. -/
def cancelledPlaying : List MountLabel :=
  playing ++
    [.cancelTask, .player 0 .bridge,
      .player 0 (.chunk none)]

/-
  A live source preempts the rotation and streams, and the
  rotation is cancelled while it waits for the source.
-/
def cancelledParked : List MountLabel :=
  playing ++ anySource true :: sourceSteps 5 ++
    .player 0 .bridge :: .player 0 (.chunk none) ::
      List.replicate 8 (.player 0 .go) ++
    sourceSteps 5 ++ List.replicate 2 (.player 0 .go) ++
    [.cancelTask]

theorem cancellation_heard_cancelledPlaying :
    ∃ s,
      mountMachine.runUnder HeardInTime
          (.idle (.player true .top)) cancelledPlaying =
        some s ∧
        s.shutdown = true ∧ CancellationHeard s :=
  ⟨_, rfl, rfl,
    cancellation_heard
      (Library.Machine.reachableUnder_of_runUnder
        (MountSystem.init_idle (.player true .top) rfl)
        (rfl :
          mountMachine.runUnder HeardInTime
              (.idle (.player true .top)) cancelledPlaying =
            some _))⟩

/-
  The parked rotation does not notice: it waits for the live
  source.
-/
theorem cancelledParked_not_heard :
    ∃ s,
      mountMachine.Reachable s ∧
        mountMachine.run (.idle (.player true .top))
            cancelledParked =
          some s ∧
          ¬ CancellationHeard s := by
  refine
    ⟨_,
      Library.Machine.reachable_of_run
        (MountSystem.init_idle (.player true .top) rfl)
        (rfl :
          mountMachine.run (.idle (.player true .top))
              cancelledParked =
            some _),
      rfl, ?_⟩
  intro hHeard
  rcases hHeard rfl (by decide) with ⟨label, hOwn, hStep⟩
  cases label with
  | player now event => cases hStep
  | relay now event => cases hStep
  | _ => cases hOwn

end RustyIce
