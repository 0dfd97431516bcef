import RustyIce.Server.TaskRole

/-
  The rotation task of a mount, access by access.

  The files of a rotation, their decoding and the timers are
  the player's own: no other party has to act for them.

  Main declarations:
    * `PlayerPhase`, `PlayerEvent`
    * `PlayerPhase.step`
    * `PlayerPhase.role`, `PlayerPhase.move_of_step`
-/

------------------------------------------------------------
-- Phases
------------------------------------------------------------

namespace RustyIce

inductive PassOutcome where
| completed
| cancelled
deriving DecidableEq, Repr

/- Where `AutoDjPlayer::run` is. -/
inductive PlayerPhase where
| top
| loadConnected
| waiting (wait : WaitPhase)
| afterWait
| scan
| idle
| claim
| installing (todo : List SlotOp)
| readCancel
| playing (token : Token) (combined : Bool)
| releasing (todo : List SlotOp) (outcome : PassOutcome)
| passed (outcome : PassOutcome)
| swapPending
| parkPoll
| parkAsleep
| returned
deriving DecidableEq, Repr

/- What a scan of the folder gives. -/
inductive ScanResult where
| empty
| tracks
| failed
deriving DecidableEq, Repr

/-
  What the player does next where its phase leaves a choice:
  the result of a scan, and while it plays the bridge that
  joins the two tokens, a chunk with the headers captured
  from it if any, or the end of the playlist.
-/
inductive PlayerEvent where
| go
| scanned (result : ScanResult)
| bridge
| chunk (captured : Option Bytes)
| finish
deriving DecidableEq, Repr

namespace PlayerPhase

/- One step of `play_playlist`. -/
def playStep
    (shutdown : Bool)
    (event : PlayerEvent)
    (s : Slot)
    (token : Token)
    (combined : Bool) : Option (PlayerPhase × Slot) :=
  match event with
  | .bridge =>
      if s.cancelled token || shutdown then
        some (.playing token true, s)
      else
        none
  | .chunk captured =>
      if combined then
        some (.releasing releaseSlot .cancelled, s)
      else
        some (.playing token false, s.storeHeader captured)
  | .finish => some (.releasing releaseSlot .completed, s)
  | .go => none
  | .scanned _ => none

/- The next access of the player. -/
def step
    (loopPlaylist shutdown : Bool)
    (now : Nat)
    (event : PlayerEvent)
    (s : Slot) : PlayerPhase → Option (PlayerPhase × Slot)
| .top =>
    if shutdown then some (.returned, s)
    else some (.loadConnected, s)
| .loadConnected =>
    if s.mount.sourceConnected then some (.waiting .load, s)
    else some (.scan, s)
| .waiting wait =>
    match wait.step shutdown s with
    | none => none
    | some (none, t) => some (.afterWait, t)
    | some (some next, t) => some (.waiting next, t)
| .afterWait =>
    if shutdown then some (.returned, s)
    else some (.scan, s)
| .scan =>
    match event with
    | .scanned .empty => some (.idle, s)
    | .scanned .tracks => some (.claim, s)
    | .scanned .failed => some (.returned, s)
    | .go => none
    | .bridge => none
    | .chunk _ => none
    | .finish => none
| .idle => some (.top, s)
| .claim =>
    if s.mount.sourceConnected then
      some (.top, s)
    else
      some
        (.installing (claimSlot .autoDj s.nextToken),
          s.connect)
| .installing todo =>
    match todo with
    | [] => some (.readCancel, s)
    | op :: rest => some (.installing rest, op.exec now s)
| .readCancel =>
    match s.mount.sourceCancel with
    | none => some (.releasing releaseSlot .cancelled, s)
    | some token => some (.playing token false, s)
| .playing token combined =>
    playStep shutdown event s token combined
| .releasing todo outcome =>
    match todo with
    | [] => some (.passed outcome, s)
    | op :: rest =>
        some (.releasing rest outcome, op.exec now s)
| .passed .cancelled =>
    if shutdown then some (.returned, s)
    else some (.swapPending, s)
| .passed .completed =>
    if loopPlaylist then some (.top, s)
    else some (.returned, s)
| .swapPending =>
    if s.mount.preemptPending then
      some (.parkPoll, s.storePending false)
    else
      some (.top, s.storePending false)
| .parkPoll =>
    let resume := s.mount.nonLiveResume.pollNotified
    if resume.1 then
      some (.top, s.storeResume resume.2)
    else
      some (.parkAsleep, s.storeResume resume.2)
| .parkAsleep =>
    match s.mount.nonLiveResume.wake with
    | none => none
    | some resume => some (.top, s.storeResume resume)
| .returned => none

/- The rest of a list of accesses is a rest of the player's. -/
def Proper : PlayerPhase → Prop
| .installing todo =>
    ∃ token, todo <:+ claimSlot .autoDj token
| .releasing todo _ => todo <:+ releaseSlot
| _ => True

def role : PlayerPhase → TaskRole
| .top => .free
| .loadConnected => .free
| .waiting wait => WaitPhase.role (some wait)
| .afterWait => .free
| .scan => .free
| .idle => .free
| .claim => .free
| .installing _ => .holding
| .readCancel => .holding
| .playing _ _ => .holding
| .releasing todo outcome =>
    releaseRole (outcome = .cancelled) todo
| .passed .cancelled => .ended
| .passed .completed => .free
| .swapPending => .ended
| .parkPoll => .polling
| .parkAsleep => .asleep
| .returned => .gone

end PlayerPhase

/- The pass ends by itself. -/
def PlayerEvent.ends (event : PlayerEvent) : Bool :=
  event = .finish

end RustyIce

------------------------------------------------------------
-- Moves
------------------------------------------------------------

namespace RustyIce

namespace PlayerPhase

variable {loopPlaylist shutdown : Bool}
variable {now : Nat}
variable {event : PlayerEvent}
variable {s s' : Slot}

theorem move_of_playStep
    {token : Token}
    {combined : Bool}
    {phase' : PlayerPhase}
    (hStep :
      playStep shutdown event s token combined =
        some (phase', s')) :
    TaskMove event.ends s.gate .holding s'.gate
      phase'.role := by
  cases event with
  | bridge =>
      simp only [playStep] at hStep
      split at hStep
      · cases hStep
        exact .stay
      · cases hStep
  | chunk captured =>
      simp only [playStep] at hStep
      split at hStep
      · cases hStep
        exact .stay
      · cases hStep
        rw [Slot.gate_storeHeader]
        exact .stay
  | finish =>
      cases hStep
      exact .finish rfl
  | go => cases hStep
  | scanned result => cases hStep

/- Each step of the player is a move of a task. -/
theorem move_of_step
    {phase phase' : PlayerPhase}
    (hProper : phase.Proper)
    (hStep :
      phase.step loopPlaylist shutdown now event s =
        some (phase', s')) :
    TaskMove event.ends s.gate phase.role s'.gate
      phase'.role := by
  have hFree : ¬ TaskRole.free.Holds := by decide
  cases phase with
  | top =>
      simp only [step] at hStep
      split at hStep
      · cases hStep
        exact .quit hFree
      · cases hStep
        exact .stay
  | loadConnected =>
      simp only [step] at hStep
      split at hStep
      · cases hStep
        exact .stay
      · cases hStep
        exact .stay
  | waiting wait =>
      simp only [step] at hStep
      split at hStep
      · cases hStep
      · rename_i hWait
        cases hStep
        exact WaitPhase.move_of_step hWait
      · rename_i hWait
        cases hStep
        exact WaitPhase.move_of_step hWait
  | afterWait =>
      simp only [step] at hStep
      split at hStep
      · cases hStep
        exact .quit hFree
      · cases hStep
        exact .stay
  | scan =>
      simp only [step] at hStep
      split at hStep
      · cases hStep
        exact .stay
      · cases hStep
        exact .stay
      · cases hStep
        exact .quit hFree
      · cases hStep
      · cases hStep
      · cases hStep
      · cases hStep
  | idle =>
      cases hStep
      exact .stay
  | claim =>
      simp only [step] at hStep
      split at hStep
      · cases hStep
        exact .stay
      · rename_i hConnected
        cases hStep
        exact .claim (eq_false_of_ne_true hConnected)
  | installing todo =>
      cases todo with
      | nil =>
          cases hStep
          exact .stay
      | cons op rest =>
          rcases hProper with ⟨token, hSuffix⟩
          have hMem := hSuffix.subset List.mem_cons_self
          cases hStep
          rw [SlotOp.gate_exec, onGate_of_claimSlot hMem]
          exact .stay
  | readCancel =>
      simp only [step] at hStep
      split at hStep
      · cases hStep
        exact .stay
      · cases hStep
        exact .stay
  | playing token combined => exact move_of_playStep hStep
  | releasing todo outcome =>
      cases todo with
      | nil =>
          cases hStep
          cases outcome with
          | completed => exact .stay
          | cancelled => exact .stay
      | cons op rest =>
          cases hStep
          exact release_move hProper now s
  | passed outcome =>
      cases outcome with
      | cancelled =>
          simp only [step] at hStep
          split at hStep
          · cases hStep
            exact .quit (by decide)
          · cases hStep
            exact .stay
      | completed =>
          simp only [step] at hStep
          split at hStep
          · cases hStep
            exact .stay
          · cases hStep
            exact .quit hFree
  | swapPending =>
      simp only [step] at hStep
      split at hStep
      · rename_i hPending
        cases hStep
        exact .park hPending
      · rename_i hPending
        cases hStep
        exact .go (eq_false_of_ne_true hPending)
  | parkPoll =>
      simp only [step] at hStep
      split at hStep
      · rename_i hPermit
        rw [Library.Notify.pollNotified_fst] at hPermit
        cases hStep
        exact .take hPermit
      · rename_i hPermit
        rw [Library.Notify.pollNotified_fst] at hPermit
        cases hStep
        exact .sleep (eq_false_of_ne_true hPermit)
  | parkAsleep =>
      simp only [step] at hStep
      split at hStep
      · cases hStep
      · rename_i resume hWake
        cases hStep
        exact .wake hWake
  | returned => cases hStep

theorem proper_of_playStep
    {token : Token}
    {combined : Bool}
    {phase' : PlayerPhase}
    (hStep :
      playStep shutdown event s token combined =
        some (phase', s')) :
    phase'.Proper := by
  cases event with
  | bridge =>
      simp only [playStep] at hStep
      split at hStep
      · cases hStep
        trivial
      · cases hStep
  | chunk captured =>
      simp only [playStep] at hStep
      split at hStep
      · cases hStep
        exact List.suffix_refl _
      · cases hStep
        trivial
  | finish =>
      cases hStep
      exact List.suffix_refl _
  | go => cases hStep
  | scanned result => cases hStep

/- A step leaves a rest of the same list. -/
theorem proper_of_step
    {phase phase' : PlayerPhase}
    (hProper : phase.Proper)
    (hStep :
      phase.step loopPlaylist shutdown now event s =
        some (phase', s')) :
    phase'.Proper := by
  cases phase with
  | waiting wait =>
      simp only [step] at hStep
      split at hStep
      · cases hStep
      · cases hStep
        trivial
      · cases hStep
        trivial
  | claim =>
      simp only [step] at hStep
      split at hStep
      · cases hStep
        trivial
      · cases hStep
        exact ⟨_, List.suffix_refl _⟩
  | installing todo =>
      cases todo with
      | nil =>
          cases hStep
          trivial
      | cons op rest =>
          rcases hProper with ⟨token, hSuffix⟩
          cases hStep
          exact
            ⟨token, (List.suffix_cons op rest).trans hSuffix⟩
  | readCancel =>
      simp only [step] at hStep
      split at hStep
      · cases hStep
        exact List.suffix_refl _
      · cases hStep
        trivial
  | playing token combined => exact proper_of_playStep hStep
  | releasing todo outcome =>
      cases todo with
      | nil =>
          cases hStep
          trivial
      | cons op rest =>
          cases hStep
          exact (List.suffix_cons op rest).trans hProper
  | passed outcome =>
      cases outcome with
      | cancelled =>
          simp only [step] at hStep
          split at hStep <;> cases hStep <;> trivial
      | completed =>
          simp only [step] at hStep
          split at hStep <;> cases hStep <;> trivial
  | scan =>
      simp only [step] at hStep
      split at hStep <;> cases hStep <;> trivial
  | idle =>
      cases hStep
      trivial
  | parkAsleep =>
      simp only [step] at hStep
      split at hStep
      · cases hStep
      · cases hStep
        trivial
  | returned => cases hStep
  | _ =>
      simp only [step] at hStep
      split at hStep <;> cases hStep <;> trivial

end PlayerPhase

end RustyIce
