import RustyIce.Server.TaskRole

/-
  The relay task of a mount, access by access.

  The result of a connection attempt, the data and the end
  of a stream come from the network; the back-off timer is
  the relay's own.

  Main declarations:
    * `RelayPhase`, `RelayEvent`
    * `RelayPhase.step`
    * `RelayPhase.role`, `RelayPhase.move_of_step`
-/

------------------------------------------------------------
-- Phases
------------------------------------------------------------

namespace RustyIce

inductive RunOutcome where
| ok
| failed
| cancelled
deriving DecidableEq, Repr

/- Where `RelayTask::run` is. -/
inductive RelayPhase where
| top
| loadConnected
| loadKind
| waiting (wait : WaitPhase)
| afterWait
| claim
| installing (todo : List SlotOp)
| readCancel
| connecting (token : Token)
| streaming (token : Token)
| releasing (todo : List SlotOp) (outcome : RunOutcome)
| passed (outcome : RunOutcome)
| backingOff
| swapPending
| parkPoll
| parkAsleep
| returned
| panicked
deriving DecidableEq, Repr

/- The relay goes on by itself, or the network acts. -/
inductive RelayEvent where
| go
| connected (codec : CodecId)
| connectFailed
| data (captured : Option Bytes)
| eof
| streamFailed
deriving DecidableEq, Repr

namespace RelayPhase

/- The biased wait of `run_once` for a connection. -/
def connectStep
    (shutdown : Bool)
    (event : RelayEvent)
    (s : Slot)
    (token : Token) : Option (RelayPhase × Slot) :=
  if shutdown || s.cancelled token then
    some (.releasing releaseSlot .cancelled, s)
  else
    match event with
    | .connected codec =>
        some
          (.streaming token,
            (SlotOp.storeCodec codec).exec 0 s)
    | .connectFailed =>
        some (.releasing releaseSlot .failed, s)
    | .go => none
    | .data _ => none
    | .eof => none
    | .streamFailed => none

/- The ingest of `run_once`: only its token stops it. -/
def streamStep
    (event : RelayEvent)
    (s : Slot)
    (token : Token) : Option (RelayPhase × Slot) :=
  if s.cancelled token then
    some (.releasing releaseSlot .cancelled, s)
  else
    match event with
    | .data captured =>
        some (.streaming token, s.storeHeader captured)
    | .eof => some (.releasing releaseSlot .ok, s)
    | .streamFailed =>
        some (.releasing releaseSlot .failed, s)
    | .go => none
    | .connected _ => none
    | .connectFailed => none

/- The next access of the relay. -/
def step
    (shutdown : Bool)
    (now : Nat)
    (event : RelayEvent)
    (s : Slot) : RelayPhase → Option (RelayPhase × Slot)
| .top =>
    if shutdown then some (.returned, s)
    else some (.loadConnected, s)
| .loadConnected =>
    if s.mount.sourceConnected then some (.loadKind, s)
    else some (.claim, s)
| .loadKind =>
    if s.mount.sourceKind = .relay then some (.claim, s)
    else some (.waiting .load, s)
| .waiting wait =>
    match wait.step shutdown s with
    | none => none
    | some (none, t) => some (.afterWait, t)
    | some (some next, t) => some (.waiting next, t)
| .afterWait =>
    if shutdown then some (.returned, s)
    else some (.claim, s)
| .claim =>
    if s.mount.sourceConnected then
      some (.top, s)
    else
      some
        (.installing (claimSlot .relay s.nextToken),
          s.connect)
| .installing todo =>
    match todo with
    | [] => some (.readCancel, s)
    | op :: rest => some (.installing rest, op.exec now s)
| .readCancel =>
    match s.mount.sourceCancel with
    | none => some (.panicked, s)
    | some token => some (.connecting token, s)
| .connecting token => connectStep shutdown event s token
| .streaming token => streamStep event s token
| .releasing todo outcome =>
    match todo with
    | [] => some (.passed outcome, s)
    | op :: rest =>
        some (.releasing rest outcome, op.exec now s)
| .passed .cancelled =>
    if shutdown then some (.returned, s)
    else some (.swapPending, s)
| .passed .ok => some (.backingOff, s)
| .passed .failed => some (.backingOff, s)
| .backingOff =>
    if shutdown then some (.returned, s)
    else some (.top, s)
| .swapPending =>
    if s.mount.preemptPending then
      some (.parkPoll, s.storePending false)
    else
      some (.top, s.storePending false)
| .parkPoll =>
    if shutdown then
      some (.returned, s)
    else
      let resume := s.mount.nonLiveResume.pollNotified
      if resume.1 then
        some (.top, s.storeResume resume.2)
      else
        some (.parkAsleep, s.storeResume resume.2)
| .parkAsleep =>
    if shutdown then
      some
        (.returned,
          s.storeResume s.mount.nonLiveResume.abandon)
    else
      match s.mount.nonLiveResume.wake with
      | none => none
      | some resume => some (.top, s.storeResume resume)
| .returned => none
| .panicked => none

/- The rest of a list of accesses is a rest of the relay's. -/
def Proper : RelayPhase → Prop
| .installing todo =>
    ∃ token, todo <:+ claimSlot .relay token
| .releasing todo _ => todo <:+ releaseSlot
| _ => True

def role : RelayPhase → TaskRole
| .top => .free
| .loadConnected => .free
| .loadKind => .free
| .waiting wait => WaitPhase.role (some wait)
| .afterWait => .free
| .claim => .free
| .installing _ => .holding
| .readCancel => .holding
| .connecting _ => .holding
| .streaming _ => .holding
| .releasing todo outcome =>
    releaseRole (outcome = .cancelled) todo
| .passed .cancelled => .ended
| .passed .ok => .free
| .passed .failed => .free
| .backingOff => .free
| .swapPending => .ended
| .parkPoll => .polling
| .parkAsleep => .asleep
| .returned => .gone
| .panicked => .gone

end RelayPhase

/- The pass ends by itself, unless it is being cancelled. -/
def RelayEvent.ends (event : RelayEvent) : Bool :=
  event = .connectFailed || event = .eof ||
    event = .streamFailed

end RustyIce

------------------------------------------------------------
-- Moves
------------------------------------------------------------

namespace RustyIce

namespace RelayPhase

variable {shutdown : Bool}
variable {now : Nat}
variable {event : RelayEvent}
variable {s s' : Slot}

theorem move_of_connectStep
    {token : Token}
    {phase' : RelayPhase}
    (hStep :
      connectStep shutdown event s token =
        some (phase', s')) :
    TaskMove event.ends s.gate .holding s'.gate
      phase'.role := by
  unfold connectStep at hStep
  split at hStep
  · cases hStep
    exact .stay
  · cases event with
    | connected codec =>
        cases hStep
        exact .stay
    | connectFailed =>
        cases hStep
        exact .finish rfl
    | go => cases hStep
    | data captured => cases hStep
    | eof => cases hStep
    | streamFailed => cases hStep

theorem move_of_streamStep
    {token : Token}
    {phase' : RelayPhase}
    (hStep :
      streamStep event s token = some (phase', s')) :
    TaskMove event.ends s.gate .holding s'.gate
      phase'.role := by
  unfold streamStep at hStep
  split at hStep
  · cases hStep
    exact .stay
  · cases event with
    | data captured =>
        cases hStep
        rw [Slot.gate_storeHeader]
        exact .stay
    | eof =>
        cases hStep
        exact .finish rfl
    | streamFailed =>
        cases hStep
        exact .finish rfl
    | go => cases hStep
    | connected codec => cases hStep
    | connectFailed => cases hStep

/- Each step of the relay is a move of a task. -/
theorem move_of_step
    {phase phase' : RelayPhase}
    (hProper : phase.Proper)
    (hStep :
      phase.step shutdown now event s = some (phase', s')) :
    TaskMove event.ends s.gate phase.role s'.gate
      phase'.role := by
  have hFree : ¬ TaskRole.free.Holds := by decide
  cases phase with
  | top =>
      simp only [step] at hStep
      split at hStep
      · cases hStep
        exact .quit hFree
      · cases hStep
        exact .stay
  | loadConnected =>
      simp only [step] at hStep
      split at hStep
      · cases hStep
        exact .stay
      · cases hStep
        exact .stay
  | loadKind =>
      simp only [step] at hStep
      split at hStep
      · cases hStep
        exact .stay
      · cases hStep
        exact .stay
  | waiting wait =>
      simp only [step] at hStep
      split at hStep
      · cases hStep
      · rename_i hWait
        cases hStep
        exact WaitPhase.move_of_step hWait
      · rename_i hWait
        cases hStep
        exact WaitPhase.move_of_step hWait
  | afterWait =>
      simp only [step] at hStep
      split at hStep
      · cases hStep
        exact .quit hFree
      · cases hStep
        exact .stay
  | claim =>
      simp only [step] at hStep
      split at hStep
      · cases hStep
        exact .stay
      · rename_i hConnected
        cases hStep
        exact .claim (eq_false_of_ne_true hConnected)
  | installing todo =>
      cases todo with
      | nil =>
          cases hStep
          exact .stay
      | cons op rest =>
          rcases hProper with ⟨token, hSuffix⟩
          have hMem := hSuffix.subset List.mem_cons_self
          cases hStep
          rw [SlotOp.gate_exec, onGate_of_claimSlot hMem]
          exact .stay
  | readCancel =>
      simp only [step] at hStep
      split at hStep
      · cases hStep
        exact .crash
      · cases hStep
        exact .stay
  | connecting token => exact move_of_connectStep hStep
  | streaming token => exact move_of_streamStep hStep
  | releasing todo outcome =>
      cases todo with
      | nil =>
          cases hStep
          cases outcome with
          | ok => exact .stay
          | failed => exact .stay
          | cancelled => exact .stay
      | cons op rest =>
          cases hStep
          exact release_move hProper now s
  | passed outcome =>
      cases outcome with
      | cancelled =>
          simp only [step] at hStep
          split at hStep
          · cases hStep
            exact .quit (by decide)
          · cases hStep
            exact .stay
      | ok =>
          cases hStep
          exact .stay
      | failed =>
          cases hStep
          exact .stay
  | backingOff =>
      simp only [step] at hStep
      split at hStep
      · cases hStep
        exact .quit hFree
      · cases hStep
        exact .stay
  | swapPending =>
      simp only [step] at hStep
      split at hStep
      · rename_i hPending
        cases hStep
        exact .park hPending
      · rename_i hPending
        cases hStep
        exact .go (eq_false_of_ne_true hPending)
  | parkPoll =>
      simp only [step] at hStep
      split at hStep
      · cases hStep
        exact .quit (by decide)
      · split at hStep
        · rename_i hPermit
          rw [Library.Notify.pollNotified_fst] at hPermit
          cases hStep
          exact .take hPermit
        · rename_i hPermit
          rw [Library.Notify.pollNotified_fst] at hPermit
          cases hStep
          exact .sleep (eq_false_of_ne_true hPermit)
  | parkAsleep =>
      simp only [step] at hStep
      split at hStep
      · cases hStep
        exact .quitAsleep
      · split at hStep
        · cases hStep
        · rename_i resume hWake
          cases hStep
          exact .wake hWake
  | returned => cases hStep
  | panicked => cases hStep

theorem proper_of_connectStep
    {token : Token}
    {phase' : RelayPhase}
    (hStep :
      connectStep shutdown event s token =
        some (phase', s')) :
    phase'.Proper := by
  unfold connectStep at hStep
  split at hStep
  · cases hStep
    exact List.suffix_refl _
  · cases event with
    | connected codec =>
        cases hStep
        trivial
    | connectFailed =>
        cases hStep
        exact List.suffix_refl _
    | go => cases hStep
    | data captured => cases hStep
    | eof => cases hStep
    | streamFailed => cases hStep

theorem proper_of_streamStep
    {token : Token}
    {phase' : RelayPhase}
    (hStep :
      streamStep event s token = some (phase', s')) :
    phase'.Proper := by
  unfold streamStep at hStep
  split at hStep
  · cases hStep
    exact List.suffix_refl _
  · cases event with
    | data captured =>
        cases hStep
        trivial
    | eof =>
        cases hStep
        exact List.suffix_refl _
    | streamFailed =>
        cases hStep
        exact List.suffix_refl _
    | go => cases hStep
    | connected codec => cases hStep
    | connectFailed => cases hStep

/- A step leaves a rest of the same list. -/
theorem proper_of_step
    {phase phase' : RelayPhase}
    (hProper : phase.Proper)
    (hStep :
      phase.step shutdown now event s = some (phase', s')) :
    phase'.Proper := by
  cases phase with
  | waiting wait =>
      simp only [step] at hStep
      split at hStep
      · cases hStep
      · cases hStep
        trivial
      · cases hStep
        trivial
  | claim =>
      simp only [step] at hStep
      split at hStep
      · cases hStep
        trivial
      · cases hStep
        exact ⟨_, List.suffix_refl _⟩
  | installing todo =>
      cases todo with
      | nil =>
          cases hStep
          trivial
      | cons op rest =>
          rcases hProper with ⟨token, hSuffix⟩
          cases hStep
          exact
            ⟨token, (List.suffix_cons op rest).trans hSuffix⟩
  | connecting token => exact proper_of_connectStep hStep
  | streaming token => exact proper_of_streamStep hStep
  | releasing todo outcome =>
      cases todo with
      | nil =>
          cases hStep
          trivial
      | cons op rest =>
          cases hStep
          exact (List.suffix_cons op rest).trans hProper
  | passed outcome =>
      cases outcome with
      | cancelled =>
          simp only [step] at hStep
          split at hStep
          · cases hStep
            trivial
          · cases hStep
            trivial
      | ok =>
          cases hStep
          trivial
      | failed =>
          cases hStep
          trivial
  | parkPoll =>
      simp only [step] at hStep
      split at hStep
      · cases hStep
        trivial
      · split at hStep <;> cases hStep <;> trivial
  | parkAsleep =>
      simp only [step] at hStep
      split at hStep
      · cases hStep
        trivial
      · split at hStep
        · cases hStep
        · cases hStep
          trivial
  | returned => cases hStep
  | panicked => cases hStep
  | _ =>
      simp only [step] at hStep
      split at hStep <;> cases hStep <;> trivial

end RelayPhase

end RustyIce
