import RustyIce.Server.OneOwner

/-
  What an owner stored in the slot stays there until its own
  release, in every run in which no guard clears a field that
  another owner has stored by then.

  Main declarations:
    * `Session`, `KeepsSession`, `SlotOp.Done`
    * `Stage`, `MountSystem.stage`
    * `ContentsKept`
    * `ClearsNothing`, `ContentsOk`
    * `contents_kept`
-/

------------------------------------------------------------
-- What An Owner Stores
------------------------------------------------------------

namespace RustyIce

/- The fields of a slot that belong to its owner. -/
structure Session where
  cancel : Option Token
  connectedAt : Option Nat
  overlay : Option SourceOverlay
  headers : Option Bytes
deriving DecidableEq, Repr

namespace Slot

def session (s : Slot) : Session where
  cancel := s.mount.sourceCancel
  connectedAt := s.mount.connectedAt
  overlay := s.mount.sourceOverlay
  headers := s.mount.headerBytes

/- The token of the last claim. -/
def lastToken (s : Slot) : Token :=
  s.nextToken - 1

end Slot

/-
  What a party has in the slot is left alone. A task has no
  overlay there.
-/
structure KeepsSession
    (p : Streamer)
    (s s' : Slot) : Prop where
  cancel : s'.mount.sourceCancel = s.mount.sourceCancel
  connectedAt : s'.mount.connectedAt = s.mount.connectedAt
  overlay :
    p ≠ .task →
      s'.mount.sourceOverlay = s.mount.sourceOverlay
  headers : s'.mount.headerBytes = s.mount.headerBytes

/- What a store of an installation left is still there. -/
def SlotOp.Done (s : Slot) : SlotOp → Prop
| .storeCancel token => s.mount.sourceCancel = some token
| .stampConnectedAt => s.mount.connectedAt ≠ none
| .storeOverlay overlay =>
    s.mount.sourceOverlay = some overlay
| _ => True

/-
  What a party has of the slot: the rest of its installation
  if it has claimed and not begun its release, whether it is
  releasing with its token still in place, and the token it
  listens to.
-/
structure Stage where
  todo : Option (List SlotOp)
  leaving : Bool
  token : Option Token
deriving DecidableEq, Repr

namespace Stage

def absent : Stage where
  todo := none
  leaving := false
  token := none

/- The party has stored its token and not cleared it. -/
def TokenStored (stage : Stage) : Prop :=
  (∃ todo ∈ stage.todo,
    ∀ op ∈ todo, ∀ token, op ≠ .storeCancel token) ∨
    stage.leaving = true

/- The installation is finished, and no release begun. -/
def Installed (stage : Stage) : Prop :=
  stage.todo = some []

end Stage

def PlayerPhase.stage : PlayerPhase → Stage
| .installing todo =>
    { todo := some todo, leaving := false, token := none }
| .readCancel =>
    { todo := some [], leaving := false, token := none }
| .playing token _ =>
    { todo := some []
      leaving := false
      token := some token }
| .releasing todo _ =>
    { todo := none
      leaving := todo = releaseSlot
      token := none }
| _ => .absent

def RelayPhase.stage : RelayPhase → Stage
| .installing todo =>
    { todo := some todo, leaving := false, token := none }
| .readCancel =>
    { todo := some [], leaving := false, token := none }
| .connecting token =>
    { todo := some []
      leaving := false
      token := some token }
| .streaming token =>
    { todo := some []
      leaving := false
      token := some token }
| .releasing todo _ =>
    { todo := none
      leaving := todo = releaseSlot
      token := none }
| _ => .absent

def SourcePhase.stage : SourcePhase → Stage
| .installing todo token =>
    { todo := some todo
      leaving := false
      token := some token }
| .streaming token =>
    { todo := some []
      leaving := false
      token := some token }
| .dropping todo =>
    { todo := none
      leaving := .clearConnected ∈ todo
      token := none }
| _ => .absent

def Task.stage : Task → Stage
| .player _ phase => phase.stage
| .relay phase => phase.stage

/- All the stores of a task's claim. -/
def Task.install (s : Slot) : Task → List SlotOp
| .player _ _ => claimSlot .autoDj s.lastToken
| .relay _ => claimSlot .relay s.lastToken

/- All the stores of a live source's claim. -/
def Source.install (h : Source) (s : Slot) : List SlotOp :=
  installSource s.lastToken h.request.codec
    h.request.overlay

namespace MountSystem

/- The stage of a party, and its whole installation. -/
def stage (s : MountSystem) : Streamer → Stage
| .task => s.task.stage
| .source i =>
    match s.sources[i]? with
    | none => .absent
    | some h => h.phase.stage

def install (s : MountSystem) : Streamer → List SlotOp
| .task => s.task.install s.slot
| .source i =>
    match s.sources[i]? with
    | none => []
    | some h => h.install s.slot

def parties (s : MountSystem) : List Streamer :=
  .task :: (List.range s.sources.length).map .source

end MountSystem

/- The party that takes a step. -/
def MountLabel.party : MountLabel → Option Streamer
| .player _ _ => some .task
| .relay _ _ => some .task
| .source i _ _ => some (.source i)
| .capture i _ => some (.source i)
| .arrive _ _ _ _ => none
| .kick => none
| .cancelTask => none

end RustyIce

------------------------------------------------------------
-- The Property
------------------------------------------------------------

namespace RustyIce

/-
  A clear by a guard hits nothing that another owner has
  stored by then.
-/
def ClearsNothing (s : MountSystem) : SlotOp → Prop
| .clearCancel =>
    ∀ p ∈ s.parties, ¬ (s.stage p).TokenStored
| .clearConnectedAt =>
    ∀ p ∈ s.parties,
      ∀ todo ∈ (s.stage p).todo, .stampConnectedAt ∈ todo
| .clearOverlay =>
    ∀ p ∈ s.parties,
      ∀ todo ∈ (s.stage p).todo,
        ∀ op ∈ s.install p,
          (∃ overlay, op = .storeOverlay overlay) → op ∈ todo
| .clearHeader =>
    s.slot.mount.headerBytes ≠ none →
      ∀ p ∈ s.parties, ¬ (s.stage p).Installed
| _ => True

/-
  A guard that has freed the slot clears nothing of the next
  owner, and who reads the token of a taken slot to cancel it
  does so while the owner has it stored.
-/
def ContentsOk
    (s : MountSystem) : MountLabel → Prop
| .source i _ _ =>
    ∀ h ∈ s.sources[i]?,
      match h.phase with
      | .dropping (op :: rest) =>
          .clearConnected ∉ op :: rest → ClearsNothing s op
      | .readCancel =>
          s.slot.mount.sourceConnected = true →
            ∃ p ∈ s.parties, (s.stage p).TokenStored
      | _ => True
| .kick =>
    s.slot.mount.sourceConnected = true →
      ∃ p ∈ s.parties, (s.stage p).TokenStored
| .player _ _ => True
| .relay _ _ => True
| .arrive _ _ _ _ => True
| .capture _ _ => True
| .cancelTask => True

/-
  The contents of the slot are the owner's: what it stored is
  there, no other party's step changes them, and a kick or a
  preemption finds its token.
-/
structure ContentsKept (s : MountSystem) : Prop where
  stored :
    ∀ p,
      (s.stage p).Installed →
        ∀ op ∈ s.install p, op.Done s.slot
  token :
    ∀ p token,
      (s.stage p).token = some token →
        token = s.slot.lastToken
  rivals :
    ∀ p label t,
      (s.stage p).Installed →
        label.party ≠ some p →
          ContentsOk s label →
            s.step label = some t →
              KeepsSession p s.slot t.slot
  kick :
    ∀ t,
      s.slot.mount.sourceConnected = true →
        ContentsOk s .kick →
          s.step .kick = some t →
            t.slot.cancelled s.slot.lastToken = true
  preempt :
    ∀ i now expired h t,
      s.sources[i]? = some h →
        h.phase = .readCancel →
          s.slot.mount.sourceConnected = true →
            ContentsOk s (.source i now expired) →
              s.step (.source i now expired) = some t →
                t.sources[i]? =
                  some
                    { h with
                      phase := .cancelOwner s.slot.lastToken }
  expect : s.task ≠ .relay .panicked

end RustyIce

------------------------------------------------------------
-- Stores And Clears
------------------------------------------------------------

namespace RustyIce

namespace SlotOp

/- A store of an installation. -/
def Stores : SlotOp → Prop
| .storeKind _ => True
| .stampConnectedAt => True
| .storeCancel _ => True
| .storeCodec _ => True
| .storeOverlay _ => True
| _ => False

@[simp] theorem exec_nextToken
    (now : Nat)
    (s : Slot)
    (op : SlotOp) :
    (op.exec now s).nextToken = s.nextToken := by
  cases op <;> rfl

@[simp] theorem exec_lastToken
    (now : Nat)
    (s : Slot)
    (op : SlotOp) :
    (op.exec now s).lastToken = s.lastToken := by
  simp [Slot.lastToken]

theorem done_of_session
    {s s' : Slot}
    (hSession : s'.session = s.session)
    {op : SlotOp}
    (hDone : op.Done s) :
    op.Done s' := by
  have hCancel := congrArg Session.cancel hSession
  have hSince := congrArg Session.connectedAt hSession
  have hOverlay := congrArg Session.overlay hSession
  simp only [Slot.session] at hCancel hSince hOverlay
  cases op with
  | storeCancel token => exact hCancel.trans hDone
  | stampConnectedAt =>
      intro hNone
      exact hDone (hSince.symm.trans hNone)
  | storeOverlay overlay => exact hOverlay.trans hDone
  | _ => trivial

/- What a store leaves. -/
theorem done_exec_self
    (now : Nat)
    (s : Slot)
    (op : SlotOp) :
    op.Done (op.exec now s) := by
  cases op with
  | stampConnectedAt => exact Option.some_ne_none now
  | _ => first | rfl | trivial

end SlotOp

/-
  The stores of one installation: each field is stored to
  once, and the token is the given one.
-/
structure Installs
    (full : List SlotOp)
    (token : Token) : Prop where
  stores : ∀ op ∈ full, op.Stores
  token : ∀ k, .storeCancel k ∈ full ↔ k = token
  since : .stampConnectedAt ∈ full
  overlay :
    ∀ a b,
      .storeOverlay a ∈ full →
        .storeOverlay b ∈ full → a = b

theorem installs_claimSlot
    (kind : SourceKind)
    (token : Token) :
    Installs (claimSlot kind token) token where
  stores := by
    intro op hMem
    simp only [claimSlot, List.mem_cons, List.not_mem_nil,
      or_false] at hMem
    rcases hMem with rfl | rfl | rfl <;> trivial
  token := by simp [claimSlot]
  since := by simp [claimSlot]
  overlay := by simp [claimSlot]

theorem installs_installSource
    (token : Token)
    (codec : CodecId)
    (overlay : SourceOverlay) :
    Installs (installSource token codec overlay) token where
  stores := by
    intro op hMem
    simp only [installSource, List.mem_cons,
      List.not_mem_nil, or_false] at hMem
    rcases hMem with rfl | rfl | rfl | rfl <;> trivial
  token := by simp [installSource]
  since := by simp [installSource]
  overlay := by
    intro a b hA hB
    simp only [installSource, List.mem_cons, reduceCtorEq,
      SlotOp.storeOverlay.injEq, List.not_mem_nil, or_false,
      false_or] at hA hB
    rw [hA, hB]

/- Another store of the same installation keeps it. -/
theorem Installs.done_exec
    {full : List SlotOp}
    {token : Token}
    (hInstalls : Installs full token)
    {op other : SlotOp}
    (hOp : op ∈ full)
    (hOther : other ∈ full)
    (now : Nat)
    {s : Slot}
    (hDone : other.Done s) :
    other.Done (op.exec now s) := by
  have hStores := hInstalls.stores op hOp
  cases op with
  | storeCancel k =>
      cases other with
      | storeCancel j =>
          have hK := (hInstalls.token k).mp hOp
          have hJ := (hInstalls.token j).mp hOther
          simp [SlotOp.Done, SlotOp.exec, hK, hJ]
      | _ => exact hDone
  | stampConnectedAt =>
      cases other with
      | stampConnectedAt => exact Option.some_ne_none now
      | _ => exact hDone
  | storeOverlay a =>
      cases other with
      | storeOverlay b =>
          have hSame := hInstalls.overlay a b hOp hOther
          simp [SlotOp.Done, SlotOp.exec, hSame]
      | _ => exact hDone
  | storeKind kind => cases other <;> exact hDone
  | storeCodec codec => cases other <;> exact hDone
  | _ => exact hStores.elim

/-
  The slot is as the stage says: what is stored is there, and
  the token is the last one.
-/
structure Fine
    (full : List SlotOp)
    (stage : Stage)
    (s : Slot) : Prop where
  installed :
    ∀ todo,
      stage.todo = some todo →
        todo <:+ full ∧
          ∀ op ∈ full, op ∉ todo → op.Done s
  leaving :
    stage.leaving = true →
      s.mount.sourceCancel = some s.lastToken
  token :
    ∀ k, stage.token = some k → k = s.lastToken

namespace Fine

variable {full : List SlotOp}
variable {stage : Stage}
variable {s s' : Slot}

theorem absent
    (full : List SlotOp)
    (s : Slot) :
    Fine full .absent s where
  installed := by
    intro todo hTodo
    cases hTodo
  leaving := by
    intro hLeaving
    cases hLeaving
  token := by
    intro k hToken
    cases hToken

/- A claim, with all its stores ahead. -/
theorem claimed
    (full : List SlotOp)
    (s : Slot)
    {token : Option Token}
    (hToken : ∀ k, token = some k → k = s.lastToken) :
    Fine full
      { todo := some full
        leaving := false
        token := token }
      s where
  installed := by
    intro todo hTodo
    cases hTodo
    exact
      ⟨List.suffix_refl _,
        fun op hMem hNot => absurd hMem hNot⟩
  leaving := by
    intro hLeaving
    cases hLeaving
  token := hToken

/- Only the session and the tokens matter. -/
theorem of_session
    (hFine : Fine full stage s)
    (hSession : s'.session = s.session)
    (hNext : s'.nextToken = s.nextToken) :
    Fine full stage s' where
  installed := by
    intro todo hTodo
    rcases hFine.installed todo hTodo with
      ⟨hSuffix, hDone⟩
    refine ⟨hSuffix, ?_⟩
    intro op hMem hNot
    exact SlotOp.done_of_session hSession (hDone op hMem hNot)
  leaving := by
    intro hLeaving
    have hCancel := congrArg Session.cancel hSession
    unfold Slot.lastToken
    rw [hNext]
    exact hCancel.trans (hFine.leaving hLeaving)
  token := by
    unfold Slot.lastToken
    rw [hNext]
    exact hFine.token

/- A token that is stored is the last one. -/
theorem cancel_of_tokenStored
    (hFine : Fine full stage s)
    (hInstalls : Installs full s.lastToken)
    (hStored : stage.TokenStored) :
    s.mount.sourceCancel = some s.lastToken := by
  rcases hStored with ⟨todo, hTodo, hNone⟩ | hLeaving
  · have hMem : .storeCancel s.lastToken ∈ full :=
      (hInstalls.token _).mpr rfl
    refine (hFine.installed todo hTodo).2 _ hMem ?_
    intro hThere
    exact hNone _ hThere s.lastToken rfl
  · exact hFine.leaving hLeaving

theorem done_of_installed
    (hFine : Fine full stage s)
    (hInstalled : stage.Installed) :
    ∀ op ∈ full, op.Done s := by
  intro op hMem
  exact
    (hFine.installed [] hInstalled).2 op hMem
      List.not_mem_nil

/- The next store of an installation. -/
theorem exec
    (hInstalls : Installs full s.lastToken)
    {op : SlotOp}
    {rest : List SlotOp}
    {token : Option Token}
    (hFine :
      Fine full
        { todo := some (op :: rest)
          leaving := false
          token := token } s)
    (now : Nat) :
    Fine full
      { todo := some rest, leaving := false, token := token }
      (op.exec now s) where
  installed := by
    intro todo hTodo
    cases hTodo
    rcases hFine.installed (op :: rest) rfl with
      ⟨hSuffix, hDone⟩
    refine ⟨(List.suffix_cons op rest).trans hSuffix, ?_⟩
    intro other hOther hNot
    by_cases hSame : other = op
    · rw [hSame]
      exact SlotOp.done_exec_self now s op
    · have hBefore :=
        hDone other hOther (by simp [hSame, hNot])
      exact
        hInstalls.done_exec
          (hSuffix.subset List.mem_cons_self) hOther now
          hBefore
  leaving := by
    intro hLeaving
    cases hLeaving
  token := by
    rw [SlotOp.exec_lastToken]
    exact hFine.token

end Fine

end RustyIce

------------------------------------------------------------
-- Steps Of The Owner
------------------------------------------------------------

namespace RustyIce

/- The last store of a release is still to come. -/
theorem releaseSlot_of_suffix
    {op : SlotOp}
    {rest : List SlotOp}
    (hSuffix : op :: rest <:+ releaseSlot) :
    rest ≠ releaseSlot := by
  intro hSame
  have hLength := hSuffix.length_le
  rw [hSame, List.length_cons] at hLength
  omega

/- A wait for a live source touches the notification only. -/
theorem WaitPhase.session_of_step
    {shutdown : Bool}
    {s s' : Slot}
    {phase : WaitPhase}
    {next : Option WaitPhase}
    (hStep : phase.step shutdown s = some (next, s')) :
    s'.session = s.session ∧ s'.nextToken = s.nextToken := by
  cases phase with
  | load =>
      simp only [step] at hStep
      split at hStep <;> cases hStep <;> exact ⟨rfl, rfl⟩
  | poll =>
      simp only [step] at hStep
      split at hStep
      · cases hStep
        exact ⟨rfl, rfl⟩
      · split at hStep <;> cases hStep <;> exact ⟨rfl, rfl⟩
  | asleep =>
      simp only [step] at hStep
      split at hStep
      · cases hStep
        exact ⟨rfl, rfl⟩
      · split at hStep
        · cases hStep
        · cases hStep
          exact ⟨rfl, rfl⟩

namespace PlayerPhase

variable {loopPlaylist shutdown : Bool}
variable {now : Nat}
variable {event : PlayerEvent}
variable {s s' : Slot}

/- The stores of the player's claim. -/
def install (s : Slot) : List SlotOp :=
  claimSlot .autoDj s.lastToken

theorem fine_of_playStep
    {token : Token}
    {combined : Bool}
    {phase' : PlayerPhase}
    (hFine :
      Fine (install s) (playing token combined).stage s)
    (hStep :
      playStep shutdown event s token combined =
        some (phase', s')) :
    Fine (install s') phase'.stage s' := by
  have hCancel :=
    hFine.cancel_of_tokenStored (installs_claimSlot _ _)
      (.inl ⟨[], rfl, by simp⟩)
  have hLeaves :
      Fine (install s)
        { todo := none, leaving := true, token := none } s :=
    ⟨by simp, fun _ => hCancel, by simp⟩
  unfold playStep at hStep
  cases event with
  | bridge =>
      simp only at hStep
      split at hStep
      · cases hStep
        exact hFine
      · cases hStep
  | chunk captured =>
      simp only at hStep
      split at hStep
      · cases hStep
        exact hLeaves
      · cases hStep
        cases captured with
        | none => exact hFine
        | some bytes =>
            exact
              ⟨fun todo hTodo => hFine.installed todo hTodo,
                fun hLeaving => hFine.leaving hLeaving,
                hFine.token⟩
  | finish =>
      cases hStep
      exact hLeaves
  | go => cases hStep
  | scanned result => cases hStep

/- A player keeps its own session in order. -/
theorem fine_of_step
    {phase phase' : PlayerPhase}
    (hProper : phase.Proper)
    (hFine : Fine (install s) phase.stage s)
    (hStep :
      phase.step loopPlaylist shutdown now event s =
        some (phase', s')) :
    Fine (install s') phase'.stage s' := by
  cases phase with
  | claim =>
      simp only [step] at hStep
      split at hStep
      · cases hStep
        exact .absent _ _
      · cases hStep
        apply Fine.claimed
        intro k hToken
        cases hToken
  | installing todo =>
      cases todo with
      | nil =>
          cases hStep
          exact hFine
      | cons op rest =>
          cases hStep
          unfold install
          rw [SlotOp.exec_lastToken]
          exact Fine.exec (installs_claimSlot _ _) hFine now
  | readCancel =>
      have hCancel :=
        hFine.cancel_of_tokenStored (installs_claimSlot _ _)
          (.inl ⟨[], rfl, by simp⟩)
      simp only [step, hCancel] at hStep
      cases hStep
      refine ⟨hFine.installed, by simp [stage], ?_⟩
      intro k hToken
      cases hToken
      rfl
  | playing token combined =>
      exact fine_of_playStep hFine hStep
  | releasing todo outcome =>
      cases todo with
      | nil =>
          cases hStep
          cases outcome <;> exact .absent _ _
      | cons op rest =>
          cases hStep
          have hNot : rest ≠ releaseSlot :=
            releaseSlot_of_suffix hProper
          refine ⟨by simp [stage], ?_, by simp [stage]⟩
          simp [stage, hNot]
  | waiting wait =>
      simp only [step] at hStep
      split at hStep
      · cases hStep
      · cases hStep
        exact .absent _ _
      · cases hStep
        exact .absent _ _
  | scan =>
      simp only [step] at hStep
      split at hStep <;> cases hStep <;> exact .absent _ _
  | passed outcome =>
      cases outcome with
      | completed =>
          simp only [step] at hStep
          split at hStep <;> cases hStep <;> exact .absent _ _
      | cancelled =>
          simp only [step] at hStep
          split at hStep <;> cases hStep <;> exact .absent _ _
  | top | loadConnected | afterWait | swapPending
  | parkPoll =>
      simp only [step] at hStep
      split at hStep <;> cases hStep <;> exact .absent _ _
  | parkAsleep =>
      simp only [step] at hStep
      split at hStep
      · cases hStep
      · cases hStep
        exact .absent _ _
  | idle =>
      cases hStep
      exact .absent _ _
  | returned => cases hStep

/- Off the slot it leaves a taken one's session alone. -/
theorem session_of_step
    {phase phase' : PlayerPhase}
    (hProper : phase.Proper)
    (hNot : ¬ phase.Owns)
    (hConnected : s.mount.sourceConnected = true)
    (hStep :
      phase.step loopPlaylist shutdown now event s =
        some (phase', s')) :
    s'.session = s.session ∧ s'.nextToken = s.nextToken := by
  cases phase with
  | claim =>
      simp only [step, hConnected, if_true] at hStep
      cases hStep
      exact ⟨rfl, rfl⟩
  | installing | readCancel | playing =>
      exact absurd trivial hNot
  | releasing todo outcome =>
      cases todo with
      | nil =>
          cases hStep
          exact ⟨rfl, rfl⟩
      | cons op rest =>
          rcases releaseSlot_suffix hProper with
            ⟨rfl, rfl⟩ | ⟨_, _, hLater⟩
          · exact absurd List.mem_cons_self hNot
          · exact absurd (List.mem_cons_of_mem _ hLater) hNot
  | waiting wait =>
      simp only [step] at hStep
      split at hStep
      · cases hStep
      · rename_i hWait
        cases hStep
        exact WaitPhase.session_of_step hWait
      · rename_i hWait
        cases hStep
        exact WaitPhase.session_of_step hWait
  | scan =>
      simp only [step] at hStep
      split at hStep <;> cases hStep <;> exact ⟨rfl, rfl⟩
  | passed outcome =>
      cases outcome <;>
        simp only [step] at hStep <;>
        split at hStep <;>
        cases hStep <;>
        exact ⟨rfl, rfl⟩
  | top | loadConnected | afterWait | swapPending
  | parkPoll =>
      simp only [step] at hStep
      split at hStep <;> cases hStep <;> exact ⟨rfl, rfl⟩
  | parkAsleep =>
      simp only [step] at hStep
      split at hStep
      · cases hStep
      · cases hStep
        exact ⟨rfl, rfl⟩
  | idle =>
      cases hStep
      exact ⟨rfl, rfl⟩
  | returned => cases hStep

end PlayerPhase

namespace RelayPhase

variable {shutdown : Bool}
variable {now : Nat}
variable {event : RelayEvent}
variable {s s' : Slot}

/- The stores of the relay's claim. -/
def install (s : Slot) : List SlotOp :=
  claimSlot .relay s.lastToken

/- With its token in place a relay may begin its release. -/
theorem fine_releasing
    {stage : Stage}
    (hFine : Fine (install s) stage s)
    (hStored : stage.TokenStored)
    (outcome : RunOutcome) :
    Fine (install s) (releasing releaseSlot outcome).stage
      s where
  installed := by simp [RelayPhase.stage]
  leaving := fun _ =>
    hFine.cancel_of_tokenStored (installs_claimSlot _ _)
      hStored
  token := by simp [RelayPhase.stage]

theorem fine_of_connectStep
    {token : Token}
    {phase' : RelayPhase}
    (hFine : Fine (install s) (connecting token).stage s)
    (hStep :
      connectStep shutdown event s token =
        some (phase', s')) :
    Fine (install s') phase'.stage s' := by
  have hStored : (connecting token).stage.TokenStored :=
    .inl ⟨[], rfl, by simp⟩
  unfold connectStep at hStep
  split at hStep
  · cases hStep
    exact fine_releasing hFine hStored .cancelled
  · cases event with
    | connected codec =>
        cases hStep
        exact hFine.of_session rfl rfl
    | connectFailed =>
        cases hStep
        exact fine_releasing hFine hStored .failed
    | _ => cases hStep

theorem fine_of_streamStep
    {token : Token}
    {phase' : RelayPhase}
    (hFine : Fine (install s) (streaming token).stage s)
    (hStep :
      streamStep event s token = some (phase', s')) :
    Fine (install s') phase'.stage s' := by
  have hStored : (streaming token).stage.TokenStored :=
    .inl ⟨[], rfl, by simp⟩
  unfold streamStep at hStep
  split at hStep
  · cases hStep
    exact fine_releasing hFine hStored .cancelled
  · cases event with
    | data captured =>
        cases hStep
        cases captured with
        | none => exact hFine
        | some bytes =>
            exact
              ⟨fun todo hTodo => hFine.installed todo hTodo,
                fun hLeaving => hFine.leaving hLeaving,
                hFine.token⟩
    | eof =>
        cases hStep
        exact fine_releasing hFine hStored .ok
    | streamFailed =>
        cases hStep
        exact fine_releasing hFine hStored .failed
    | _ => cases hStep

/-
  A relay keeps its own session in order, and finds its
  token.
-/
theorem fine_of_step
    {phase phase' : RelayPhase}
    (hProper : phase.Proper)
    (hFine : Fine (install s) phase.stage s)
    (hStep :
      phase.step shutdown now event s = some (phase', s')) :
    Fine (install s') phase'.stage s' ∧
      phase' ≠ .panicked := by
  cases phase with
  | claim =>
      simp only [step] at hStep
      split at hStep
      · cases hStep
        exact ⟨.absent _ _, by simp⟩
      · cases hStep
        refine ⟨?_, by simp⟩
        apply Fine.claimed
        intro k hToken
        cases hToken
  | installing todo =>
      cases todo with
      | nil =>
          cases hStep
          exact ⟨hFine, by simp⟩
      | cons op rest =>
          cases hStep
          refine ⟨?_, by simp⟩
          unfold install
          rw [SlotOp.exec_lastToken]
          exact Fine.exec (installs_claimSlot _ _) hFine now
  | readCancel =>
      have hCancel :=
        hFine.cancel_of_tokenStored (installs_claimSlot _ _)
          (.inl ⟨[], rfl, by simp⟩)
      simp only [step, hCancel] at hStep
      cases hStep
      refine ⟨⟨hFine.installed, by simp [stage], ?_⟩, by simp⟩
      intro k hToken
      cases hToken
      rfl
  | connecting token =>
      refine ⟨fine_of_connectStep hFine hStep, ?_⟩
      rintro rfl
      rcases readCancel_of_panicked hStep with ⟨hPhase, _⟩
      cases hPhase
  | streaming token =>
      refine ⟨fine_of_streamStep hFine hStep, ?_⟩
      rintro rfl
      rcases readCancel_of_panicked hStep with ⟨hPhase, _⟩
      cases hPhase
  | releasing todo outcome =>
      cases todo with
      | nil =>
          cases hStep
          cases outcome <;> exact ⟨.absent _ _, by simp⟩
      | cons op rest =>
          cases hStep
          have hNot : rest ≠ releaseSlot :=
            releaseSlot_of_suffix hProper
          refine ⟨⟨by simp [stage], ?_, by simp [stage]⟩, by simp⟩
          simp [stage, hNot]
  | waiting wait =>
      simp only [step] at hStep
      split at hStep
      · cases hStep
      · cases hStep
        exact ⟨.absent _ _, by simp⟩
      · cases hStep
        exact ⟨.absent _ _, by simp⟩
  | passed outcome =>
      cases outcome with
      | cancelled =>
          simp only [step] at hStep
          split at hStep <;>
            cases hStep <;>
            exact ⟨.absent _ _, by simp⟩
      | ok =>
          cases hStep
          exact ⟨.absent _ _, by simp⟩
      | failed =>
          cases hStep
          exact ⟨.absent _ _, by simp⟩
  | top | loadConnected | loadKind | afterWait | backingOff
  | swapPending =>
      simp only [step] at hStep
      split at hStep <;>
        cases hStep <;>
        exact ⟨.absent _ _, by simp⟩
  | parkPoll | parkAsleep =>
      simp only [step] at hStep
      split at hStep
      · cases hStep
        exact ⟨.absent _ _, by simp⟩
      · split at hStep <;>
          cases hStep <;>
          exact ⟨.absent _ _, by simp⟩
  | returned => cases hStep
  | panicked => cases hStep

/- Off the slot it leaves a taken one's session alone. -/
theorem session_of_step
    {phase phase' : RelayPhase}
    (hProper : phase.Proper)
    (hNot : ¬ phase.Owns)
    (hConnected : s.mount.sourceConnected = true)
    (hStep :
      phase.step shutdown now event s = some (phase', s')) :
    s'.session = s.session ∧ s'.nextToken = s.nextToken := by
  cases phase with
  | claim =>
      simp only [step, hConnected, if_true] at hStep
      cases hStep
      exact ⟨rfl, rfl⟩
  | installing | readCancel | connecting | streaming
  | panicked =>
      exact absurd trivial hNot
  | releasing todo outcome =>
      cases todo with
      | nil =>
          cases hStep
          exact ⟨rfl, rfl⟩
      | cons op rest =>
          rcases releaseSlot_suffix hProper with
            ⟨rfl, rfl⟩ | ⟨_, _, hLater⟩
          · exact absurd List.mem_cons_self hNot
          · exact absurd (List.mem_cons_of_mem _ hLater) hNot
  | waiting wait =>
      simp only [step] at hStep
      split at hStep
      · cases hStep
      · rename_i hWait
        cases hStep
        exact WaitPhase.session_of_step hWait
      · rename_i hWait
        cases hStep
        exact WaitPhase.session_of_step hWait
  | passed outcome =>
      cases outcome with
      | cancelled =>
          simp only [step] at hStep
          split at hStep <;> cases hStep <;> exact ⟨rfl, rfl⟩
      | ok =>
          cases hStep
          exact ⟨rfl, rfl⟩
      | failed =>
          cases hStep
          exact ⟨rfl, rfl⟩
  | top | loadConnected | loadKind | afterWait | backingOff
  | swapPending =>
      simp only [step] at hStep
      split at hStep <;> cases hStep <;> exact ⟨rfl, rfl⟩
  | parkPoll | parkAsleep =>
      simp only [step] at hStep
      split at hStep
      · cases hStep
        exact ⟨rfl, rfl⟩
      · split at hStep <;> cases hStep <;> exact ⟨rfl, rfl⟩
  | returned => cases hStep

end RelayPhase

namespace SourcePhase

variable {req : SourceRequest}
variable {env : SourceEnv}
variable {s s' : Slot}

/- The stores of a live source's claim. -/
def install
    (req : SourceRequest)
    (s : Slot) : List SlotOp :=
  installSource s.lastToken req.codec req.overlay

/- Before it frees the slot a guard kicks listeners only. -/
theorem kickListeners_of_suffix
    {dynamic : Bool}
    {op : SlotOp}
    {rest : List SlotOp}
    (hSuffix : op :: rest <:+ guardDrop dynamic)
    (hThere : .clearConnected ∈ rest) :
    op = .kickListeners := by
  rcases guardDrop_suffix hSuffix with
    ⟨hOp, _⟩ | ⟨_, hNot, _⟩ | ⟨_, hNot, _⟩ | ⟨_, hNot⟩
  · exact hOp
  · exact absurd hThere hNot
  · exact absurd hThere hNot
  · exact absurd hThere hNot

/- A live source keeps its own session in order. -/
theorem fine_of_step
    {phase phase' : SourcePhase}
    (hProper : phase.Proper req)
    (hFine : Fine (install req s) phase.stage s)
    (hStep : phase.step req env s = some (phase', s')) :
    Fine (install req s') phase'.stage s' := by
  cases phase with
  | claim =>
      simp only [step] at hStep
      split at hStep
      · cases hStep
        exact .absent _ _
      · cases hStep
        apply Fine.claimed
        intro k hToken
        cases hToken
        rfl
  | installing todo token =>
      cases todo with
      | nil =>
          cases hStep
          exact hFine
      | cons op rest =>
          cases hStep
          unfold install
          rw [SlotOp.exec_lastToken]
          exact
            Fine.exec (installs_installSource _ _ _) hFine
              env.now
  | streaming token =>
      cases hStep
      have hCancel :=
        hFine.cancel_of_tokenStored
          (installs_installSource _ _ _)
          (.inl ⟨[], rfl, by simp⟩)
      exact
        ⟨by simp [stage], fun _ => hCancel, by simp [stage]⟩
  | dropping todo =>
      cases todo with
      | nil =>
          cases hStep
          exact .absent _ _
      | cons op rest =>
          cases hStep
          refine ⟨by simp [stage], ?_, by simp [stage]⟩
          intro hLeaving
          have hThere : .clearConnected ∈ rest := by
            simpa [stage] using hLeaving
          have hCancel :=
            hFine.leaving
              (by simp [stage, hThere])
          -- Only the kick of the listeners comes before.
          have hOp : op = .kickListeners :=
            kickListeners_of_suffix hProper hThere
          rw [hOp]
          exact hCancel
  | polling =>
      simp only [step] at hStep
      split at hStep
      · split at hStep <;> cases hStep <;> exact .absent _ _
      · cases hStep
        exact .absent _ _
  | setPending | cancelOwner =>
      cases hStep
      exact .absent _ _
  | checkConnected | checkKind | readCancel | verify
  | checkCodec =>
      simp only [step] at hStep
      split at hStep <;> cases hStep <;> exact .absent _ _
  | rejected status => cases hStep
  | «over» => cases hStep

/-
  Off the slot it leaves a taken one's session alone, its
  guard apart.
-/
theorem session_of_step
    {phase phase' : SourcePhase}
    (hNot : ¬ phase.Owns)
    (hConnected : s.mount.sourceConnected = true)
    (hStep : phase.step req env s = some (phase', s')) :
    (s'.session = s.session ∧
        s'.nextToken = s.nextToken) ∨
      ∃ op rest,
        phase = .dropping (op :: rest) ∧
          .clearConnected ∉ op :: rest ∧
            s' = op.exec env.now s := by
  cases phase with
  | claim =>
      simp only [step, hConnected, if_true] at hStep
      cases hStep
      exact .inl ⟨rfl, rfl⟩
  | installing | streaming => exact absurd trivial hNot
  | dropping todo =>
      cases todo with
      | nil =>
          cases hStep
          exact .inl ⟨rfl, rfl⟩
      | cons op rest =>
          cases hStep
          exact .inr ⟨op, rest, rfl, hNot, rfl⟩
  | polling =>
      simp only [step, hConnected, if_true] at hStep
      split at hStep <;> cases hStep <;> exact .inl ⟨rfl, rfl⟩
  | setPending | cancelOwner =>
      cases hStep
      exact .inl ⟨rfl, rfl⟩
  | checkConnected | checkKind | readCancel | verify
  | checkCodec =>
      simp only [step] at hStep
      split at hStep <;> cases hStep <;> exact .inl ⟨rfl, rfl⟩
  | rejected status => cases hStep
  | «over» => cases hStep

end SourcePhase

end RustyIce

------------------------------------------------------------
-- Steps Of A Rival
------------------------------------------------------------

namespace RustyIce

/- Who does not own the slot has no stage. -/
theorem PlayerPhase.stage_of_not_owns
    {phase : PlayerPhase}
    (hNot : ¬ phase.Owns) :
    phase.stage = .absent := by
  cases phase with
  | releasing todo outcome =>
      have hLeft : todo ≠ releaseSlot := by
        rintro rfl
        exact hNot (by simp [Owns, releaseSlot])
      simp [stage, Stage.absent, hLeft]
  | installing | readCancel | playing =>
      exact absurd trivial hNot
  | _ => rfl

theorem RelayPhase.stage_of_not_owns
    {phase : RelayPhase}
    (hNot : ¬ phase.Owns) :
    phase.stage = .absent := by
  cases phase with
  | releasing todo outcome =>
      have hLeft : todo ≠ releaseSlot := by
        rintro rfl
        exact hNot (by simp [Owns, releaseSlot])
      simp [stage, Stage.absent, hLeft]
  | installing | readCancel | connecting | streaming =>
      exact absurd trivial hNot
  | _ => rfl

theorem SourcePhase.stage_of_not_owns
    {phase : SourcePhase}
    (hNot : ¬ phase.Owns) :
    phase.stage = .absent := by
  cases phase with
  | dropping todo =>
      have hGone : .clearConnected ∉ todo := hNot
      simp [stage, Stage.absent, hGone]
  | installing | streaming => exact absurd trivial hNot
  | _ => rfl

theorem Task.stage_of_not_owns
    {task : Task}
    (hNot : ¬ task.Owns) :
    task.stage = .absent := by
  cases task with
  | player loopPlaylist phase =>
      exact PlayerPhase.stage_of_not_owns hNot
  | relay phase => exact RelayPhase.stage_of_not_owns hNot

theorem Task.installs_install
    (task : Task)
    (s : Slot) :
    Installs (task.install s) s.lastToken := by
  cases task with
  | player loopPlaylist phase =>
      exact installs_claimSlot .autoDj _
  | relay phase => exact installs_claimSlot .relay _

namespace MountSystem

variable {s : MountSystem}

theorem stage_of_not_owns
    {p : Streamer}
    (hNot : ¬ s.Owns p) :
    s.stage p = .absent := by
  cases p with
  | task => exact Task.stage_of_not_owns hNot
  | source i =>
      unfold stage
      simp only
      split
      · rfl
      · rename_i h hSome
        apply SourcePhase.stage_of_not_owns
        intro hOwns
        exact hNot ⟨h, hSome, hOwns⟩

/- Only an owner is installed. -/
theorem owns_of_installed
    {p : Streamer}
    (hInstalled : (s.stage p).Installed) :
    s.Owns p := by
  by_contra hNot
  rw [stage_of_not_owns hNot] at hInstalled
  cases hInstalled

theorem mem_parties
    {p : Streamer}
    (hOwns : s.Owns p) :
    p ∈ s.parties := by
  unfold parties
  cases p with
  | task => exact List.mem_cons_self
  | source i =>
      rcases hOwns with ⟨h, hSome, _⟩
      have hLess := (List.getElem?_eq_some_iff.mp hSome).1
      simp [hLess]

/- What a party stores is one installation. -/
theorem installs_install
    {p : Streamer}
    (hOwns : s.Owns p) :
    Installs (s.install p) s.slot.lastToken := by
  cases p with
  | task => exact s.task.installs_install s.slot
  | source i =>
      rcases hOwns with ⟨h, hSome, _⟩
      rw [Option.mem_def] at hSome
      simp only [install, hSome]
      exact installs_installSource _ _ _

/- An owner has the slot. -/
theorem connected_of_owns
    (hExclusive : Exclusive s)
    {p : Streamer}
    (hOwns : s.Owns p) :
    s.slot.mount.sourceConnected = true := by
  have hCount := hExclusive.owners
  have hPos : 0 < s.owners := by
    unfold owners
    cases p with
    | task =>
        have hOwned := Task.owned_of_owns hOwns
        omega
    | source i =>
        rcases hOwns with ⟨h, hSome, hPhase⟩
        have hHolding :=
          holdingSources_pos (List.mem_of_getElem? hSome)
            (h.phase.owns_iff.mp hPhase)
        omega
  cases hFlag : s.slot.mount.sourceConnected with
  | true => rfl
  | false =>
      have hGate : s.slot.gate.connected = false := hFlag
      rw [hGate] at hCount
      exact absurd hCount (by simp; omega)

end MountSystem

/- What a guard that has freed the slot may still do. -/
def SlotOp.GuardTail : SlotOp → Prop
| .clearCancel => True
| .clearConnectedAt => True
| .clearOverlay => True
| .clearHeader => True
| .notifyResume => True
| .removeMount => True
| _ => False

theorem guardTail_of_suffix
    {dynamic : Bool}
    {op : SlotOp}
    {rest : List SlotOp}
    (hSuffix : op :: rest <:+ guardDrop dynamic)
    (hGone : .clearConnected ∉ op :: rest) :
    op.GuardTail := by
  rcases guardDrop_suffix hSuffix with
    ⟨_, hLater⟩ | ⟨rfl, _⟩ | ⟨rfl, _⟩ | ⟨hOp, _⟩
  · exact absurd (List.mem_cons_of_mem _ hLater) hGone
  · exact absurd List.mem_cons_self hGone
  · trivial
  · simp only [List.mem_cons, List.not_mem_nil, or_false]
      at hOp
    rcases hOp with rfl | rfl | rfl | rfl | rfl <;> trivial

end RustyIce


------------------------------------------------------------
-- Clears That Hit Nothing
------------------------------------------------------------

namespace RustyIce

variable {s t : MountSystem}
variable {p : Streamer}

/- They keep what an owner has stored so far. -/
theorem Fine.of_clear
    (hOwns : s.Owns p)
    {op : SlotOp}
    (hTail : op.GuardTail)
    (hClears : ClearsNothing s op)
    (hFine : Fine (s.install p) (s.stage p) s.slot)
    (now : Nat) :
    Fine (s.install p) (s.stage p) (op.exec now s.slot) := by
  have hInstalls := MountSystem.installs_install hOwns
  have hParty := MountSystem.mem_parties hOwns
  cases op with
  | clearCancel =>
      have hNone := hClears p hParty
      refine ⟨?_, ?_, hFine.token⟩
      · intro todo hTodo
        rcases hFine.installed todo hTodo with
          ⟨hSuffix, hDone⟩
        refine ⟨hSuffix, ?_⟩
        intro other hOther hNot
        cases other with
        | storeCancel k =>
            refine absurd (.inl ⟨todo, hTodo, ?_⟩) hNone
            rintro another hAnother token rfl
            have hSame :=
              (hInstalls.token token).mp
                (hSuffix.subset hAnother)
            have hOld := (hInstalls.token k).mp hOther
            rw [hSame, ← hOld] at hAnother
            exact hNot hAnother
        | _ => exact hDone _ hOther hNot
      · intro hLeaving
        exact absurd (.inr hLeaving) hNone
  | clearConnectedAt =>
      refine ⟨?_, hFine.leaving, hFine.token⟩
      intro todo hTodo
      rcases hFine.installed todo hTodo with
        ⟨hSuffix, hDone⟩
      refine ⟨hSuffix, ?_⟩
      intro other hOther hNot
      cases other with
      | stampConnectedAt =>
          exact absurd (hClears p hParty todo hTodo) hNot
      | _ => exact hDone _ hOther hNot
  | clearOverlay =>
      refine ⟨?_, hFine.leaving, hFine.token⟩
      intro todo hTodo
      rcases hFine.installed todo hTodo with
        ⟨hSuffix, hDone⟩
      refine ⟨hSuffix, ?_⟩
      intro other hOther hNot
      cases other with
      | storeOverlay overlay =>
          exact
            absurd
              (hClears p hParty todo hTodo _ hOther
                ⟨overlay, rfl⟩)
              hNot
      | _ => exact hDone _ hOther hNot
  | clearHeader | notifyResume | removeMount =>
      exact
        ⟨fun todo hTodo => hFine.installed todo hTodo,
          fun hLeaving => hFine.leaving hLeaving,
          hFine.token⟩
  | _ => exact hTail.elim

/- They leave an owner's session alone. -/
theorem KeepsSession.of_clear
    (hInstalled : (s.stage p).Installed)
    {op : SlotOp}
    (hTail : op.GuardTail)
    (hClears : ClearsNothing s op)
    (now : Nat) :
    KeepsSession p s.slot (op.exec now s.slot) := by
  have hOwns := MountSystem.owns_of_installed hInstalled
  have hParty := MountSystem.mem_parties hOwns
  cases op with
  | clearCancel =>
      refine absurd (.inl ⟨[], hInstalled, ?_⟩) (hClears p hParty)
      simp
  | clearConnectedAt =>
      have hThere := hClears p hParty [] hInstalled
      cases hThere
  | clearOverlay =>
      refine ⟨rfl, rfl, ?_, rfl⟩
      intro hNot
      cases p with
      | task => exact absurd rfl hNot
      | source i =>
          rcases hOwns with ⟨h, hSome, _⟩
          rw [Option.mem_def] at hSome
          have hStores :
              .storeOverlay h.request.overlay ∈
                s.install (.source i) := by
            simp [MountSystem.install, hSome,
              Source.install, installSource]
          have hThere :=
            hClears _ hParty [] hInstalled _ hStores
              ⟨_, rfl⟩
          cases hThere
  | clearHeader =>
      refine ⟨rfl, rfl, fun _ => rfl, ?_⟩
      have hNone : s.slot.mount.headerBytes = none := by
        by_contra hSome
        exact hClears hSome p hParty hInstalled
      exact hNone.symm
  | notifyResume | removeMount =>
      exact ⟨rfl, rfl, fun _ => rfl, rfl⟩
  | _ => exact hTail.elim

theorem KeepsSession.of_session
    {s s' : Slot}
    (hSession : s'.session = s.session) :
    KeepsSession p s s' where
  cancel := congrArg Session.cancel hSession
  connectedAt := congrArg Session.connectedAt hSession
  overlay := fun _ => congrArg Session.overlay hSession
  headers := congrArg Session.headers hSession

/- A step of a rival leaves the owner where it is. -/
theorem MountSystem.stage_of_rival
    {label : MountLabel}
    (hRival : label.party ≠ some p)
    (hStep : s.step label = some t) :
    (t.stage p = s.stage p ∧
        (t.slot.lastToken = s.slot.lastToken →
          t.install p = s.install p)) ∨
      t.stage p = .absent := by
  cases label with
  | player now event =>
      rcases player_step_ok hStep with ⟨_, _, _, _, _, _, rfl⟩
      cases p with
      | task => exact absurd rfl hRival
      | source j =>
          refine .inl ⟨rfl, fun hSame => ?_⟩
          simp only [install, Source.install, hSame]
  | relay now event =>
      rcases relay_step_ok hStep with ⟨_, _, _, _, _, rfl⟩
      cases p with
      | task => exact absurd rfl hRival
      | source j =>
          refine .inl ⟨rfl, fun hSame => ?_⟩
          simp only [install, Source.install, hSame]
  | arrive codec overlay authorised accepted =>
      cases hStep
      cases p with
      | task => exact .inl ⟨rfl, fun _ => rfl⟩
      | source j =>
          simp only [stage, install]
          rcases Nat.lt_trichotomy j s.sources.length with
            hLess | rfl | hMore
          · rw [List.getElem?_append_left hLess]
            exact .inl ⟨rfl, fun _ => rfl⟩
          · rw [List.getElem?_concat_length]
            exact .inr rfl
          · rw [List.getElem?_eq_none (by simp; omega)]
            exact .inr rfl
  | source i now expired =>
      rcases source_step_ok hStep with ⟨_, _, _, _, _, rfl⟩
      left
      cases p with
      | task =>
          refine ⟨rfl, fun hSame => ?_⟩
          simp only [install, Task.install, hSame]
      | source j =>
          have hApart : i ≠ j := by
            rintro rfl
            exact hRival rfl
          simp only [stage, install]
          rw [List.getElem?_set_ne hApart]
          refine ⟨rfl, fun hSame => ?_⟩
          simp only [Source.install, hSame]
  | capture i headers =>
      rcases capture_step_ok hStep with ⟨_, _, _, _, rfl⟩
      exact .inl ⟨rfl, fun _ => rfl⟩
  | kick =>
      cases hStep
      refine .inl ⟨rfl, fun hSame => ?_⟩
      cases p with
      | task => simp only [install, Task.install, hSame]
      | source j => simp only [install, Source.install, hSame]
  | cancelTask =>
      cases hStep
      exact .inl ⟨rfl, fun _ => rfl⟩

/-
  What a step of a rival does to the slot: nothing to the
  session, or what a guard has left to do.
-/
theorem MountSystem.clear_of_rival
    (hExclusive : Exclusive s)
    (hOwns : s.Owns p)
    {label : MountLabel}
    (hRival : label.party ≠ some p)
    (hStep : s.step label = some t) :
    (t.slot.session = s.slot.session ∧
        t.slot.nextToken = s.slot.nextToken) ∨
      ∃ i now expired h op rest,
        label = .source i now expired ∧
          s.sources[i]? = some h ∧
            h.phase = .dropping (op :: rest) ∧
              .clearConnected ∉ op :: rest ∧
                SlotOp.GuardTail op ∧
                  t.slot = op.exec now s.slot := by
  have hConnected := connected_of_owns hExclusive hOwns
  have hAlone : ∀ q, q ≠ p → ¬ s.Owns q :=
    fun q hApart hToo =>
      hApart (hExclusive.unique hToo hOwns)
  cases label with
  | player now event =>
      have hNot : ¬ s.task.Owns :=
        hAlone .task fun hSame => hRival (congrArg some hSame)
      have hProper := hExclusive.proper.task
      rcases player_step_ok hStep with
        ⟨loopPlaylist, phase, next, slot, hTask, hMove, rfl⟩
      rw [hTask] at hNot hProper
      exact
        .inl
          (PlayerPhase.session_of_step hProper hNot
            hConnected hMove)
  | relay now event =>
      have hNot : ¬ s.task.Owns :=
        hAlone .task fun hSame => hRival (congrArg some hSame)
      have hProper := hExclusive.proper.task
      rcases relay_step_ok hStep with
        ⟨phase, next, slot, hTask, hMove, rfl⟩
      rw [hTask] at hNot hProper
      exact
        .inl
          (RelayPhase.session_of_step hProper hNot
            hConnected hMove)
  | source i now expired =>
      rcases source_step_ok hStep with
        ⟨h, next, slot, hSome, hMove, rfl⟩
      have hNot : ¬ h.phase.Owns := by
        intro hPhase
        refine hAlone (.source i) ?_ ⟨h, hSome, hPhase⟩
        exact fun hSame => hRival (congrArg some hSame)
      have hProper :=
        hExclusive.proper.sources h
          (List.mem_of_getElem? hSome)
      rcases
          SourcePhase.session_of_step hNot hConnected
            hMove with
        hSame | ⟨op, rest, hPhase, hGone, hExec⟩
      · exact .inl hSame
      · right
        unfold Source.Proper at hProper
        rw [hPhase] at hProper
        exact
          ⟨i, now, expired, h, op, rest, rfl, hSome,
            hPhase, hGone,
            guardTail_of_suffix hProper hGone, hExec⟩
  | capture i headers =>
      rcases capture_step_ok hStep with
        ⟨h, token, hSome, hPhase, rfl⟩
      refine absurd ⟨h, hSome, ?_⟩ (hAlone (.source i) ?_)
      · exact fun hSame => hRival (congrArg some hSame)
      · rw [hPhase]
        trivial
  | kick =>
      cases hStep
      left
      unfold Slot.kick
      split <;> exact ⟨rfl, rfl⟩
  | arrive | cancelTask =>
      cases hStep
      exact .inl ⟨rfl, rfl⟩

/- What is left to do is a clear that the condition admits. -/
theorem MountSystem.session_of_rival
    (hExclusive : Exclusive s)
    (hOwns : s.Owns p)
    {label : MountLabel}
    (hRival : label.party ≠ some p)
    (hOk : ContentsOk s label)
    (hStep : s.step label = some t) :
    (t.slot.session = s.slot.session ∧
        t.slot.nextToken = s.slot.nextToken) ∨
      ∃ op now,
        SlotOp.GuardTail op ∧ ClearsNothing s op ∧
          t.slot = op.exec now s.slot := by
  rcases clear_of_rival hExclusive hOwns hRival hStep with
    hSame |
      ⟨i, now, expired, h, op, rest, rfl, hSome, hPhase,
        hGone, hTail, hExec⟩
  · exact .inl hSame
  · have hClears := hOk h hSome
    rw [hPhase] at hClears
    exact .inr ⟨op, now, hTail, hClears hGone, hExec⟩

end RustyIce

------------------------------------------------------------
-- Contents Kept
------------------------------------------------------------

namespace RustyIce

/-
  At most one owner, every party's part of the slot in order,
  and no panic.
-/
structure ContentsInv (s : MountSystem) : Prop where
  exclusive : Exclusive s
  fine : ∀ p, Fine (s.install p) (s.stage p) s.slot
  alive : s.task ≠ .relay .panicked

variable {s t : MountSystem}

theorem contentsInv_init
    (hInit : mountMachine.init s) :
    ContentsInv s := by
  rcases hInit with ⟨_, _, hFresh, hNone⟩
  have hIdle : ∀ p, ¬ s.Owns p := by
    intro p hOwns
    cases p with
    | task => exact hFresh.not_owns hOwns
    | source i =>
        rcases hOwns with ⟨h, hSome, _⟩
        rw [hNone] at hSome
        cases hSome
  refine ⟨⟨⟨hFresh.proper, ?_⟩, ?_⟩, ?_, ?_⟩
  · rw [hNone]
    intro h hMem
    cases hMem
  · unfold MountSystem.owners
    rw [Task.owned_of_not_owns hFresh.not_owns, hNone]
    exact Nat.zero_le _
  · intro p
    rw [MountSystem.stage_of_not_owns (hIdle p)]
    exact .absent _ _
  · intro hPanicked
    rw [hPanicked] at hFresh
    cases hFresh

namespace ContentsInv

/- A party's own step keeps its part in order. -/
theorem fine_of_ownStep
    (hInv : ContentsInv s)
    {label : MountLabel}
    {p : Streamer}
    (hOwn : label.party = some p)
    (hStep : s.step label = some t) :
    Fine (t.install p) (t.stage p) t.slot := by
  have hFine := hInv.fine p
  cases label with
  | player now event =>
      cases hOwn
      have hProper := hInv.exclusive.proper.task
      rcases MountSystem.player_step_ok hStep with
        ⟨loopPlaylist, phase, next, slot, hTask, hMove, rfl⟩
      simp only [MountSystem.install, MountSystem.stage,
        hTask] at hFine
      rw [hTask] at hProper
      exact PlayerPhase.fine_of_step hProper hFine hMove
  | relay now event =>
      cases hOwn
      have hProper := hInv.exclusive.proper.task
      rcases MountSystem.relay_step_ok hStep with
        ⟨phase, next, slot, hTask, hMove, rfl⟩
      simp only [MountSystem.install, MountSystem.stage,
        hTask] at hFine
      rw [hTask] at hProper
      exact
        (RelayPhase.fine_of_step hProper hFine hMove).1
  | source i now expired =>
      cases hOwn
      rcases MountSystem.source_step_ok hStep with
        ⟨h, next, slot, hSome, hMove, rfl⟩
      have hLess := (List.getElem?_eq_some_iff.mp hSome).1
      have hProper :=
        hInv.exclusive.proper.sources h
          (List.mem_of_getElem? hSome)
      simp only [MountSystem.install, MountSystem.stage,
        hSome] at hFine
      simp only [MountSystem.install, MountSystem.stage,
        List.getElem?_set_self hLess]
      exact SourcePhase.fine_of_step hProper hFine hMove
  | capture i headers =>
      cases hOwn
      rcases MountSystem.capture_step_ok hStep with
        ⟨_, _, _, _, rfl⟩
      exact
        ⟨fun todo hTodo => hFine.installed todo hTodo,
          fun hLeaving => hFine.leaving hLeaving,
          hFine.token⟩
  | arrive | kick | cancelTask => cases hOwn

/- A step of a rival does, too. -/
theorem fine_of_rival
    (hInv : ContentsInv s)
    {label : MountLabel}
    {p : Streamer}
    (hRival : label.party ≠ some p)
    (hOk : ContentsOk s label)
    (hStep : s.step label = some t) :
    Fine (t.install p) (t.stage p) t.slot := by
  rcases MountSystem.stage_of_rival hRival hStep with
    ⟨hStage, hInstall⟩ | hAbsent
  · by_cases hOwns : s.Owns p
    · rcases
          MountSystem.session_of_rival hInv.exclusive hOwns
            hRival hOk hStep with
        ⟨hSession, hNext⟩ | ⟨op, now, hTail, hClears, hExec⟩
      · have hLast : t.slot.lastToken = s.slot.lastToken :=
          congrArg (· - 1) hNext
        rw [hStage, hInstall hLast]
        exact (hInv.fine p).of_session hSession hNext
      · have hLast : t.slot.lastToken = s.slot.lastToken := by
          rw [hExec, SlotOp.exec_lastToken]
        rw [hStage, hInstall hLast, hExec]
        exact .of_clear hOwns hTail hClears (hInv.fine p) now
    · rw [hStage, MountSystem.stage_of_not_owns hOwns]
      exact .absent _ _
  · rw [hAbsent]
    exact .absent _ _

/- No step brings a panic. -/
theorem alive_of_step
    (hInv : ContentsInv s)
    {label : MountLabel}
    (hStep : s.step label = some t) :
    t.task ≠ .relay .panicked := by
  cases label with
  | relay now event =>
      have hFine := hInv.fine .task
      have hProper := hInv.exclusive.proper.task
      rcases MountSystem.relay_step_ok hStep with
        ⟨phase, next, slot, hTask, hMove, rfl⟩
      simp only [MountSystem.install, MountSystem.stage,
        hTask] at hFine
      rw [hTask] at hProper
      have hNext :=
        (RelayPhase.fine_of_step hProper hFine hMove).2
      simpa using hNext
  | player now event =>
      rcases MountSystem.player_step_ok hStep with
        ⟨_, _, _, _, _, _, rfl⟩
      simp
  | source i now expired =>
      rcases MountSystem.source_step_ok hStep with
        ⟨_, _, _, _, _, rfl⟩
      exact hInv.alive
  | capture i headers =>
      rcases MountSystem.capture_step_ok hStep with
        ⟨_, _, _, _, rfl⟩
      exact hInv.alive
  | arrive | kick | cancelTask =>
      cases hStep
      exact hInv.alive

theorem step
    (hInv : ContentsInv s)
    {label : MountLabel}
    (hOk : ContentsOk s label)
    (hStep : s.step label = some t) :
    ContentsInv t where
  exclusive := exclusive_step hInv.exclusive hStep
  fine := by
    intro p
    by_cases hOwn : label.party = some p
    · exact hInv.fine_of_ownStep hOwn hStep
    · exact hInv.fine_of_rival hOwn hOk hStep
  alive := hInv.alive_of_step hStep

/- A token that is stored belongs to the owner. -/
theorem cancel_of_tokenStored
    (hInv : ContentsInv s)
    {p : Streamer}
    (hStored : (s.stage p).TokenStored) :
    s.slot.mount.sourceCancel = some s.slot.lastToken := by
  have hOwns : s.Owns p := by
    by_contra hNot
    rw [MountSystem.stage_of_not_owns hNot] at hStored
    rcases hStored with ⟨todo, hTodo, _⟩ | hLeaving
    · cases hTodo
    · cases hLeaving
  exact
    (hInv.fine p).cancel_of_tokenStored
      (MountSystem.installs_install hOwns) hStored

end ContentsInv

/-
  In every run in which the guards clear nothing that another
  owner stored, and kicks and preemptions meet a stored
  token, the contents of the slot are its owner's.
-/
theorem contents_kept
    (hReach : mountMachine.ReachableUnder ContentsOk s) :
    ContentsKept s := by
  have hInv : ContentsInv s := by
    apply hReach.invariant
    · intro t
      exact contentsInv_init
    · intro t label u hBefore hOk hStep
      exact hBefore.step hOk hStep
  exact
    { stored := fun p hInstalled =>
        (hInv.fine p).done_of_installed hInstalled
      token := fun p token hToken =>
        (hInv.fine p).token token hToken
      rivals := by
        intro p label t hInstalled hRival hOk hStep
        have hOwns :=
          MountSystem.owns_of_installed hInstalled
        rcases
            MountSystem.session_of_rival hInv.exclusive
              hOwns hRival hOk hStep with
          ⟨hSession, _⟩ | ⟨op, now, hTail, hClears, hExec⟩
        · exact .of_session hSession
        · rw [hExec]
          exact .of_clear hInstalled hTail hClears now
      kick := by
        intro t hConnected hOk hStep
        rcases hOk hConnected with ⟨p, _, hStored⟩
        have hCancel := hInv.cancel_of_tokenStored hStored
        cases hStep
        simp [Slot.kick, hCancel, Slot.cancel]
      preempt := by
        intro i now expired h t hSome hPhase hConnected hOk
          hStep
        have hReads := hOk h hSome
        rw [hPhase] at hReads
        rcases hReads hConnected with ⟨p, _, hStored⟩
        have hCancel := hInv.cancel_of_tokenStored hStored
        have hLess := (List.getElem?_eq_some_iff.mp hSome).1
        simp only [MountSystem.step, hSome, hPhase,
          SourcePhase.step, hCancel] at hStep
        cases hStep
        exact List.getElem?_set_self hLess
      expect := hInv.alive }

/- A rotation that plays is kicked. -/
theorem contents_kept_kicked :
    ∃ s,
      mountMachine.run
          (.idle (.player true .top)) (playing ++ [.kick]) =
        some s ∧
        ContentsKept s := by
  have hInit :=
    MountSystem.init_idle (.player true .top) rfl
  have hTask :
      ∀ label ∈ playing, ∀ u, ContentsOk u label := by
    intro label hMem u
    simp only [playing, List.mem_append, List.mem_cons,
      List.mem_replicate] at hMem
    rcases hMem with ⟨_, rfl⟩ | rfl | ⟨_, rfl⟩ <;> trivial
  have hPlays :=
    Library.Machine.ReachableUnder.run (.start hInit) hTask
      (rfl :
        mountMachine.run (.idle (.player true .top))
            playing =
          some _)
  have hKicked :
      ∀ u t,
        mountMachine.ReachableUnder ContentsOk u →
          (u.stage .task).TokenStored →
            u.step .kick = some t → ContentsKept t := by
    intro u t hReach hStored hStep
    have hOk : ContentsOk u .kick := fun _ =>
      ⟨.task, List.mem_cons_self, hStored⟩
    exact contents_kept (.step hReach hOk hStep)
  refine ⟨_, rfl, hKicked _ _ hPlays ?_ rfl⟩
  exact .inl ⟨[], rfl, by simp⟩

/-
  A relay claims the slot that the guard of a source has just
  freed, the guard clears the relay's token, and the relay
  does not find it.
-/
def clearedRelay : List MountLabel :=
  anySource true :: sourceSteps 12 ++
    List.replicate 7 (.relay 0 .go) ++
      [.source 0 0 false, .relay 0 .go]

theorem clearedRelay_not_kept :
    ∃ s,
      mountMachine.run (.idle (.relay .top)) clearedRelay =
        some s ∧
        mountMachine.Reachable s ∧ ¬ ContentsKept s := by
  refine ⟨_, rfl, ?_, ?_⟩
  · exact
      Library.Machine.reachable_of_run
        (MountSystem.init_idle (.relay .top) rfl)
        (rfl :
          mountMachine.run (.idle (.relay .top))
              clearedRelay =
            some _)
  · intro hKept
    exact hKept.expect rfl

end RustyIce
