import RustyIce.Library.Interference
import RustyIce.AutoDj.Player
import RustyIce.Server.SourceConnection

/-
  What a source request that is turned away does to the
  server: the run with the request against the run without
  it, for any other parties.

  Main declarations:
    * `World`, `handler`
    * `SlotState`, `Same`
    * `ConnectionPhase.Spares`
    * `rejected_undisturbed_iff`
-/

------------------------------------------------------------
-- The Server And The Others
------------------------------------------------------------

namespace RustyIce

/- Registered mounts were created before the next one. -/
def ServerState.Fresh (s : ServerState) : Prop :=
  ∀ path mount,
    s.mounts path = some mount → mount < s.nextMount

theorem fresh_registerMount
    {s : ServerState}
    (hFresh : s.Fresh)
    (info : MountInfo)
    (bus : BusSize) :
    (s.registerMount info bus).Fresh := by
  intro path mount hMount
  simp only [ServerState.registerMount,
    MountRegistry.add] at hMount ⊢
  split at hMount
  · cases hMount
    exact Nat.lt_succ_self _
  · exact Nat.lt_succ_of_lt (hFresh path mount hMount)

theorem fresh_unregister
    {s : ServerState}
    (hFresh : s.Fresh)
    (path : String) :
    (s.unregister path).Fresh := by
  intro other mount hMount
  by_cases hOther : other = path
  · subst hOther
    simp [ServerState.unregister] at hMount
  · simp only [ServerState.unregister,
      MountRegistry.remove_other _ hOther] at hMount
    exact hFresh other mount hMount

theorem fresh_afterTurn
    (upload : SourceUpload)
    (phase : SourcePhase)
    {s : ServerState}
    (hFresh : s.Fresh) :
    (upload.afterTurn phase s).Fresh := by
  unfold SourceUpload.afterTurn
  split
  · exact fresh_unregister hFresh upload.path
  · exact hFresh

theorem fresh_of_step
    {upload : SourceUpload}
    {moment : Moment}
    {s s' : ServerState}
    {phase phase' : ConnectionPhase}
    (hFresh : s.Fresh)
    (hStep :
      upload.step moment s phase = some (phase', s')) :
    s'.Fresh := by
  cases phase with
  | lookup =>
      simp only [SourceUpload.step] at hStep
      split at hStep
      · cases hStep
        exact hFresh
      · cases hStep
        exact hFresh
  | verifyDefault =>
      simp only [SourceUpload.step] at hStep
      split at hStep
      · cases hStep
        exact hFresh
      · cases hStep
        exact hFresh
  | create =>
      cases hStep
      exact fresh_registerMount hFresh _ _
  | atMount mount dynamic phase =>
      simp only [SourceUpload.step] at hStep
      split at hStep
      · cases hStep
      · cases hStep
        exact fresh_afterTurn upload phase hFresh
  | rejected status => cases hStep

theorem fresh_spawnTask
    {s : ServerState}
    (hFresh : s.Fresh)
    (kind : TaskKind)
    (path : String)
    (cfg : TaskConfig) :
    (s.spawnTask kind path cfg).Fresh := by
  unfold ServerState.spawnTask
  split
  · exact hFresh
  · exact hFresh

theorem fresh_startEntry {Entry : Type}
    (sec : TaskSection Entry)
    (cfg : Config)
    {s : ServerState}
    (hFresh : s.Fresh)
    (entry : Entry) :
    (startEntry sec cfg s entry).Fresh := by
  have hMount :=
    fresh_registerMount hFresh (sec.info entry)
      (busSize cfg (sec.burstSize entry))
  unfold startEntry
  split
  · exact fresh_spawnTask hMount _ _ _
  · exact hMount

/- So it is from the start. -/
theorem fresh_bootstrap (cfg : Config) :
    (bootstrap cfg).Fresh := by
  unfold bootstrap
  apply List.foldlRecOn
  · apply List.foldlRecOn
    · apply List.foldlRecOn
      · intro path mount hMount
        cases hMount
      · intro s hFresh mc _
        exact fresh_registerMount hFresh _ _
    · intro s hFresh ac _
      exact fresh_startEntry autodjSection cfg hFresh ac
  · intro s hFresh rc _
    exact fresh_startEntry relaySection cfg hFresh rc

/- The server, and what the other parties keep. -/
structure World (Others : Type) where
  server : ServerState
  fresh : server.Fresh
  others : Others

variable {Others : Type}

/- The handler of a request as one party among others. -/
def handler
    (Others : Type)
    (upload : SourceUpload) :
    Library.Party ConnectionPhase (World Others) Moment where
  step := fun moment phase w =>
    match hStep : upload.step moment w.server phase with
    | none => none
    | some (phase', s') =>
        some
          (phase',
            { server := s'
              fresh := fresh_of_step w.fresh hStep
              others := w.others })

theorem handler_step
    {upload : SourceUpload}
    {moment : Moment}
    {phase phase' : ConnectionPhase}
    {w w' : World Others}
    (hStep :
      (handler Others upload).step moment phase w =
        some (phase', w')) :
    upload.step moment w.server phase =
        some (phase', w'.server) ∧
      w'.others = w.others := by
  simp only [handler] at hStep
  split at hStep
  · cases hStep
  · rename_i next s' hServer
    cases hStep
    exact ⟨hServer, rfl⟩

end RustyIce

------------------------------------------------------------
-- What A Request May Not Change
------------------------------------------------------------

namespace RustyIce

variable {Others : Type}

/- Who holds a mount's slot, and who wants it. -/
structure SlotState where
  connected : Bool
  kind : SourceKind
  cancel : Option Token
  pending : Bool
deriving DecidableEq, Repr

def ActiveMount.slotState
    (mount : ActiveMount) : SlotState where
  connected := mount.sourceConnected
  kind := mount.sourceKind
  cancel := mount.sourceCancel
  pending := mount.preemptPending

/-
  The same mounts are registered, their slots are in the
  same state, the same tokens are cancelled, and the other
  parties are where they are.
-/
structure Same (w w' : World Others) : Prop where
  registry : w.server.mounts = w'.server.mounts
  slots :
    ∀ mount,
      (w.server.heap mount).slotState =
        (w'.server.heap mount).slotState
  cancelled : w.server.cancelled = w'.server.cancelled
  others : w.others = w'.others

/-
  The step shows nowhere: the flag it sets is set, the token
  it cancels is cancelled, and it creates no mount.
-/
def SourcePhase.Spares (s : Slot) : SourcePhase → Prop
| .setPending => s.mount.preemptPending = true
| .cancelOwner token => s.cancelled token = true
| _ => True

def ConnectionPhase.Spares
    (s : ServerState) : ConnectionPhase → Prop
| .create => False
| .atMount mount _ phase => phase.Spares (s.slotAt mount)
| .lookup => True
| .verifyDefault => True
| .rejected _ => True

theorem Same.refl (w : World Others) : Same w w where
  registry := rfl
  slots := fun _ => rfl
  cancelled := rfl
  others := rfl

end RustyIce

------------------------------------------------------------
-- Steps Before The Claim
------------------------------------------------------------

namespace RustyIce

variable {Others : Type}

/- A flag that is set already. -/
theorem storePending_of_pending
    {s : Slot}
    (hPending : s.mount.preemptPending = true) :
    s.storePending true = s := by
  unfold Slot.storePending
  rw [← hPending]

/- A token that is cancelled already. -/
theorem cancel_of_cancelled
    {s : Slot}
    {token : Token}
    (hCancelled : s.cancelled token = true) :
    s.cancel token = s := by
  have hSame :
      (fun t =>
        if t = token then true else s.cancelled t) =
        s.cancelled := by
    funext t
    by_cases hToken : t = token
    · rw [if_pos hToken, hToken, hCancelled]
    · rw [if_neg hToken]
  unfold Slot.cancel
  rw [hSame]

/-
  Short of the claim, a step changes the server only by the
  flag, by a cancellation, or by a new mount.
-/
inductive BeforeClaim
    (s : ServerState) :
    ConnectionPhase → ServerState → Prop
| flag {mount : MountId} {dynamic : Bool} :
    BeforeClaim s (.atMount mount dynamic .setPending)
      (s.withSlot mount ((s.slotAt mount).storePending true))
| cancel
    {mount : MountId} {dynamic : Bool} {token : Token} :
    BeforeClaim s
      (.atMount mount dynamic (.cancelOwner token))
      (s.withSlot mount ((s.slotAt mount).cancel token))
| create {path : String} {codec : CodecId} :
    BeforeClaim s .create (s.createDynamicMount path codec)
| nothing {phase : ConnectionPhase} :
    ¬ phase.Owning → phase.Spares s → BeforeClaim s phase s

theorem beforeClaim_of_step
    {upload : SourceUpload}
    {moment : Moment}
    {s s' : ServerState}
    {phase phase' : ConnectionPhase}
    (hStep :
      upload.step moment s phase = some (phase', s'))
    (hNot : ¬ phase'.Owning) :
    BeforeClaim s phase s' := by
  cases phase with
  | lookup =>
      simp only [SourceUpload.step] at hStep
      split at hStep
      · cases hStep
        exact .nothing id trivial
      · cases hStep
        exact .nothing id trivial
  | verifyDefault =>
      simp only [SourceUpload.step] at hStep
      split at hStep
      · cases hStep
        exact .nothing id trivial
      · cases hStep
        exact .nothing id trivial
  | create =>
      cases hStep
      exact .create
  | atMount mount dynamic phase =>
      simp only [SourceUpload.step] at hStep
      split at hStep
      · cases hStep
      · rename_i next slot hSlot
        cases hStep
        rcases SourcePhase.slot_of_step hSlot hNot with
          ⟨rfl, rfl⟩ | ⟨token, rfl, rfl⟩ |
            ⟨hPhase, hFlag, hCancel, rfl⟩
        · exact .flag
        · exact .cancel
        · rw [upload.afterTurn_of_not_owning hPhase,
            ServerState.withSlot_slotAt]
          refine .nothing hPhase ?_
          cases phase with
          | setPending => exact absurd rfl hFlag
          | cancelOwner token =>
              exact absurd rfl (hCancel token)
          | _ => trivial
  | rejected status => cases hStep

/- A step that spares the others changes nothing. -/
theorem BeforeClaim.unchanged
    {s s' : ServerState}
    {phase : ConnectionPhase}
    (hStep : BeforeClaim s phase s')
    (hSpares : phase.Spares s) :
    s' = s := by
  cases hStep with
  | flag =>
      rw [storePending_of_pending hSpares,
        ServerState.withSlot_slotAt]
  | cancel =>
      rw [cancel_of_cancelled hSpares,
        ServerState.withSlot_slotAt]
  | create => exact hSpares.elim
  | nothing => rfl

/- One that does not shows. -/
theorem BeforeClaim.spares
    {s s' : ServerState}
    {phase : ConnectionPhase}
    (hStep : BeforeClaim s phase s')
    (hFresh : s.Fresh)
    (hMounts : s'.mounts = s.mounts)
    (hSlots :
      ∀ mount,
        (s'.heap mount).slotState =
          (s.heap mount).slotState)
    (hCancelled : s'.cancelled = s.cancelled) :
    phase.Spares s := by
  cases hStep with
  | @flag mount dynamic =>
      have hPending :=
        congrArg SlotState.pending (hSlots mount)
      rw [ServerState.withSlot_heap_self] at hPending
      exact hPending.symm
  | @cancel mount dynamic token =>
      have hToken := congrFun hCancelled token
      simp only [ServerState.withSlot, Slot.cancel,
        if_true] at hToken
      exact hToken.symm
  | @create path codec =>
      have hPath := congrFun hMounts path
      simp only [ServerState.createDynamicMount,
        ServerState.registerMount, dynamicInfo,
        MountRegistry.add_self] at hPath
      exact absurd (hFresh path _ hPath.symm) (Nat.lt_irrefl _)
  | nothing hPhase hSpares => exact hSpares

/- A step short of the claim starts there. -/
theorem BeforeClaim.not_owning
    {s s' : ServerState}
    {phase : ConnectionPhase}
    (hStep : BeforeClaim s phase s') :
    ¬ phase.Owning := by
  cases hStep with
  | flag => exact id
  | cancel => exact id
  | create => exact id
  | nothing hPhase => exact hPhase

/- The sparing steps are those that leave no trace. -/
theorem handler_traces (upload : SourceUpload) :
    (handler Others upload).Traces Same
      (fun phase => ¬ phase.Owning)
      (fun phase w => phase.Spares w.server) where
  refl := Same.refl
  back := by
    intro moment phase w phase' w' hStep hNot
    have hServer := (handler_step hStep).1
    exact (beforeClaim_of_step hServer hNot).not_owning
  unchanged := by
    intro moment phase w phase' w' hStep hNot hSpares
    rcases handler_step hStep with ⟨hServer, hOthers⟩
    have hSame :=
      (beforeClaim_of_step hServer hNot).unchanged hSpares
    cases w
    cases w'
    cases hSame
    cases hOthers
    rfl
  traced := by
    intro moment phase w phase' w' hStep hNot hSame
    have hServer := (handler_step hStep).1
    exact
      (beforeClaim_of_step hServer hNot).spares w.fresh
        hSame.registry hSame.slots hSame.cancelled

/-
  A request that is turned away leaves the server and the
  others as they would be without it exactly if every step
  of it spares them.
-/
theorem rejected_undisturbed_iff
    {upload : SourceUpload}
    {turns : List (Library.Turn (World Others) Moment)}
    {w w' : World Others}
    {phase : ConnectionPhase}
    {status : Nat}
    (hRun :
      (handler Others upload).run .lookup w turns =
        some (phase, w'))
    (hRejected : phase.rejection = some status) :
    (handler Others upload).Undisturbed Same .lookup w w
        turns ↔
      (handler Others upload).Throughout
        (fun phase w => phase.Spares w.server) .lookup w
        turns :=
  Library.Party.undisturbed_iff (handler_traces upload) hRun
    (ConnectionPhase.not_owning_of_rejection hRejected)

end RustyIce

------------------------------------------------------------
-- A Wrong Password
------------------------------------------------------------

namespace RustyIce

/- A server with one mount or rotation, and its player. -/
def playerWorld (cfg : Config) : World PlayerPhase where
  server := bootstrap cfg
  fresh := fresh_bootstrap cfg
  others := .top

/- The player of the first mount takes a turn. -/
def playerTurn
    (event : PlayerEvent)
    (w : World PlayerPhase) : World PlayerPhase :=
  match w.others.step true false 0 event (w.server.slotAt 0)
  with
  | none => w
  | some (phase, slot) =>
      { server := w.server.withSlot 0 slot
        fresh := w.fresh
        others := phase }

def playerTurns
    (events : List PlayerEvent) :
    List (Library.Turn (World PlayerPhase) Moment) :=
  events.map fun event => .others (playerTurn event)

def ownTurns
    (count : Nat) :
    List (Library.Turn (World PlayerPhase) Moment) :=
  List.replicate count (.own { now := 0, expired := false })

def wrongPassword : SourceUpload where
  path := "/radio"
  password := "guess"
  contentType := none
  overlay :=
    { name := none
      description := none
      genre := none
      url := none
      isPublic := none
      audioInfo := none
      bitrateKbps := none }

/-
  The player starts to play, the request arrives, the player
  leaves the slot, and the request goes on.
-/
def preemptedTurns :
    List (Library.Turn (World PlayerPhase) Moment) :=
  playerTurns
      (.go :: .go :: .scanned .tracks ::
        List.replicate 6 .go) ++
    ownTurns 6 ++
    playerTurns
      (.bridge :: .chunk none :: List.replicate 6 .go) ++
    ownTurns 2

/- On an idle mount it disturbs nobody. -/
theorem rejected_undisturbed_iff_idle :
    ∃ phase w',
      (handler PlayerPhase wrongPassword).run .lookup
          (playerWorld plainConfig) (ownTurns 3) =
        some (phase, w') ∧
        phase.rejection = some 401 ∧
          (handler PlayerPhase wrongPassword).Undisturbed
            Same .lookup (playerWorld plainConfig)
            (playerWorld plainConfig) (ownTurns 3) :=
  ⟨_, _, rfl, rfl,
    (rejected_undisturbed_iff rfl rfl).mpr
      ⟨trivial, trivial, trivial, trivial⟩⟩

/-
  On a rotation it is turned away as well, but the rotation
  is off the air.
-/
theorem preemptedTurns_disturbed :
    ∃ phase w',
      (handler PlayerPhase wrongPassword).run .lookup
          (playerWorld rotationConfig) preemptedTurns =
        some (phase, w') ∧
        phase.rejection = some 401 ∧
          ¬ (handler PlayerPhase wrongPassword).Undisturbed
            Same .lookup (playerWorld rotationConfig)
            (playerWorld rotationConfig) preemptedTurns := by
  refine ⟨_, _, rfl, rfl, ?_⟩
  intro hSame
  have hLast := hSame.last rfl
  have hConnected : false = true :=
    congrArg SlotState.connected (hLast.slots 0)
  cases hConnected

end RustyIce
