import RustyIce.Server.SourceProtocol
import RustyIce.Server.SourceHandler

/-
  A source connection on the whole server: the lookup of its
  path, the mount it may create, and its turns at the mount.

  Main declarations:
    * `SourceUpload`, `detectCodec`
    * `ConnectionPhase`, `SourceUpload.step`
    * `ConnectionPhase.Owning`
    * `SourceUpload.owning_of_step`
-/

------------------------------------------------------------
-- Requests
------------------------------------------------------------

namespace RustyIce

/- What the handler reads off the head of a request. -/
structure SourceUpload where
  path : String
  password : String
  contentType : Option String
  overlay : SourceOverlay
deriving DecidableEq, Repr

/- A text occurs in another. -/
def occursIn (pattern text : String) : Bool :=
  decide (pattern.toList <:+: text.toList)

/- Anything unknown is taken for MP3. -/
def detectCodec (contentType : Option String) : CodecId :=
  match contentType with
  | none => .MP3
  | some text =>
      if occursIn "mpeg" text then .MP3
      else if occursIn "ogg" text || occursIn "vorbis" text then
        .VORBIS
      else if occursIn "aac" text then .AAC
      else .MP3

namespace SourceUpload

def codec (upload : SourceUpload) : CodecId :=
  detectCodec upload.contentType

/- The request at its mount. -/
def request
    (upload : SourceUpload)
    (dynamic : Bool) : SourceRequest where
  codec := upload.codec
  overlay := upload.overlay
  dynamic := dynamic

end SourceUpload

end RustyIce

------------------------------------------------------------
-- One Slot Of The Server
------------------------------------------------------------

namespace RustyIce

namespace ServerState

def slotAt
    (s : ServerState)
    (mount : MountId) : Slot where
  mount := s.heap mount
  cancelled := s.cancelled
  nextToken := s.nextToken

def withSlot
    (s : ServerState)
    (mount : MountId)
    (slot : Slot) : ServerState :=
  { s with
    heap := fun id =>
      if id = mount then slot.mount else s.heap id
    cancelled := slot.cancelled
    nextToken := slot.nextToken }

@[simp] theorem withSlot_mounts
    (s : ServerState)
    (mount : MountId)
    (slot : Slot) :
    (s.withSlot mount slot).mounts = s.mounts := rfl

@[simp] theorem withSlot_nextMount
    (s : ServerState)
    (mount : MountId)
    (slot : Slot) :
    (s.withSlot mount slot).nextMount = s.nextMount := rfl

@[simp] theorem withSlot_heap_self
    (s : ServerState)
    (mount : MountId)
    (slot : Slot) :
    (s.withSlot mount slot).heap mount = slot.mount := by
  simp [withSlot]

/- A slot put back as it was. -/
theorem withSlot_slotAt
    (s : ServerState)
    (mount : MountId) :
    s.withSlot mount (s.slotAt mount) = s := by
  have hHeap :
      (fun id =>
        if id = mount then s.heap mount else s.heap id) =
        s.heap := by
    funext id
    by_cases hId : id = mount
    · rw [if_pos hId, hId]
    · rw [if_neg hId]
  unfold withSlot slotAt
  simp only [hHeap]

end ServerState

end RustyIce

------------------------------------------------------------
-- The Handler
------------------------------------------------------------

namespace RustyIce

/- The clock at a turn, and the deadline of a preemption. -/
structure Moment where
  now : Nat
  expired : Bool
deriving DecidableEq, Repr

/- Where `handle_source_connection` is. -/
inductive ConnectionPhase where
| lookup
| verifyDefault
| create
| atMount
    (mount : MountId)
    (dynamic : Bool)
    (phase : SourcePhase)
| rejected (status : Nat)
deriving DecidableEq, Repr

namespace ConnectionPhase

/- The status a request is turned away with. -/
def rejection : ConnectionPhase → Option Nat
| .atMount _ _ (.rejected status) => some status
| .rejected status => some status
| _ => none

end ConnectionPhase

namespace SourceUpload

/- What the checks of a request come to at the moment. -/
def env
    (upload : SourceUpload)
    (moment : Moment)
    (s : ServerState) : SourceEnv where
  now := moment.now
  expired := moment.expired
  authorised :=
    s.auth.verifySource upload.path upload.password
  accepted := acceptsCodec s.config upload.path upload.codec

/-
  Only the guard of a dynamic source touches the registry.
-/
def afterTurn
    (upload : SourceUpload)
    (phase : SourcePhase)
    (s : ServerState) : ServerState :=
  match phase with
  | .dropping (.removeMount :: _) => s.unregister upload.path
  | _ => s

/-
  The next access. A request for an unknown path is checked
  against the global password and never preempts.
-/
def step
    (upload : SourceUpload)
    (moment : Moment)
    (s : ServerState) :
    ConnectionPhase → Option (ConnectionPhase × ServerState)
| .lookup =>
    match s.mounts upload.path with
    | some mount =>
        some (.atMount mount false .checkConnected, s)
    | none => some (.verifyDefault, s)
| .verifyDefault =>
    if s.auth.verifyDefaultSource upload.password then
      some (.create, s)
    else
      some (.rejected 401, s)
| .create =>
    some
      (.atMount s.nextMount true .checkCodec,
        s.createDynamicMount upload.path upload.codec)
| .atMount mount dynamic phase =>
    match
        phase.step (upload.request dynamic)
          (upload.env moment s) (s.slotAt mount) with
    | none => none
    | some (next, slot) =>
        some
          (.atMount mount dynamic next,
            upload.afterTurn phase (s.withSlot mount slot))
| .rejected _ => none

end SourceUpload

end RustyIce

------------------------------------------------------------
-- Before The Claim
------------------------------------------------------------

namespace RustyIce

/- The request has won the slot of its mount. -/
def SourcePhase.Owning : SourcePhase → Prop
| .installing _ _ => True
| .streaming _ => True
| .dropping _ => True
| .over => True
| _ => False

def ConnectionPhase.Owning : ConnectionPhase → Prop
| .atMount _ _ phase => phase.Owning
| _ => False

/- A request that was turned away never owned the slot. -/
theorem ConnectionPhase.not_owning_of_rejection
    {phase : ConnectionPhase}
    {status : Nat}
    (hRejected : phase.rejection = some status) :
    ¬ phase.Owning := by
  cases phase with
  | atMount mount dynamic phase =>
      cases phase with
      | rejected other => exact id
      | _ => cases hRejected
  | _ => exact id

/-
  What a step short of the claim does to the slot: it sets
  the flag, cancels the token it read, or leaves everything
  as it is.
-/
theorem SourcePhase.slot_of_step
    {req : SourceRequest}
    {env : SourceEnv}
    {s s' : Slot}
    {phase phase' : SourcePhase}
    (hStep : phase.step req env s = some (phase', s'))
    (hNot : ¬ phase'.Owning) :
    (phase = .setPending ∧ s' = s.storePending true) ∨
      (∃ token,
        phase = .cancelOwner token ∧ s' = s.cancel token) ∨
        (¬ phase.Owning ∧ phase ≠ .setPending ∧
          (∀ token, phase ≠ .cancelOwner token) ∧ s' = s) := by
  cases phase with
  | setPending =>
      cases hStep
      exact .inl ⟨rfl, rfl⟩
  | cancelOwner token =>
      cases hStep
      exact .inr (.inl ⟨token, rfl, rfl⟩)
  | installing todo token =>
      cases todo with
      | nil =>
          cases hStep
          exact absurd trivial hNot
      | cons op rest =>
          cases hStep
          exact absurd trivial hNot
  | streaming token =>
      cases hStep
      exact absurd trivial hNot
  | dropping todo =>
      cases todo with
      | nil =>
          cases hStep
          exact absurd trivial hNot
      | cons op rest =>
          cases hStep
          exact absurd trivial hNot
  | claim =>
      simp only [step] at hStep
      split at hStep
      · cases hStep
        simp [Owning]
      · cases hStep
        exact absurd trivial hNot
  | polling =>
      simp only [step] at hStep
      split at hStep
      · split at hStep <;> cases hStep <;> simp [Owning]
      · cases hStep
        simp [Owning]
  | rejected status => cases hStep
  | «over» => cases hStep
  | checkConnected | checkKind | readCancel | verify
  | checkCodec =>
      simp only [step] at hStep
      split at hStep <;> cases hStep <;> simp [Owning]

/- The registry is touched by a guard only. -/
theorem SourceUpload.afterTurn_of_not_owning
    (upload : SourceUpload)
    {phase : SourcePhase}
    (hNot : ¬ phase.Owning)
    (s : ServerState) :
    upload.afterTurn phase s = s := by
  cases phase with
  | dropping todo => exact absurd trivial hNot
  | _ => rfl

end RustyIce
