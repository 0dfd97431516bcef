import RustyIce.Core.Mount

/-
  The source slot of one mount, accessed the way the source
  tasks access it: one load, store, exchange or lock at a
  time.

  The stores of a claim, of a release and of the guard of a
  live source are lists of accesses in source order, and a
  party in the middle of one has the rest of its list still
  to do.

  Main declarations:
    * `Slot`, `SlotOp`
    * `claimSlot`, `releaseSlot`, `installSource`,
      `guardDrop`
    * `Gate`, `Slot.gate_exec`
-/

------------------------------------------------------------
-- Accesses
------------------------------------------------------------

namespace RustyIce

/- A mount and the cancellation tokens of the server. -/
structure Slot where
  mount : ActiveMount
  cancelled : Token → Bool
  nextToken : Token

/- A store to a slot, or what else a guard does. -/
inductive SlotOp where
| storeKind (kind : SourceKind)
| stampConnectedAt
| storeCancel (token : Token)
| storeCodec (codec : CodecId)
| storeOverlay (overlay : SourceOverlay)
| kickListeners
| clearConnected
| clearCancel
| clearConnectedAt
| clearOverlay
| clearHeader
| notifyResume
| removeMount
deriving DecidableEq, Repr

/-
  The effect of an access at the time `now`. Listeners and
  the registry are not part of a slot.
-/
def SlotOp.exec
    (now : Nat)
    (s : Slot) : SlotOp → Slot
| .storeKind kind =>
    { s with mount := { s.mount with sourceKind := kind } }
| .stampConnectedAt =>
    { s with
      mount := { s.mount with connectedAt := some now } }
| .storeCancel token =>
    { s with
      mount := { s.mount with sourceCancel := some token } }
| .storeCodec codec =>
    { s with
      mount :=
        { s.mount with
          info := { s.mount.info with codec := codec } } }
| .storeOverlay overlay =>
    { s with
      mount :=
        { s.mount with sourceOverlay := some overlay } }
| .kickListeners => s
| .clearConnected =>
    { s with
      mount := { s.mount with sourceConnected := false } }
| .clearCancel =>
    { s with mount := { s.mount with sourceCancel := none } }
| .clearConnectedAt =>
    { s with mount := { s.mount with connectedAt := none } }
| .clearOverlay =>
    { s with
      mount := { s.mount with sourceOverlay := none } }
| .clearHeader =>
    { s with mount := { s.mount with headerBytes := none } }
| .notifyResume =>
    { s with
      mount :=
        { s.mount with
          nonLiveResume := s.mount.nonLiveResume.notifyOne } }
| .removeMount => s

/- What a task stores after it won the slot. -/
def claimSlot
    (kind : SourceKind)
    (token : Token) : List SlotOp :=
  [.storeKind kind, .stampConnectedAt, .storeCancel token]

/- What a task stores to give the slot back. -/
def releaseSlot : List SlotOp :=
  [.clearCancel, .clearConnectedAt, .clearOverlay,
    .clearHeader, .storeKind .none, .clearConnected]

/- What a live source stores after it won the slot. -/
def installSource
    (token : Token)
    (codec : CodecId)
    (overlay : SourceOverlay) : List SlotOp :=
  [.storeCancel token, .stampConnectedAt, .storeCodec codec,
    .storeOverlay overlay]

/- What the guard of a live source does when dropped. -/
def guardDrop (dynamic : Bool) : List SlotOp :=
  [.kickListeners, .clearConnected, .clearCancel,
    .clearConnectedAt, .clearOverlay, .clearHeader,
    .notifyResume] ++
    if dynamic then [.removeMount] else []

namespace Slot

/-
  The exchange on `source_connected`: the winner gets a
  token nobody has.
-/
def connect (s : Slot) : Slot :=
  { s with
    mount := { s.mount with sourceConnected := true }
    nextToken := s.nextToken + 1 }

def storePending
    (s : Slot)
    (pending : Bool) : Slot :=
  { s with
    mount := { s.mount with preemptPending := pending } }

def storeResume
    (s : Slot)
    (resume : Library.Notify) : Slot :=
  { s with
    mount := { s.mount with nonLiveResume := resume } }

def storeHeader
    (s : Slot)
    (headers : Option Bytes) : Slot :=
  match headers with
  | none => s
  | some bytes =>
      { s with
        mount := { s.mount with headerBytes := some bytes } }

def cancel
    (s : Slot)
    (token : Token) : Slot :=
  { s with
    cancelled := fun t =>
      if t = token then true else s.cancelled t }

/- Cancel whatever token the slot holds, if any. -/
def kick (s : Slot) : Slot :=
  match s.mount.sourceCancel with
  | none => s
  | some token => s.cancel token

end Slot

end RustyIce

------------------------------------------------------------
-- The Gate
------------------------------------------------------------

namespace RustyIce

/-
  The part of a slot by which its parties wait for each
  other.
-/
structure Gate where
  connected : Bool
  pending : Bool
  resume : Library.Notify
deriving DecidableEq, Repr

namespace Gate

def disconnect (g : Gate) : Gate :=
  { g with connected := false }

def connect (g : Gate) : Gate :=
  { g with connected := true }

def storePending
    (g : Gate)
    (pending : Bool) : Gate :=
  { g with pending := pending }

def storeResume
    (g : Gate)
    (resume : Library.Notify) : Gate :=
  { g with resume := resume }

end Gate

namespace Slot

def gate (s : Slot) : Gate where
  connected := s.mount.sourceConnected
  pending := s.mount.preemptPending
  resume := s.mount.nonLiveResume

@[simp] theorem gate_connected (s : Slot) :
    s.gate.connected = s.mount.sourceConnected := rfl

@[simp] theorem gate_pending (s : Slot) :
    s.gate.pending = s.mount.preemptPending := rfl

@[simp] theorem gate_resume (s : Slot) :
    s.gate.resume = s.mount.nonLiveResume := rfl

theorem gate_storeHeader
    (s : Slot)
    (headers : Option Bytes) :
    (s.storeHeader headers).gate = s.gate := by
  cases headers with
  | none => rfl
  | some bytes => rfl

theorem gate_kick (s : Slot) :
    s.kick.gate = s.gate := by
  unfold kick
  cases s.mount.sourceCancel with
  | none => rfl
  | some token => rfl

end Slot

namespace SlotOp

/- Two accesses move the gate. -/
def onGate (g : Gate) : SlotOp → Gate
| .clearConnected => g.disconnect
| .notifyResume => g.storeResume g.resume.notifyOne
| .storeKind _ => g
| .stampConnectedAt => g
| .storeCancel _ => g
| .storeCodec _ => g
| .storeOverlay _ => g
| .kickListeners => g
| .clearCancel => g
| .clearConnectedAt => g
| .clearOverlay => g
| .clearHeader => g
| .removeMount => g

theorem gate_exec
    (now : Nat)
    (s : Slot)
    (op : SlotOp) :
    (op.exec now s).gate = op.onGate s.gate := by
  cases op <;> rfl

/- The others leave it alone. -/
theorem onGate_eq
    (g : Gate)
    {op : SlotOp}
    (hConnected : op ≠ .clearConnected)
    (hNotify : op ≠ .notifyResume) :
    op.onGate g = g := by
  cases op <;> first | rfl | contradiction

end SlotOp

end RustyIce
