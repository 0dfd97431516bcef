import RustyIce.Library.SnapshotCell
import RustyIce.Server.ConfigReload
import RustyIce.Server.Slot

/-
  The description of one mount under the swaps of connecting
  sources and of reloads, load by load and store by store.

  A live source and a relay swap the codec, unless it is the
  one they loaded; a reload swaps what its entry says. Each
  carries the other fields over from the copy it loaded.

  Main declarations:
    * `InfoSwap`, `infoEditing`
    * `InfoCell`, `InfoCell.Kept`
    * `InfoCell.updates_kept_iff`
-/

------------------------------------------------------------
-- Swaps
------------------------------------------------------------

namespace RustyIce

open Library

/- Who swaps the description of a mount, and for what. -/
inductive InfoSwap where
| source (codec : CodecId)
| mount (mc : MountConfig)
| autodj (ac : AutoDjConfig)
| relay (rc : RelayConfig)
deriving DecidableEq, Repr

namespace InfoSwap

/- What a swap stores, from the copy it loaded. -/
def apply : InfoSwap → MountInfo → MountInfo
| .source codec, info => { info with codec := codec }
| .mount mc, info =>
    { mountInfo mc with
      path := info.path
      codec := info.codec }
| .autodj ac, info =>
    { info with
      maxListeners := (autodjInfo ac).maxListeners
      metadata := (autodjInfo ac).metadata }
| .relay rc, info =>
    { info with
      maxListeners := (relayInfo rc).maxListeners
      metadata := (relayInfo rc).metadata }

/- A source that finds its codec there stores nothing. -/
def needed : InfoSwap → MountInfo → Bool
| .source codec, info => info.codec ≠ codec
| .mount _, _ => true
| .autodj _, _ => true
| .relay _, _ => true

theorem apply_of_unneeded
    {swap : InfoSwap}
    {info : MountInfo}
    (hUnneeded : swap.needed info = false) :
    swap.apply info = info := by
  cases swap with
  | source codec =>
      simp only [needed, ne_eq, decide_not,
        Bool.not_eq_false', decide_eq_true_eq] at hUnneeded
      rw [← hUnneeded]
      rfl
  | _ => cases hUnneeded

/- The codec a swap sets, if it sets one. -/
def codec? : InfoSwap → Option CodecId
| .source codec => some codec
| .mount _ => none
| .autodj _ => none
| .relay _ => none

def sourcePassword? : InfoSwap → Option String
| .source _ => none
| .mount mc => some mc.sourcePassword
| .autodj _ => none
| .relay _ => none

def maxListeners? : InfoSwap → Option (Option Nat)
| .source _ => none
| .mount mc => some mc.maxListeners
| .autodj ac => some ac.maxListeners
| .relay rc => some rc.maxListeners

def metadata? : InfoSwap → Option MountMetadata
| .source _ => none
| .mount mc => some (mountInfo mc).metadata
| .autodj ac => some (autodjInfo ac).metadata
| .relay rc => some (relayInfo rc).metadata

/- Field by field, a swap sets what it says it sets. -/
theorem apply_eq
    (swap : InfoSwap)
    (info : MountInfo) :
    swap.apply info =
      { path := info.path
        codec := swap.codec?.getD info.codec
        sourcePassword :=
          swap.sourcePassword?.getD info.sourcePassword
        maxListeners :=
          swap.maxListeners?.getD info.maxListeners
        metadata := swap.metadata?.getD info.metadata } := by
  cases swap <;> rfl

/- What a swap carries over from its copy is still so. -/
def Current (copy info : MountInfo) : InfoSwap → Prop
| .source _ =>
    copy.path = info.path ∧
      copy.sourcePassword = info.sourcePassword ∧
        copy.maxListeners = info.maxListeners ∧
          copy.metadata = info.metadata
| .mount _ =>
    copy.path = info.path ∧ copy.codec = info.codec
| .autodj _ =>
    copy.path = info.path ∧
      copy.codec = info.codec ∧
        copy.sourcePassword = info.sourcePassword
| .relay _ =>
    copy.path = info.path ∧
      copy.codec = info.codec ∧
        copy.sourcePassword = info.sourcePassword

instance (copy info : MountInfo) (swap : InfoSwap) :
    Decidable (swap.Current copy info) := by
  cases swap <;> unfold Current <;> infer_instance

theorem apply_eq_iff_current
    (copy info : MountInfo)
    (swap : InfoSwap) :
    swap.apply copy = swap.apply info ↔
      swap.Current copy info := by
  cases swap <;>
    simp [apply, Current, MountInfo.mk.injEq]

end InfoSwap

/- The swaps as edits of a cell. -/
def infoEditing : Editing MountInfo InfoSwap where
  apply := InfoSwap.apply
  needed := InfoSwap.needed
  unneeded := InfoSwap.apply_of_unneeded

end RustyIce

------------------------------------------------------------
-- Where The Swaps Come From
------------------------------------------------------------

namespace RustyIce

/- A listed mount that is registered is swapped. -/
theorem applyMount_registered
    (cfg : Config)
    {s : ServerState}
    {mc : MountConfig}
    (hThere : (s.mounts mc.path).isSome) :
    applyMount cfg s mc =
      s.swapInfo mc.path (InfoSwap.mount mc).apply := by
  unfold applyMount
  rw [if_pos hThere]
  rfl

/- So is an entry whose task goes on. -/
theorem applyEntry_autodj
    {olds : List AutoDjConfig}
    (cfg : Config)
    (s : ServerState)
    {new : AutoDjConfig}
    (hKeep : needsRespawn autodjSection olds new = false) :
    applyEntry autodjSection olds cfg s new =
      s.swapInfo new.mount (InfoSwap.autodj new).apply := by
  unfold applyEntry
  rw [hKeep]
  rfl

theorem applyEntry_relay
    {olds : List RelayConfig}
    (cfg : Config)
    (s : ServerState)
    {new : RelayConfig}
    (hKeep : needsRespawn relaySection olds new = false) :
    applyEntry relaySection olds cfg s new =
      s.swapInfo new.mount (InfoSwap.relay new).apply := by
  unfold applyEntry
  rw [hKeep]
  rfl

/- A source that stores its codec swaps it. -/
theorem exec_storeCodec
    (now : Nat)
    (s : Slot)
    (codec : CodecId) :
    ((SlotOp.storeCodec codec).exec now s).mount.info =
      (InfoSwap.source codec).apply s.mount.info := rfl

end RustyIce

------------------------------------------------------------
-- Lost Updates
------------------------------------------------------------

namespace RustyIce

open Library SnapshotCell

/- The description of a mount, and the swaps under way. -/
abbrev InfoCell := SnapshotCell MountInfo InfoSwap

/- The mount starts with a description; swaps come and go. -/
abbrev infoMachine (info : MountInfo) :
    Machine InfoCell (Access InfoSwap) :=
  SnapshotCell.machine infoEditing info

namespace InfoCell

/-
  No update of the swaps done so far is lost: each field is
  as the latest swap that sets it wants it.
-/
structure Kept
    (info : MountInfo)
    (s : InfoCell) : Prop where
  path : s.value.path = info.path
  codec :
    s.value.codec =
      (s.done.findSome? InfoSwap.codec?).getD info.codec
  sourcePassword :
    s.value.sourcePassword =
      (s.done.findSome? InfoSwap.sourcePassword?).getD
        info.sourcePassword
  maxListeners :
    s.value.maxListeners =
      (s.done.findSome? InfoSwap.maxListeners?).getD
        info.maxListeners
  metadata :
    s.value.metadata =
      (s.done.findSome? InfoSwap.metadata?).getD
        info.metadata

/- What the latest of a list of swaps sets, put first. -/
theorem getD_findSome?_cons {Field : Type}
    (field? : InfoSwap → Option Field)
    (swap : InfoSwap)
    (done : List InfoSwap)
    (first : Field) :
    ((swap :: done).findSome? field?).getD first =
      (field? swap).getD
        ((done.findSome? field?).getD first) := by
  rw [List.findSome?_cons]
  cases field? swap with
  | none => rfl
  | some field => rfl

/- The serial history, field by field. -/
theorem serial_eq
    (info : MountInfo)
    (done : List InfoSwap) :
    serial infoEditing info done =
      { path := info.path
        codec :=
          (done.findSome? InfoSwap.codec?).getD info.codec
        sourcePassword :=
          (done.findSome? InfoSwap.sourcePassword?).getD
            info.sourcePassword
        maxListeners :=
          (done.findSome? InfoSwap.maxListeners?).getD
            info.maxListeners
        metadata :=
          (done.findSome? InfoSwap.metadata?).getD
            info.metadata } := by
  induction done with
  | nil => rfl
  | cons swap done ih =>
      show swap.apply (serial infoEditing info done) = _
      rw [InfoSwap.apply_eq, ih]
      simp only [getD_findSome?_cons]

theorem kept_iff_serial
    (info : MountInfo)
    (s : InfoCell) :
    Kept info s ↔
      s.value = serial infoEditing info s.done := by
  rw [serial_eq]
  constructor
  · intro hKept
    rcases s with ⟨⟨path, codec, password, max, tags⟩, _, _⟩
    rw [MountInfo.mk.injEq]
    exact
      ⟨hKept.path, hKept.codec, hKept.sourcePassword,
        hKept.maxListeners, hKept.metadata⟩
  · intro hValue
    constructor <;> rw [hValue]

/-
  A store is timely if what it carries over has not changed
  since its load.
-/
def Timely (s : InfoCell) : Access InfoSwap → Prop
| .load _ _ => True
| .store writer =>
    match s.copies writer with
    | none => True
    | some (swap, copy) => swap.Current copy s.value

instance (s : InfoCell) (access : Access InfoSwap) :
    Decidable (s.Timely access) := by
  unfold Timely
  split
  · infer_instance
  · split <;> infer_instance

theorem fresh_iff_timely
    (s : InfoCell)
    (access : Access InfoSwap) :
    s.Fresh infoEditing access ↔ s.Timely access := by
  cases access with
  | load writer swap => exact Iff.rfl
  | store writer =>
      simp only [Fresh, Timely]
      cases s.copies writer with
      | none =>
          refine iff_of_true ?_ trivial
          intro swap copy hCopy
          cases hCopy
      | some loaded =>
          rcases loaded with ⟨swap, copy⟩
          simp only [Option.some.injEq, Prod.mk.injEq]
          rw [← InfoSwap.apply_eq_iff_current]
          constructor
          · intro hSame
            exact hSame swap copy ⟨rfl, rfl⟩
          · rintro hSame _ _ ⟨rfl, rfl⟩
            exact hSame

/-
  Throughout a run no update is lost exactly if every store
  of the run is timely.
-/
theorem updates_kept_iff
    {info : MountInfo}
    {accesses : List (Access InfoSwap)}
    {s : InfoCell}
    (hRun :
      (infoMachine info).run (.new info) accesses =
        some s) :
    (infoMachine info).Along (Kept info) (.new info)
        accesses ↔
      (infoMachine info).Admits Timely (.new info)
        accesses := by
  have hKept :
      Kept info =
        fun t =>
          t.value = serial infoEditing info t.done := by
    funext t
    exact propext (kept_iff_serial info t)
  have hTimely : Timely = Fresh infoEditing := by
    funext t access
    exact propext (fresh_iff_timely t access).symm
  rw [hKept, hTimely]
  exact serial_iff_fresh hRun

/- A placeholder mount, before its first source. -/
def placeholder : MountInfo :=
  mountInfo (.bare "/live" "hackme")

/- An entry that caps the listeners of the mount. -/
def cappedEntry : MountConfig :=
  { MountConfig.bare "/live" "hackme" with
    maxListeners := some 5 }

/- A source connects, and then a reload caps the mount. -/
def connectThenReload : List (Access InfoSwap) :=
  [.load 0 (.source .VORBIS), .store 0,
    .load 1 (.mount cappedEntry), .store 1]

/- The reload runs between the load and the store. -/
def reloadWithin : List (Access InfoSwap) :=
  [.load 0 (.source .VORBIS), .load 1 (.mount cappedEntry),
    .store 1, .store 0]

theorem updates_kept_iff_connectThenReload :
    (infoMachine placeholder).Along (Kept placeholder)
        (.new placeholder) connectThenReload ↔
      (infoMachine placeholder).Admits Timely
        (.new placeholder) connectThenReload := by
  have hRun :
      (infoMachine placeholder).run (.new placeholder)
          connectThenReload =
        some _ := rfl
  exact updates_kept_iff hRun

/- The source stores the description without the cap. -/
theorem reloadWithin_lost :
    ∃ s,
      (infoMachine placeholder).run (.new placeholder)
          reloadWithin = some s ∧
        s.Settled ∧
          s.done =
              [.source .VORBIS, .mount cappedEntry] ∧
            cappedEntry.maxListeners = some 5 ∧
              s.value.maxListeners = none := by
  have hRun :
      (infoMachine placeholder).run (.new placeholder)
          reloadWithin =
        some _ := rfl
  refine ⟨_, hRun, ?_, rfl, rfl, rfl⟩
  intro writer
  by_cases hFirst : writer = 0
  · rw [hFirst]
    rfl
  · by_cases hSecond : writer = 1
    · rw [hSecond]
      rfl
    · simp [SnapshotCell.setCopy, SnapshotCell.new, hFirst,
        hSecond]

end InfoCell

end RustyIce
