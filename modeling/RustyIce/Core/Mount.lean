import RustyIce.Core.Types
import RustyIce.Library.Notify

/-
  Mount points: their static description, the live state of
  one mount, and the registry that names them.

  The live state keeps every field the source tasks and the
  listener path read. Statistics are left out; of the bus
  only the sizes it is built with are kept here, and its
  traffic has a module of its own.

  Main declarations:
    * `SourceKind`
    * `MountMetadata`, `SourceOverlay`, `MountInfo`
    * `ActiveMount`
    * `MountRegistry`
-/

------------------------------------------------------------
-- Descriptions
------------------------------------------------------------

namespace RustyIce

/- Who currently owns a mount's source slot. -/
inductive SourceKind where
| none
| live
| autoDj
| relay
deriving DecidableEq, Repr

/- Hot-reloadable display metadata for a mount. -/
structure MountMetadata where
  name : Option String
  description : Option String
  genre : Option String
  url : Option String
deriving DecidableEq, Repr

/- Source-supplied identity headers captured on connect. -/
structure SourceOverlay where
  name : Option String
  description : Option String
  genre : Option String
  url : Option String
  isPublic : Option Bool
  audioInfo : Option String
  bitrateKbps : Option Nat
deriving DecidableEq, Repr

/- Full configuration for a mount point. -/
structure MountInfo where
  path : String
  codec : CodecId
  sourcePassword : String
  maxListeners : Option Nat
  metadata : MountMetadata
deriving DecidableEq, Repr

/- Metadata with every field absent. -/
def MountMetadata.default : MountMetadata where
  name := Option.none
  description := Option.none
  genre := Option.none
  url := Option.none

end RustyIce

------------------------------------------------------------
-- Live Mounts
------------------------------------------------------------

namespace RustyIce

/- Names of cancellation tokens. -/
abbrev Token := Nat

/- The sizes a broadcast bus is built with. -/
structure BusSize where
  capacity : Nat
  burstBytes : Nat
deriving DecidableEq, Repr

/- Live state for an active mount point. -/
structure ActiveMount where
  info : MountInfo
  bus : BusSize
  sourceConnected : Bool
  connectedAt : Option Nat
  sourceCancel : Option Token
  currentTitle : Option String
  sourceOverlay : Option SourceOverlay
  headerBytes : Option Bytes
  sourceKind : SourceKind
  preemptPending : Bool
  nonLiveResume : Library.Notify
deriving DecidableEq, Repr

/- A mount no source has ever owned. -/
def ActiveMount.new
    (info : MountInfo)
    (bus : BusSize) : ActiveMount where
  info := info
  bus := bus
  sourceConnected := false
  connectedAt := Option.none
  sourceCancel := Option.none
  currentTitle := Option.none
  sourceOverlay := Option.none
  headerBytes := Option.none
  sourceKind := .none
  preemptPending := false
  nonLiveResume := Library.Notify.new

end RustyIce

------------------------------------------------------------
-- The Registry
------------------------------------------------------------

namespace RustyIce

/- Names of mount objects. -/
abbrev MountId := Nat

/- The registered mount object of each path. -/
abbrev MountRegistry := String → Option MountId

namespace MountRegistry

def new : MountRegistry :=
  fun _ => Option.none

/- Register a mount, replacing any mount at the same path. -/
def add
    (registry : MountRegistry)
    (path : String)
    (mount : MountId) : MountRegistry :=
  fun p => if p = path then some mount else registry p

/- Forget the mount at a path. -/
def remove
    (registry : MountRegistry)
    (path : String) : MountRegistry :=
  fun p => if p = path then Option.none else registry p

/- The set of registered paths. -/
def Registered
    (registry : MountRegistry)
    (path : String) : Prop :=
  (registry path).isSome

instance
    (registry : MountRegistry)
    (path : String) :
    Decidable (registry.Registered path) := by
  unfold Registered
  infer_instance

@[simp] theorem add_self
    (registry : MountRegistry)
    (path : String)
    (mount : MountId) :
    registry.add path mount path = some mount := by
  simp [add]

theorem add_other
    (registry : MountRegistry)
    {path p : String}
    (mount : MountId)
    (hOther : p ≠ path) :
    registry.add path mount p = registry p := by
  simp [add, hOther]

@[simp] theorem remove_self
    (registry : MountRegistry)
    (path : String) :
    registry.remove path path = Option.none := by
  simp [remove]

theorem remove_other
    (registry : MountRegistry)
    {path p : String}
    (hOther : p ≠ path) :
    registry.remove path p = registry p := by
  simp [remove, hOther]

/- Removing what is not there changes nothing. -/
theorem remove_of_none
    {registry : MountRegistry}
    {path : String}
    (hNone : registry path = Option.none) :
    registry.remove path = registry := by
  funext p
  by_cases hOther : p = path
  · rw [hOther, remove_self, hNone]
  · exact remove_other registry hOther

end MountRegistry

end RustyIce
