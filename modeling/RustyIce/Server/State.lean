import RustyIce.Core.Config
import RustyIce.Core.Mount
import RustyIce.Auth.TomlBcrypt

/-
  The state every handler of the server shares: the running
  configuration, the credential store, the mount objects and
  their registry, and the background tasks.

  A mount object is named by a number and lives on after it
  is unregistered, for the tasks that still hold it. What a
  task does with its mount is modelled elsewhere; here it is
  an entry of its registry, present until it is cancelled.

  Main declarations:
    * `ServerState`
    * `ServerState.registerMount`, `ServerState.unregister`
    * `ServerState.cancelTask`, `ServerState.spawnTask`
    * `PathView` and the effect of each operation on it
-/

------------------------------------------------------------
-- Shared State
------------------------------------------------------------

namespace RustyIce

/- The two kinds of background task. -/
inductive TaskKind where
| autodj
| relay
deriving DecidableEq, Repr

inductive TaskConfig where
| autodj (cfg : AutoDjConfig)
| relay (cfg : RelayConfig)
deriving DecidableEq, Repr

/- A running task, its token and the mount it was given. -/
structure TaskEntry where
  cfg : TaskConfig
  cancel : Token
  mount : MountId
deriving DecidableEq, Repr

structure ServerState where
  config : Config
  auth : TomlBcryptAuth
  mounts : MountRegistry
  heap : MountId → ActiveMount
  nextMount : MountId
  tasks : TaskKind → String → Option TaskEntry
  cancelled : Token → Bool
  nextToken : Token

namespace ServerState

/- Create a mount object and register it at its path. -/
def registerMount
    (s : ServerState)
    (info : MountInfo)
    (bus : BusSize) : ServerState :=
  { s with
    heap := fun id =>
      if id = s.nextMount then ActiveMount.new info bus
      else s.heap id
    mounts := s.mounts.add info.path s.nextMount
    nextMount := s.nextMount + 1 }

def unregister
    (s : ServerState)
    (path : String) : ServerState :=
  { s with mounts := s.mounts.remove path }

/- Swap the description of the mount registered at a path. -/
def swapInfo
    (s : ServerState)
    (path : String)
    (change : MountInfo → MountInfo) : ServerState :=
  match s.mounts path with
  | none => s
  | some mount =>
      { s with
        heap := fun id =>
          if id = mount then
            { s.heap id with info := change (s.heap id).info }
          else
            s.heap id }

def setTask
    (s : ServerState)
    (kind : TaskKind)
    (path : String)
    (entry : Option TaskEntry) : ServerState :=
  { s with
    tasks := fun k p =>
      if k = kind ∧ p = path then entry else s.tasks k p }

/-
  Cancel the task at a path, if there is one, and wait until
  it is gone.
-/
def cancelTask
    (s : ServerState)
    (kind : TaskKind)
    (path : String) : ServerState :=
  match s.tasks kind path with
  | none => s
  | some entry =>
      { s.setTask kind path none with
        cancelled := fun token =>
          if token = entry.cancel then true
          else s.cancelled token }

/-
  Start a task on the mount registered at a path, if there
  is one, under a fresh token.
-/
def spawnTask
    (s : ServerState)
    (kind : TaskKind)
    (path : String)
    (cfg : TaskConfig) : ServerState :=
  match s.mounts path with
  | none => s
  | some mount =>
      { s.setTask kind path
          (some
            { cfg := cfg
              cancel := s.nextToken
              mount := mount }) with
        nextToken := s.nextToken + 1 }

end ServerState

end RustyIce

------------------------------------------------------------
-- One Path
------------------------------------------------------------

namespace RustyIce

/- What the server has at one path. -/
structure PathView where
  mount : Option MountId
  tasks : TaskKind → Option TaskEntry

namespace PathView

/- Another mount at the path. -/
def withMount
    (v : PathView)
    (mount : Option MountId) : PathView :=
  { v with mount := mount }

/- Another task at the path. -/
def withTask
    (v : PathView)
    (kind : TaskKind)
    (entry : Option TaskEntry) : PathView :=
  { v with
    tasks := fun k => if k = kind then entry else v.tasks k }

@[simp] theorem withMount_mount
    (v : PathView)
    (mount : Option MountId) :
    (v.withMount mount).mount = mount := rfl

@[simp] theorem withMount_tasks
    (v : PathView)
    (mount : Option MountId) :
    (v.withMount mount).tasks = v.tasks := rfl

@[simp] theorem withTask_mount
    (v : PathView)
    (kind : TaskKind)
    (entry : Option TaskEntry) :
    (v.withTask kind entry).mount = v.mount := rfl

@[simp] theorem withTask_tasks
    (v : PathView)
    (kind : TaskKind)
    (entry : Option TaskEntry)
    (other : TaskKind) :
    (v.withTask kind entry).tasks other =
      if other = kind then entry else v.tasks other := rfl

end PathView

namespace ServerState

def view
    (path : String)
    (s : ServerState) : PathView where
  mount := s.mounts path
  tasks := fun kind => s.tasks kind path

theorem view_registerMount_self
    (s : ServerState)
    (info : MountInfo)
    (bus : BusSize) :
    (s.registerMount info bus).view info.path =
      (s.view info.path).withMount (some s.nextMount) := by
  simp [view, registerMount, PathView.withMount]

theorem view_registerMount_other
    (s : ServerState)
    {info : MountInfo}
    (bus : BusSize)
    {path : String}
    (hOther : path ≠ info.path) :
    (s.registerMount info bus).view path = s.view path := by
  simp [view, registerMount,
    MountRegistry.add_other _ _ hOther]

theorem view_unregister_self
    (s : ServerState)
    (path : String) :
    (s.unregister path).view path =
      (s.view path).withMount none := by
  simp [view, unregister, PathView.withMount]

theorem view_unregister_other
    (s : ServerState)
    {path other : String}
    (hOther : other ≠ path) :
    (s.unregister path).view other = s.view other := by
  simp [view, unregister,
    MountRegistry.remove_other _ hOther]

/- Descriptions are not part of the view. -/
theorem view_swapInfo
    (s : ServerState)
    (path : String)
    (change : MountInfo → MountInfo)
    (other : String) :
    (s.swapInfo path change).view other = s.view other := by
  unfold swapInfo
  cases s.mounts path with
  | none => rfl
  | some mount => rfl

theorem view_cancelTask_self
    (s : ServerState)
    (kind : TaskKind)
    (path : String) :
    (s.cancelTask kind path).view path =
      (s.view path).withTask kind none := by
  unfold cancelTask
  cases hEntry : s.tasks kind path with
  | none =>
      simp only [view, PathView.withTask,
        PathView.mk.injEq, true_and]
      funext k
      by_cases hKind : k = kind
      · rw [if_pos hKind, hKind, hEntry]
      · rw [if_neg hKind]
  | some entry =>
      simp [view, setTask, PathView.withTask]

theorem view_cancelTask_other
    (s : ServerState)
    (kind : TaskKind)
    {path other : String}
    (hOther : other ≠ path) :
    (s.cancelTask kind path).view other = s.view other := by
  unfold cancelTask
  cases s.tasks kind path with
  | none => rfl
  | some entry => simp [view, setTask, hOther]

/- A task starts on the registered mount. -/
theorem view_spawnTask_self
    (s : ServerState)
    (kind : TaskKind)
    {path : String}
    (cfg : TaskConfig)
    {mount : MountId}
    (hMount : (s.view path).mount = some mount) :
    (s.spawnTask kind path cfg).view path =
      (s.view path).withTask kind
        (some
          { cfg := cfg
            cancel := s.nextToken
            mount := mount }) := by
  have hRegistered : s.mounts path = some mount := hMount
  unfold spawnTask
  rw [hRegistered]
  simp [view, setTask, PathView.withTask]

theorem view_spawnTask_other
    (s : ServerState)
    (kind : TaskKind)
    {path other : String}
    (cfg : TaskConfig)
    (hOther : other ≠ path) :
    (s.spawnTask kind path cfg).view other =
      s.view other := by
  unfold spawnTask
  cases s.mounts path with
  | none => rfl
  | some mount => simp [view, setTask, hOther]

end ServerState

end RustyIce
