import RustyIce.Library.Keyed
import RustyIce.Server.State

/-
  Starting the server from a configuration, and applying
  another configuration to the running server.

  The rotation section and the relay section are handled by
  one pair of loops each, which differ only in the fields
  they read; `TaskSection` has these fields.

  Main declarations:
    * `mountInfo`, `autodjInfo`, `relayInfo`
    * `bootstrap`
    * `TaskSection`, `autodjSection`, `relaySection`
    * `applyConfig`
-/

------------------------------------------------------------
-- Descriptions From The Configuration
------------------------------------------------------------

namespace RustyIce

/- The codec marker is set later, when a source connects. -/
def mountInfo (mc : MountConfig) : MountInfo where
  path := mc.path
  codec := .MP3
  sourcePassword := mc.sourcePassword
  maxListeners := mc.maxListeners
  metadata :=
    { name := mc.name
      description := mc.description
      genre := mc.genre
      url := mc.url }

def codecSeed (format : TranscodeFormat) : CodecId :=
  match format with
  | .mp3 => .MP3
  | .vorbis => .VORBIS

def autodjInfo (ac : AutoDjConfig) : MountInfo where
  path := ac.mount
  codec := codecSeed ac.transcode.format
  sourcePassword := ""
  maxListeners := ac.maxListeners
  metadata :=
    { name := ac.name
      description := ac.description
      genre := ac.genre
      url := ac.url }

def relayInfo (rc : RelayConfig) : MountInfo where
  path := rc.mount
  codec := .MP3
  sourcePassword := ""
  maxListeners := rc.maxListeners
  metadata :=
    { name := rc.name
      description := rc.description
      genre := rc.genre
      url := rc.url }

/- The bus sizes of a mount with its own burst size or not. -/
def busSize
    (cfg : Config)
    (burstSize : Option Nat) : BusSize where
  capacity := cfg.limits.ringSize
  burstBytes := burstSize.getD cfg.limits.burstSize

/-
  What the two task sections read of their entries.
  `changed` tells a change that needs a new task.
-/
structure TaskSection (Entry : Type) where
  kind : TaskKind
  path : Entry → String
  enabled : Entry → Bool
  changed : Entry → Entry → Bool
  info : Entry → MountInfo
  burstSize : Entry → Option Nat
  task : Entry → TaskConfig
  info_path : ∀ entry, (info entry).path = path entry
  changed_self : ∀ entry, changed entry entry = false
  changed_enabled :
    ∀ old new, changed old new = false →
      enabled old = enabled new

def autodjSection : TaskSection AutoDjConfig where
  kind := .autodj
  path := AutoDjConfig.mount
  enabled := AutoDjConfig.enabled
  changed := fun old new =>
    old.enabled ≠ new.enabled ||
      old.folder ≠ new.folder ||
      old.loopPlaylist ≠ new.loopPlaylist ||
      old.order ≠ new.order ||
      old.transcode ≠ new.transcode ||
      old.burstSize ≠ new.burstSize
  info := autodjInfo
  burstSize := AutoDjConfig.burstSize
  task := .autodj
  info_path := fun _ => rfl
  changed_self := by
    intro entry
    simp
  changed_enabled := by
    intro old new hSame
    simp only [Bool.or_eq_false_iff, decide_eq_false_iff_not,
      not_not] at hSame
    exact hSame.1.1.1.1.1

def relaySection : TaskSection RelayConfig where
  kind := .relay
  path := RelayConfig.mount
  enabled := RelayConfig.enabled
  changed := fun old new =>
    old.enabled ≠ new.enabled ||
      old.upstream ≠ new.upstream ||
      old.username ≠ new.username ||
      old.password ≠ new.password ||
      old.transcode ≠ new.transcode ||
      old.burstSize ≠ new.burstSize
  info := relayInfo
  burstSize := RelayConfig.burstSize
  task := .relay
  info_path := fun _ => rfl
  changed_self := by
    intro entry
    simp
  changed_enabled := by
    intro old new hSame
    simp only [Bool.or_eq_false_iff, decide_eq_false_iff_not,
      not_not] at hSame
    exact hSame.1.1.1.1.1

end RustyIce

------------------------------------------------------------
-- Starting
------------------------------------------------------------

namespace RustyIce

/- Register an entry's mount, and start its task if enabled. -/
def startEntry {Entry : Type}
    (sec : TaskSection Entry)
    (cfg : Config)
    (s : ServerState)
    (entry : Entry) : ServerState :=
  let s :=
    s.registerMount (sec.info entry)
      (busSize cfg (sec.burstSize entry))
  if sec.enabled entry then
    s.spawnTask sec.kind (sec.path entry) (sec.task entry)
  else
    s

def startMount
    (cfg : Config)
    (s : ServerState)
    (mc : MountConfig) : ServerState :=
  s.registerMount (mountInfo mc) (busSize cfg mc.burstSize)

/- A server before any mount is registered. -/
def emptyServer (cfg : Config) : ServerState where
  config := cfg
  auth := .new cfg
  mounts := .new
  heap := fun _ =>
    .new (mountInfo (.bare "" "")) (busSize cfg none)
  nextMount := 0
  tasks := fun _ _ => none
  cancelled := fun _ => false
  nextToken := 0

/-
  The server `main` builds: every mount of every section is
  registered, and the enabled tasks run.
-/
def bootstrap (cfg : Config) : ServerState :=
  let s := cfg.mounts.foldl (startMount cfg) (emptyServer cfg)
  let s :=
    cfg.autodjs.foldl (startEntry autodjSection cfg) s
  cfg.relays.foldl (startEntry relaySection cfg) s

end RustyIce

------------------------------------------------------------
-- Applying
------------------------------------------------------------

namespace RustyIce

/- A mount entry: describe it anew, or register it. -/
def applyMount
    (cfg : Config)
    (s : ServerState)
    (mc : MountConfig) : ServerState :=
  if (s.mounts mc.path).isSome then
    s.swapInfo mc.path fun old =>
      { mountInfo mc with
        path := old.path
        codec := old.codec }
  else
    s.registerMount (mountInfo mc) (busSize cfg mc.burstSize)

/- A mount that disappeared from its section is removed. -/
def dropMount
    (newPaths : List String)
    (s : ServerState)
    (old : MountConfig) : ServerState :=
  if old.path ∈ newPaths then s else s.unregister old.path

/-
  An entry that disappeared from its section: its task is
  cancelled and its mount removed.
-/
def dropEntry {Entry : Type}
    (sec : TaskSection Entry)
    (newPaths : List String)
    (s : ServerState)
    (old : Entry) : ServerState :=
  if sec.path old ∈ newPaths then
    s
  else
    (s.cancelTask sec.kind (sec.path old)).unregister
      (sec.path old)

/- A new entry needs a task only if it is enabled. -/
def needsRespawn {Entry : Type}
    (sec : TaskSection Entry)
    (olds : List Entry)
    (new : Entry) : Bool :=
  match olds.find? fun old => sec.path old = sec.path new with
  | none => sec.enabled new
  | some old => sec.changed old new

/- Register the mount of an entry unless it is there. -/
def ensureMount {Entry : Type}
    (sec : TaskSection Entry)
    (cfg : Config)
    (s : ServerState)
    (new : Entry) : ServerState :=
  if (s.mounts (sec.path new)).isNone then
    s.registerMount (sec.info new)
      (busSize cfg (sec.burstSize new))
  else
    s

/- An entry of the new section: respawn it or describe it. -/
def applyEntry {Entry : Type}
    (sec : TaskSection Entry)
    (olds : List Entry)
    (cfg : Config)
    (s : ServerState)
    (new : Entry) : ServerState :=
  if needsRespawn sec olds new then
    let s := s.cancelTask sec.kind (sec.path new)
    let s := ensureMount sec cfg s new
    if sec.enabled new then
      s.spawnTask sec.kind (sec.path new) (sec.task new)
    else
      s
  else
    s.swapInfo (sec.path new) fun old =>
      { old with
        maxListeners := (sec.info new).maxListeners
        metadata := (sec.info new).metadata }

/- One task section: what disappeared, then what is new. -/
def diffEntries {Entry : Type}
    (sec : TaskSection Entry)
    (olds news : List Entry)
    (cfg : Config)
    (s : ServerState) : ServerState :=
  let s :=
    olds.foldl (dropEntry sec (news.map sec.path)) s
  news.foldl (applyEntry sec olds cfg) s

/- The plain mounts: what is listed, then what disappeared. -/
def diffMounts
    (olds news : List MountConfig)
    (cfg : Config)
    (s : ServerState) : ServerState :=
  let s := news.foldl (applyMount cfg) s
  olds.foldl (dropMount (news.map MountConfig.path)) s

/- Changes that are saved but take effect at a restart. -/
def restartWarnings (old new : Config) : List String :=
  (if old.server.streamBind ≠ new.server.streamBind then
    ["stream_bind changed — restart required " ++
      "for this to take effect"]
  else []) ++
    (if old.server.adminBind ≠ new.server.adminBind then
      ["admin_bind changed — restart required " ++
        "for this to take effect"]
    else []) ++
    (if old.limits.ringSize ≠ new.limits.ringSize then
      ["ring_size changed — restart required " ++
        "for this to take effect"]
    else [])

/- The registry and task changes of a reload. -/
def applySections
    (new : Config)
    (s : ServerState) : ServerState :=
  let old := s.config
  let s := diffMounts old.mounts new.mounts new s
  let s :=
    diffEntries autodjSection old.autodjs new.autodjs new s
  diffEntries relaySection old.relays new.relays new s

/-
  Apply a configuration. The only error is that of the
  credential store, before anything else changes.
-/
def applyConfig
    (new : Config)
    (s : ServerState) :
    Except String (ServerState × List String) :=
  let warnings := restartWarnings s.config new
  match s.auth.reload new with
  | .error message => .error message
  | .ok auth =>
      let s := applySections new { s with auth := auth }
      .ok ({ s with config := new }, warnings)

/- The server after applying a configuration. -/
def applied
    (new : Config)
    (s : ServerState) : ServerState :=
  { applySections new { s with auth := .new new } with
    config := new }

/- Applying always succeeds. -/
theorem applyConfig_eq
    (new : Config)
    (s : ServerState) :
    applyConfig new s =
      .ok (applied new s, restartWarnings s.config new) :=
  rfl

end RustyIce

------------------------------------------------------------
-- Loops At One Path
------------------------------------------------------------

namespace RustyIce

open Library.Keyed ServerState

/- The view of a started entry's path. -/
theorem view_startEntry_self {Entry : Type}
    (sec : TaskSection Entry)
    (cfg : Config)
    (s : ServerState)
    (entry : Entry) :
    ∃ mount token,
      (startEntry sec cfg s entry).view (sec.path entry) =
        if sec.enabled entry then
          ((s.view (sec.path entry)).withMount
            (some mount)).withTask sec.kind
              (some
                { cfg := sec.task entry
                  cancel := token
                  mount := mount })
        else
          (s.view (sec.path entry)).withMount
            (some mount) := by
  have hRegister :=
    view_registerMount_self s (sec.info entry)
      (busSize cfg (sec.burstSize entry))
  rw [sec.info_path] at hRegister
  refine ⟨s.nextMount, s.nextToken, ?_⟩
  unfold startEntry
  by_cases hEnabled : sec.enabled entry
  · simp only [hEnabled, if_true]
    rw [view_spawnTask_self _ sec.kind (sec.task entry)
      (by rw [hRegister]; rfl), hRegister]
    rfl
  · simp only [hEnabled, Bool.false_eq_true, if_false]
    exact hRegister

theorem view_startEntry_other {Entry : Type}
    (sec : TaskSection Entry)
    (cfg : Config)
    (s : ServerState)
    {entry : Entry}
    {path : String}
    (hOther : path ≠ sec.path entry) :
    (startEntry sec cfg s entry).view path =
      s.view path := by
  have hInfo : path ≠ (sec.info entry).path := by
    rw [sec.info_path]
    exact hOther
  unfold startEntry
  split
  · rw [view_spawnTask_other _ _ _ hOther,
      view_registerMount_other _ _ hInfo]
  · rw [view_registerMount_other _ _ hInfo]

/- Mount entries: a mount at the path stays, or a new one. -/
theorem view_applyMount_self
    (cfg : Config)
    (s : ServerState)
    (mc : MountConfig) :
    ∃ mount,
      (applyMount cfg s mc).view mc.path =
          (s.view mc.path).withMount (some mount) ∧
        ∀ old, s.mounts mc.path = some old →
          mount = old := by
  unfold applyMount
  cases hMount : s.mounts mc.path with
  | some old =>
      refine ⟨old, ?_, ?_⟩
      · simp only [Option.isSome_some, if_true]
        rw [view_swapInfo]
        simp only [view, PathView.withMount, hMount]
      · intro other hOther
        cases hOther
        rfl
  | none =>
      refine ⟨s.nextMount, ?_, ?_⟩
      · simp only [Option.isSome_none, Bool.false_eq_true,
          if_false]
        exact view_registerMount_self s (mountInfo mc) _
      · intro other hOther
        cases hOther

theorem view_applyMount_other
    (cfg : Config)
    (s : ServerState)
    {mc : MountConfig}
    {path : String}
    (hOther : path ≠ mc.path) :
    (applyMount cfg s mc).view path = s.view path := by
  unfold applyMount
  split
  · exact view_swapInfo _ _ _ _
  · exact view_registerMount_other s _ hOther

/- The entry of a task section at its own path. -/
theorem view_ensureMount_self {Entry : Type}
    (sec : TaskSection Entry)
    (cfg : Config)
    (s : ServerState)
    (new : Entry) :
    ∃ mount,
      (ensureMount sec cfg s new).view (sec.path new) =
          (s.view (sec.path new)).withMount (some mount) ∧
        ∀ old, s.mounts (sec.path new) = some old →
          mount = old := by
  unfold ensureMount
  cases hMount : s.mounts (sec.path new) with
  | some old =>
      refine ⟨old, ?_, ?_⟩
      · simp only [Option.isNone_some, Bool.false_eq_true,
          if_false]
        simp only [view, PathView.withMount, hMount]
      · intro other hOther
        cases hOther
        rfl
  | none =>
      have hRegister :=
        view_registerMount_self s (sec.info new)
          (busSize cfg (sec.burstSize new))
      rw [sec.info_path] at hRegister
      refine ⟨s.nextMount, ?_, ?_⟩
      · simp only [Option.isNone_none, if_true]
        exact hRegister
      · intro other hOther
        cases hOther

/-
  An entry that needs a new task: its mount stays or is
  created, and the task at the path is a new one on that
  mount, or none if the entry is disabled.
-/
theorem view_applyEntry_respawn {Entry : Type}
    (sec : TaskSection Entry)
    (olds : List Entry)
    (cfg : Config)
    (s : ServerState)
    {new : Entry}
    (hRespawn : needsRespawn sec olds new = true) :
    ∃ mount token,
      (applyEntry sec olds cfg s new).view (sec.path new) =
          ((s.view (sec.path new)).withMount
            (some mount)).withTask sec.kind
              (if sec.enabled new then
                some
                  { cfg := sec.task new
                    cancel := token
                    mount := mount }
              else none) ∧
        ∀ old, s.mounts (sec.path new) = some old →
          mount = old := by
  rcases view_ensureMount_self sec cfg
      (s.cancelTask sec.kind (sec.path new)) new with
    ⟨mount, hView, hSame⟩
  rw [view_cancelTask_self] at hView
  have hKept :
      (s.cancelTask sec.kind (sec.path new)).mounts =
        s.mounts := by
    unfold ServerState.cancelTask
    cases s.tasks sec.kind (sec.path new) with
    | none => rfl
    | some entry => rfl
  rw [hKept] at hSame
  unfold applyEntry
  simp only [hRespawn, if_true]
  by_cases hEnabled : sec.enabled new
  · simp only [hEnabled, if_true]
    refine
      ⟨mount,
        (ensureMount sec cfg
          (s.cancelTask sec.kind (sec.path new))
          new).nextToken,
        ?_, hSame⟩
    rw [view_spawnTask_self _ sec.kind (sec.task new)
      (by rw [hView]; rfl), hView]
    simp only [PathView.withTask, PathView.withMount,
      PathView.mk.injEq, true_and]
    funext k
    by_cases hKind : k = sec.kind
    · rw [if_pos hKind, if_pos hKind]
    · rw [if_neg hKind, if_neg hKind, if_neg hKind]
  · simp only [hEnabled, Bool.false_eq_true, if_false]
    refine ⟨mount, 0, ?_, hSame⟩
    rw [hView]
    rfl

theorem view_applyEntry_keep {Entry : Type}
    (sec : TaskSection Entry)
    (olds : List Entry)
    (cfg : Config)
    (s : ServerState)
    {new : Entry}
    (hKeep : needsRespawn sec olds new = false)
    (path : String) :
    (applyEntry sec olds cfg s new).view path =
      s.view path := by
  unfold applyEntry
  simp only [hKeep, Bool.false_eq_true, if_false]
  exact view_swapInfo _ _ _ _

theorem view_applyEntry_other {Entry : Type}
    (sec : TaskSection Entry)
    (olds : List Entry)
    (cfg : Config)
    (s : ServerState)
    {new : Entry}
    {path : String}
    (hOther : path ≠ sec.path new) :
    (applyEntry sec olds cfg s new).view path =
      s.view path := by
  have hInfo : path ≠ (sec.info new).path := by
    rw [sec.info_path]
    exact hOther
  have hEnsure :
      ∀ t : ServerState,
        (ensureMount sec cfg t new).view path =
          t.view path := by
    intro t
    unfold ensureMount
    split
    · exact view_registerMount_other t _ hInfo
    · rfl
  cases hRespawn : needsRespawn sec olds new with
  | false => exact view_applyEntry_keep sec olds cfg s hRespawn path
  | true =>
      unfold applyEntry
      simp only [hRespawn, if_true]
      split
      · rw [view_spawnTask_other _ _ _ hOther, hEnsure,
          view_cancelTask_other _ _ hOther]
      · rw [hEnsure, view_cancelTask_other _ _ hOther]

theorem view_dropEntry_self {Entry : Type}
    (sec : TaskSection Entry)
    {newPaths : List String}
    (s : ServerState)
    {old : Entry}
    (hGone : sec.path old ∉ newPaths) :
    (dropEntry sec newPaths s old).view (sec.path old) =
      ((s.view (sec.path old)).withTask sec.kind
        none).withMount none := by
  unfold dropEntry
  rw [if_neg hGone, view_unregister_self,
    view_cancelTask_self]

theorem view_dropEntry_other {Entry : Type}
    (sec : TaskSection Entry)
    (newPaths : List String)
    (s : ServerState)
    {old : Entry}
    {path : String}
    (hOther : path ≠ sec.path old ∨ path ∈ newPaths) :
    (dropEntry sec newPaths s old).view path =
      s.view path := by
  unfold dropEntry
  split
  · rfl
  · rename_i hGone
    have hPath : path ≠ sec.path old := by
      rcases hOther with hNe | hIn
      · exact hNe
      · intro hEq
        exact hGone (hEq ▸ hIn)
    rw [view_unregister_other _ hPath,
      view_cancelTask_other _ _ hPath]

theorem view_dropMount_self
    {newPaths : List String}
    (s : ServerState)
    {old : MountConfig}
    (hGone : old.path ∉ newPaths) :
    (dropMount newPaths s old).view old.path =
      (s.view old.path).withMount none := by
  unfold dropMount
  rw [if_neg hGone, view_unregister_self]

theorem view_dropMount_other
    (newPaths : List String)
    (s : ServerState)
    {old : MountConfig}
    {path : String}
    (hOther : path ≠ old.path ∨ path ∈ newPaths) :
    (dropMount newPaths s old).view path = s.view path := by
  unfold dropMount
  split
  · rfl
  · rename_i hGone
    apply view_unregister_other
    rcases hOther with hNe | hIn
    · exact hNe
    · intro hEq
      exact hGone (hEq ▸ hIn)

end RustyIce

------------------------------------------------------------
-- Sections At One Path
------------------------------------------------------------

namespace RustyIce

open Library.Keyed ServerState

/- Starting the mounts of the plain section. -/
theorem view_startMounts_of_mem
    (cfg : Config)
    {entries : List MountConfig}
    (hNodup : (entries.map MountConfig.path).Nodup)
    {path : String}
    (hListed : path ∈ entries.map MountConfig.path)
    (s : ServerState) :
    ∃ mount,
      (entries.foldl (startMount cfg) s).view path =
        (s.view path).withMount (some mount) := by
  rcases List.mem_map.mp hListed with ⟨mc, hMem, rfl⟩
  rcases
      foldl_at (view mc.path) (startMount cfg)
        MountConfig.path
        (fun t entry hOther =>
          view_registerMount_other t _ (Ne.symm hOther))
        hNodup hMem s with
    ⟨t, hBefore, hAfter⟩
  refine ⟨t.nextMount, ?_⟩
  rw [hAfter, ← hBefore]
  exact view_registerMount_self t (mountInfo mc) _

theorem view_startMounts_of_not_mem
    (cfg : Config)
    {entries : List MountConfig}
    {path : String}
    (hNot : path ∉ entries.map MountConfig.path)
    (s : ServerState) :
    (entries.foldl (startMount cfg) s).view path =
      s.view path := by
  apply foldl_frame
  intro t mc hMem
  apply view_registerMount_other t
  intro hPath
  exact hNot (hPath ▸ List.mem_map_of_mem hMem)

/- Starting the entries of a task section. -/
theorem view_startEntries_of_mem {Entry : Type}
    (sec : TaskSection Entry)
    (cfg : Config)
    {entries : List Entry}
    (hNodup : (entries.map sec.path).Nodup)
    {entry : Entry}
    (hMem : entry ∈ entries)
    (s : ServerState) :
    ∃ t : ServerState,
      t.view (sec.path entry) = s.view (sec.path entry) ∧
        (entries.foldl (startEntry sec cfg) s).view
            (sec.path entry) =
          (startEntry sec cfg t entry).view
            (sec.path entry) :=
  foldl_at (view (sec.path entry)) (startEntry sec cfg)
    sec.path
    (fun t _ hOther =>
      view_startEntry_other sec cfg t (Ne.symm hOther))
    hNodup hMem s

theorem view_startEntries_of_not_mem {Entry : Type}
    (sec : TaskSection Entry)
    (cfg : Config)
    {entries : List Entry}
    {path : String}
    (hNot : path ∉ entries.map sec.path)
    (s : ServerState) :
    (entries.foldl (startEntry sec cfg) s).view path =
      s.view path := by
  apply foldl_frame
  intro t entry hMem
  apply view_startEntry_other
  intro hPath
  exact hNot (hPath ▸ List.mem_map_of_mem hMem)

/- A path the new plain section lists. -/
theorem view_diffMounts_listed
    (olds : List MountConfig)
    {news : List MountConfig}
    (hNodup : (news.map MountConfig.path).Nodup)
    (cfg : Config)
    (s : ServerState)
    {path : String}
    (hListed : path ∈ news.map MountConfig.path) :
    ∃ mount,
      (diffMounts olds news cfg s).view path =
          (s.view path).withMount (some mount) ∧
        ∀ old, s.mounts path = some old → mount = old := by
  rcases List.mem_map.mp hListed with ⟨mc, hMem, rfl⟩
  rcases
      foldl_at (view mc.path) (applyMount cfg)
        MountConfig.path
        (fun t entry hOther =>
          view_applyMount_other cfg t (Ne.symm hOther))
        hNodup hMem s with
    ⟨t, hBefore, hAfter⟩
  rcases view_applyMount_self cfg t mc with
    ⟨mount, hView, hSame⟩
  refine ⟨mount, ?_, ?_⟩
  · unfold diffMounts
    rw [foldl_frame (view mc.path), hAfter, hView, hBefore]
    intro u old _
    exact view_dropMount_other _ u (.inr hListed)
  · intro old hOld
    apply hSame
    have hMounts := congrArg PathView.mount hBefore
    exact hMounts.trans hOld

/- A path the new plain section does not list. -/
theorem view_diffMounts_unlisted
    {olds news : List MountConfig}
    (hNodup : (olds.map MountConfig.path).Nodup)
    (cfg : Config)
    (s : ServerState)
    {path : String}
    (hUnlisted : path ∉ news.map MountConfig.path) :
    (diffMounts olds news cfg s).view path =
      if path ∈ olds.map MountConfig.path then
        (s.view path).withMount none
      else
        s.view path := by
  have hApply :
      (news.foldl (applyMount cfg) s).view path =
        s.view path := by
    apply foldl_frame
    intro t mc hMem
    apply view_applyMount_other
    intro hPath
    exact hUnlisted (hPath ▸ List.mem_map_of_mem hMem)
  unfold diffMounts
  split
  · rename_i hOld
    rcases List.mem_map.mp hOld with ⟨old, hMem, rfl⟩
    rcases
        foldl_at (view old.path)
          (dropMount (news.map MountConfig.path))
          MountConfig.path
          (fun t _ hOther =>
            view_dropMount_other _ t (.inl (Ne.symm hOther)))
          hNodup hMem
          (news.foldl (applyMount cfg) s) with
      ⟨t, hBefore, hAfter⟩
    rw [hAfter, view_dropMount_self t hUnlisted, hBefore,
      hApply]
  · rename_i hNot
    rw [foldl_frame (view path), hApply]
    intro t old hMem
    apply view_dropMount_other
    apply Or.inl
    intro hPath
    exact hNot (hPath ▸ List.mem_map_of_mem hMem)

/- A path the new task section lists. -/
theorem view_diffEntries_listed {Entry : Type}
    (sec : TaskSection Entry)
    (olds : List Entry)
    {news : List Entry}
    (hNodup : (news.map sec.path).Nodup)
    (cfg : Config)
    (s : ServerState)
    {new : Entry}
    (hMem : new ∈ news) :
    ∃ t : ServerState,
      t.view (sec.path new) = s.view (sec.path new) ∧
        (diffEntries sec olds news cfg s).view
            (sec.path new) =
          (applyEntry sec olds cfg t new).view
            (sec.path new) := by
  have hDrop :
      (olds.foldl (dropEntry sec (news.map sec.path)) s).view
          (sec.path new) =
        s.view (sec.path new) := by
    apply foldl_frame
    intro t old _
    apply view_dropEntry_other
    exact .inr (List.mem_map_of_mem hMem)
  rcases
      foldl_at (view (sec.path new))
        (applyEntry sec olds cfg) sec.path
        (fun t _ hOther =>
          view_applyEntry_other sec olds cfg t
            (Ne.symm hOther))
        hNodup hMem
        (olds.foldl (dropEntry sec (news.map sec.path)) s)
    with ⟨t, hBefore, hAfter⟩
  exact ⟨t, hBefore.trans hDrop, hAfter⟩

/- A path the new task section does not list. -/
theorem view_diffEntries_unlisted {Entry : Type}
    (sec : TaskSection Entry)
    {olds news : List Entry}
    (hNodup : (olds.map sec.path).Nodup)
    (cfg : Config)
    (s : ServerState)
    {path : String}
    (hUnlisted : path ∉ news.map sec.path) :
    (diffEntries sec olds news cfg s).view path =
      if path ∈ olds.map sec.path then
        ((s.view path).withTask sec.kind none).withMount none
      else
        s.view path := by
  have hApply :
      ∀ t : ServerState,
        (news.foldl (applyEntry sec olds cfg) t).view path =
          t.view path := by
    intro t
    apply foldl_frame
    intro u new hMem
    apply view_applyEntry_other
    intro hPath
    exact hUnlisted (hPath ▸ List.mem_map_of_mem hMem)
  unfold diffEntries
  rw [hApply]
  split
  · rename_i hOld
    rcases List.mem_map.mp hOld with ⟨old, hMem, rfl⟩
    rcases
        foldl_at (view (sec.path old))
          (dropEntry sec (news.map sec.path)) sec.path
          (fun t _ hOther =>
            view_dropEntry_other sec _ t
              (.inl (Ne.symm hOther)))
          hNodup hMem s with
      ⟨t, hBefore, hAfter⟩
    rw [hAfter, view_dropEntry_self sec t hUnlisted,
      hBefore]
  · rename_i hNot
    apply foldl_frame
    intro t old hMem
    apply view_dropEntry_other
    apply Or.inl
    intro hPath
    exact hNot (hPath ▸ List.mem_map_of_mem hMem)

end RustyIce
