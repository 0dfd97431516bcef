import RustyIce.Server.SourceProtocol

/-
  What a server should have at a path under a configuration,
  and that the server `main` builds has it, before and after
  sources arrive on paths nobody registered.

  Main declarations:
    * `Config.Runs`, `Config.Sections`
    * `PathAgrees`
    * `bootstrap_pathAgrees`
    * `PathAgrees.startDynamics`
    * `config_bootstrap`, `auth_bootstrap`
-/

------------------------------------------------------------
-- Sections Of A Valid Configuration
------------------------------------------------------------

namespace RustyIce

/- The enabled entries of a task section. -/
def TaskSection.Runs {Entry : Type}
    (sec : TaskSection Entry)
    (entries : List Entry)
    (path : String) : Prop :=
  ∃ entry ∈ entries,
    sec.path entry = path ∧ sec.enabled entry = true

namespace Config

/- The task a configuration wants at a path. -/
def Runs
    (cfg : Config)
    (kind : TaskKind)
    (path : String) : Prop :=
  match kind with
  | .autodj => autodjSection.Runs cfg.autodjs path
  | .relay => relaySection.Runs cfg.relays path

/- The three sections of a valid configuration. -/
structure Sections (cfg : Config) : Prop where
  mounts : cfg.mountPaths.Nodup
  autodjs : cfg.autodjPaths.Nodup
  relays : cfg.relayPaths.Nodup
  mount_autodj :
    ∀ path ∈ cfg.mountPaths, path ∉ cfg.autodjPaths
  mount_relay :
    ∀ path ∈ cfg.mountPaths, path ∉ cfg.relayPaths
  autodj_relay :
    ∀ path ∈ cfg.autodjPaths, path ∉ cfg.relayPaths

theorem sections_of_valid
    {cfg : Config}
    (hValid : cfg.validatePaths = .ok ()) :
    cfg.Sections := by
  have hNodup := (validatePaths_ok_iff cfg).mp hValid |>.1
  simp only [allPaths, List.nodup_append, List.mem_append]
    at hNodup
  rcases hNodup with
    ⟨⟨hMounts, hAutodjs, hApart⟩, hRelays, hApart'⟩
  exact
    { mounts := hMounts
      autodjs := hAutodjs
      relays := hRelays
      mount_autodj := fun path hMount hAutodj =>
        hApart path hMount path hAutodj rfl
      mount_relay := fun path hMount hRelay =>
        hApart' path (.inl hMount) path hRelay rfl
      autodj_relay := fun path hAutodj hRelay =>
        hApart' path (.inr hAutodj) path hRelay rfl }

theorem mem_allPaths
    (cfg : Config)
    (path : String) :
    path ∈ cfg.allPaths ↔
      path ∈ cfg.mountPaths ∨ path ∈ cfg.autodjPaths ∨
        path ∈ cfg.relayPaths := by
  simp [allPaths]

end Config

/- No entry at a path, no task wanted there. -/
theorem TaskSection.not_runs {Entry : Type}
    {sec : TaskSection Entry}
    {entries : List Entry}
    {path : String}
    (hNone : path ∉ entries.map sec.path) :
    ¬ sec.Runs entries path := by
  rintro ⟨entry, hEntry, rfl, _⟩
  exact hNone (List.mem_map_of_mem hEntry)

/- The entry at a path decides, when paths are unique. -/
theorem TaskSection.runs_iff {Entry : Type}
    (sec : TaskSection Entry)
    {entries : List Entry}
    (hNodup : (entries.map sec.path).Nodup)
    {entry : Entry}
    (hEntry : entry ∈ entries) :
    sec.Runs entries (sec.path entry) ↔
      sec.enabled entry = true := by
  constructor
  · rintro ⟨other, hOther, hPath, hEnabled⟩
    have hSame : other = entry :=
      List.inj_on_of_nodup_map hNodup hOther hEntry hPath
    rw [← hSame]
    exact hEnabled
  · intro hEnabled
    exact ⟨entry, hEntry, rfl, hEnabled⟩

end RustyIce

------------------------------------------------------------
-- Agreement At One Path
------------------------------------------------------------

namespace RustyIce

/-
  What a server should have at a path: a mount if and only
  if the path is configured or dynamic, a task if and only
  if one is configured and enabled, and each task on the
  registered mount.
-/
structure PathAgrees
    (cfg : Config)
    (dynamics : List String)
    (path : String)
    (v : PathView) : Prop where
  registered :
    v.mount.isSome = true ↔
      path ∈ cfg.allPaths ∨ path ∈ dynamics
  running :
    ∀ kind,
      (v.tasks kind).isSome = true ↔ cfg.Runs kind path
  attached :
    ∀ kind entry,
      v.tasks kind = some entry →
        v.mount = some entry.mount

namespace PathAgrees

variable {cfg : Config}
variable {dynamics : List String}
variable {path : String}
variable {v : PathView}

/- No task is wanted at a path: none is there. -/
theorem tasks_eq_none
    (hAgrees : PathAgrees cfg dynamics path v)
    (kind : TaskKind)
    (hNot : ¬ cfg.Runs kind path) :
    v.tasks kind = none := by
  cases hTask : v.tasks kind with
  | none => rfl
  | some entry =>
      have hRuns := (hAgrees.running kind).mp (by
        rw [hTask]
        rfl)
      exact absurd hRuns hNot

end PathAgrees

end RustyIce

------------------------------------------------------------
-- Building Agreement
------------------------------------------------------------

namespace RustyIce

namespace PathAgrees

variable {cfg : Config}
variable {dynamics : List String}
variable {path : String}
variable {v : PathView}

/- A path without tasks: only the mount is to be compared. -/
theorem of_untasked
    (hMount :
      v.mount.isSome = true ↔
        path ∈ cfg.allPaths ∨ path ∈ dynamics)
    (hTasks : ∀ kind, v.tasks kind = none)
    (hRuns : ∀ kind, ¬ cfg.Runs kind path) :
    PathAgrees cfg dynamics path v where
  registered := hMount
  running := by
    intro kind
    rw [hTasks kind]
    simp [hRuns kind]
  attached := by
    intro kind entry hEntry
    rw [hTasks kind] at hEntry
    cases hEntry

/- A path of a task section: its own task is compared. -/
theorem of_section
    (kind : TaskKind)
    {mount : MountId}
    (hListed : path ∈ cfg.allPaths)
    (hMount : v.mount = some mount)
    (hTask :
      (v.tasks kind).isSome = true ↔ cfg.Runs kind path)
    (hAttached :
      ∀ entry, v.tasks kind = some entry →
        entry.mount = mount)
    (hOther :
      ∀ k, k ≠ kind →
        v.tasks k = none ∧ ¬ cfg.Runs k path) :
    PathAgrees cfg dynamics path v where
  registered := by
    rw [hMount]
    simp [hListed]
  running := by
    intro k
    by_cases hKind : k = kind
    · rw [hKind]
      exact hTask
    · rcases hOther k hKind with ⟨hNone, hNot⟩
      rw [hNone]
      simp [hNot]
  attached := by
    intro k entry hEntry
    by_cases hKind : k = kind
    · rw [hKind] at hEntry
      rw [hMount, hAttached entry hEntry]
    · rw [(hOther k hKind).1] at hEntry
      cases hEntry

end PathAgrees

namespace Config

variable {cfg : Config}
variable {path : String}

theorem Sections.not_runs_mount
    (hSections : cfg.Sections)
    (hListed : path ∈ cfg.mountPaths)
    (kind : TaskKind) :
    ¬ cfg.Runs kind path := by
  cases kind with
  | autodj =>
      exact TaskSection.not_runs
        (hSections.mount_autodj path hListed)
  | relay =>
      exact TaskSection.not_runs
        (hSections.mount_relay path hListed)

theorem not_runs_unlisted
    (hUnlisted : path ∉ cfg.allPaths)
    (kind : TaskKind) :
    ¬ cfg.Runs kind path := by
  rw [mem_allPaths, not_or, not_or] at hUnlisted
  cases kind with
  | autodj => exact TaskSection.not_runs hUnlisted.2.1
  | relay => exact TaskSection.not_runs hUnlisted.2.2

end Config

end RustyIce

------------------------------------------------------------
-- The Server Main Builds
------------------------------------------------------------

namespace RustyIce

open ServerState

/- The view of a server before any mount is registered. -/
theorem view_emptyServer
    (cfg : Config)
    (path : String) :
    (emptyServer cfg).view path =
      { mount := none
        tasks := fun _ => none } := rfl

/-
  An entry of a task section, started on a path with neither
  mount nor task.
-/
theorem pathAgrees_startEntry {Entry : Type}
    (sec : TaskSection Entry)
    {cfg : Config}
    {s : ServerState}
    {entry : Entry}
    (hListed : sec.path entry ∈ cfg.allPaths)
    (hRuns :
      cfg.Runs sec.kind (sec.path entry) ↔
        sec.enabled entry = true)
    (hOther :
      ∀ k, k ≠ sec.kind → ¬ cfg.Runs k (sec.path entry))
    (hBefore :
      s.view (sec.path entry) =
        { mount := none
          tasks := fun _ => none }) :
    PathAgrees cfg [] (sec.path entry)
      ((startEntry sec cfg s entry).view
        (sec.path entry)) := by
  rcases view_startEntry_self sec cfg s entry with
    ⟨mount, token, hView⟩
  rw [hView, hBefore]
  by_cases hEnabled : sec.enabled entry = true
  · simp only [hEnabled, if_true]
    refine
      PathAgrees.of_section sec.kind hListed rfl
        ?_ ?_ ?_
    · rw [hRuns]
      simp [hEnabled]
    · intro started hStarted
      simp only [PathView.withTask_tasks, if_true,
        Option.some.injEq] at hStarted
      rw [← hStarted]
    · intro k hKind
      exact ⟨by simp [hKind], hOther k hKind⟩
  · simp only [hEnabled, Bool.false_eq_true, if_false]
    refine
      PathAgrees.of_section sec.kind hListed rfl
        ?_ ?_ ?_
    · rw [hRuns]
      simp [hEnabled]
    · intro started hStarted
      cases hStarted
    · intro k hKind
      exact ⟨rfl, hOther k hKind⟩

/- The server `main` builds agrees with its configuration. -/
theorem bootstrap_pathAgrees
    {cfg : Config}
    (hValid : cfg.validatePaths = .ok ())
    (path : String) :
    PathAgrees cfg [] path ((bootstrap cfg).view path) := by
  have hSections := Config.sections_of_valid hValid
  unfold bootstrap
  by_cases hRelay : path ∈ cfg.relayPaths
  · rcases List.mem_map.mp hRelay with ⟨rc, hMem, rfl⟩
    have hMount : rc.mount ∉ cfg.mountPaths := fun h =>
      hSections.mount_relay _ h hRelay
    have hAutodj : rc.mount ∉ cfg.autodjPaths := fun h =>
      hSections.autodj_relay _ h hRelay
    rcases
        view_startEntries_of_mem relaySection cfg
          hSections.relays hMem
          (cfg.autodjs.foldl (startEntry autodjSection cfg)
            (cfg.mounts.foldl (startMount cfg)
              (emptyServer cfg))) with
      ⟨t, hBefore, hAfter⟩
    have hEmpty :=
      hBefore.trans
        ((view_startEntries_of_not_mem autodjSection cfg
          hAutodj _).trans
          (view_startMounts_of_not_mem cfg hMount _))
    have hAgrees :=
      pathAgrees_startEntry relaySection
        ((cfg.mem_allPaths _).mpr (.inr (.inr hRelay)))
        (relaySection.runs_iff hSections.relays hMem)
        (by
          intro k hKind
          cases k with
          | autodj => exact TaskSection.not_runs hAutodj
          | relay => exact absurd rfl hKind)
        hEmpty
    rw [← hAfter] at hAgrees
    exact hAgrees
  · rw [view_startEntries_of_not_mem relaySection cfg hRelay]
    by_cases hAutodj : path ∈ cfg.autodjPaths
    · rcases List.mem_map.mp hAutodj with ⟨ac, hMem, rfl⟩
      have hMount : ac.mount ∉ cfg.mountPaths := fun h =>
        hSections.mount_autodj _ h hAutodj
      rcases
          view_startEntries_of_mem autodjSection cfg
            hSections.autodjs hMem
            (cfg.mounts.foldl (startMount cfg)
              (emptyServer cfg)) with
        ⟨t, hBefore, hAfter⟩
      have hEmpty :=
        hBefore.trans
          (view_startMounts_of_not_mem cfg hMount _)
      have hAgrees :=
        pathAgrees_startEntry autodjSection
          ((cfg.mem_allPaths _).mpr (.inr (.inl hAutodj)))
          (autodjSection.runs_iff hSections.autodjs hMem)
          (by
            intro k hKind
            cases k with
            | autodj => exact absurd rfl hKind
            | relay => exact TaskSection.not_runs hRelay)
          hEmpty
      rw [← hAfter] at hAgrees
      exact hAgrees
    · rw [view_startEntries_of_not_mem autodjSection cfg
        hAutodj]
      by_cases hMount : path ∈ cfg.mountPaths
      · rcases
            view_startMounts_of_mem cfg hSections.mounts
              hMount (emptyServer cfg) with
          ⟨mount, hView⟩
        rw [hView, view_emptyServer]
        refine PathAgrees.of_untasked ?_ ?_ ?_
        · simp [Config.mem_allPaths, hMount]
        · intro kind
          rfl
        · exact hSections.not_runs_mount hMount
      · rw [view_startMounts_of_not_mem cfg hMount,
          view_emptyServer]
        have hUnlisted : path ∉ cfg.allPaths := by
          simp [Config.mem_allPaths, hMount, hAutodj, hRelay]
        refine PathAgrees.of_untasked ?_ ?_ ?_
        · simp [hUnlisted]
        · intro kind
          rfl
        · exact Config.not_runs_unlisted hUnlisted

end RustyIce

------------------------------------------------------------
-- Dynamic Mounts
------------------------------------------------------------

namespace RustyIce

open Library.Keyed ServerState

/- Sources arrive on paths nobody registered. -/
def startDynamics
    (dynamics : List (String × CodecId))
    (s : ServerState) : ServerState :=
  dynamics.foldl
    (fun s d => s.createDynamicMount d.1 d.2) s

theorem view_startDynamics_of_not_mem
    {dynamics : List (String × CodecId)}
    {path : String}
    (hNot : path ∉ dynamics.map Prod.fst)
    (s : ServerState) :
    (startDynamics dynamics s).view path = s.view path := by
  apply foldl_frame
  intro t d hMem
  apply view_createDynamicMount_other
  intro hPath
  exact hNot (hPath ▸ List.mem_map_of_mem hMem)

theorem view_startDynamics_of_mem
    {dynamics : List (String × CodecId)}
    {path : String}
    (hMem : path ∈ dynamics.map Prod.fst)
    (s : ServerState) :
    ∃ mount,
      (startDynamics dynamics s).view path =
        (s.view path).withMount (some mount) := by
  induction dynamics generalizing s with
  | nil => cases hMem
  | cons d dynamics ih =>
      by_cases hLater : path ∈ dynamics.map Prod.fst
      · rcases ih hLater (s.createDynamicMount d.1 d.2) with
          ⟨mount, hView⟩
        refine ⟨mount, hView.trans ?_⟩
        by_cases hPath : path = d.1
        · rw [hPath, view_createDynamicMount_self]
          rfl
        · rw [view_createDynamicMount_other _ _ hPath]
      · have hPath : path = d.1 := by
          rw [List.map_cons, List.mem_cons] at hMem
          exact hMem.resolve_right hLater
        refine ⟨s.nextMount, ?_⟩
        have hRest :=
          view_startDynamics_of_not_mem hLater
            (s.createDynamicMount d.1 d.2)
        refine hRest.trans ?_
        rw [hPath]
        exact view_createDynamicMount_self s d.1 d.2

/- Dynamic mounts on unlisted paths keep agreement. -/
theorem PathAgrees.startDynamics
    {cfg : Config}
    {dynamics : List (String × CodecId)}
    {path : String}
    {s : ServerState}
    (hAgrees : PathAgrees cfg [] path (s.view path))
    (hApart :
      ∀ p ∈ dynamics.map Prod.fst, p ∉ cfg.allPaths) :
    PathAgrees cfg (dynamics.map Prod.fst) path
      ((startDynamics dynamics s).view path) := by
  by_cases hMem : path ∈ dynamics.map Prod.fst
  · rcases view_startDynamics_of_mem hMem s with
      ⟨mount, hView⟩
    have hRuns :=
      Config.not_runs_unlisted (hApart path hMem)
    rw [hView]
    refine PathAgrees.of_untasked ?_ ?_ hRuns
    · simp only [PathView.withMount_mount,
        Option.isSome_some, true_iff]
      exact .inr hMem
    · intro kind
      exact hAgrees.tasks_eq_none kind (hRuns kind)
  · rw [view_startDynamics_of_not_mem hMem]
    exact
      { registered := by
          have hRegistered := hAgrees.registered
          simp only [List.not_mem_nil, or_false]
            at hRegistered
          simp only [hMem, or_false]
          exact hRegistered
        running := hAgrees.running
        attached := hAgrees.attached }

end RustyIce

------------------------------------------------------------
-- Configuration And Credentials
------------------------------------------------------------

namespace RustyIce

open Library.Keyed

namespace ServerState

/- What the registry and task operations leave alone. -/
def settings (s : ServerState) : Config × TomlBcryptAuth :=
  (s.config, s.auth)

theorem settings_swapInfo
    (s : ServerState)
    (path : String)
    (change : MountInfo → MountInfo) :
    (s.swapInfo path change).settings = s.settings := by
  unfold swapInfo
  split
  · rfl
  · rfl

theorem settings_cancelTask
    (s : ServerState)
    (kind : TaskKind)
    (path : String) :
    (s.cancelTask kind path).settings = s.settings := by
  unfold cancelTask
  split
  · rfl
  · rfl

theorem settings_spawnTask
    (s : ServerState)
    (kind : TaskKind)
    (path : String)
    (cfg : TaskConfig) :
    (s.spawnTask kind path cfg).settings = s.settings := by
  unfold spawnTask
  split
  · rfl
  · rfl

end ServerState

open ServerState

theorem settings_startEntry {Entry : Type}
    (sec : TaskSection Entry)
    (cfg : Config)
    (s : ServerState)
    (entry : Entry) :
    (startEntry sec cfg s entry).settings = s.settings := by
  unfold startEntry
  split
  · exact settings_spawnTask _ _ _ _
  · rfl

theorem settings_bootstrap (cfg : Config) :
    (bootstrap cfg).settings = (cfg, .new cfg) := by
  unfold bootstrap
  rw [foldl_frame settings _ _
      (fun s entry _ => settings_startEntry _ _ s entry),
    foldl_frame settings _ _
      (fun s entry _ => settings_startEntry _ _ s entry),
    foldl_frame settings (startMount cfg) _
      (fun _ _ _ => rfl)]
  rfl

theorem config_bootstrap (cfg : Config) :
    (bootstrap cfg).config = cfg :=
  congrArg Prod.fst (settings_bootstrap cfg)

theorem auth_bootstrap (cfg : Config) :
    (bootstrap cfg).auth = .new cfg :=
  congrArg Prod.snd (settings_bootstrap cfg)

theorem config_startDynamics
    (dynamics : List (String × CodecId))
    (s : ServerState) :
    (startDynamics dynamics s).config = s.config := by
  unfold startDynamics
  apply foldl_frame
  intro t d _
  rfl

end RustyIce
