import RustyIce.Server.PathAgreement

/-
  Applying a configuration to a running server, compared
  with starting a server from that configuration.

  Everything is read off one path at a time: what each
  section of the reload does to one path, hence what the
  whole reload does, and from the agreement of every path
  the agreement of the servers.

  Main declarations:
    * `sectionAfter_diffEntries`
    * `PathKept`, `applied_pathAgrees`
    * `view_applied_again`
    * `Reload`, `Reload.Agrees`
    * `hotReload_agrees_iff`
-/

------------------------------------------------------------
-- One Section Of A Reload
------------------------------------------------------------

namespace RustyIce

open ServerState

/-
  What a task section has at the path of a new entry before
  its diff: if the old section listed the path, a mount, the
  old entry's task, and this task on this mount.
-/
structure SectionBefore {Entry : Type}
    (sec : TaskSection Entry)
    (olds : List Entry)
    (path : String)
    (v : PathView) : Prop where
  mount : v.mount.isSome = true
  running :
    (v.tasks sec.kind).isSome = true ↔ sec.Runs olds path
  attached :
    ∀ entry,
      v.tasks sec.kind = some entry →
        v.mount = some entry.mount

/- What the section has there after its diff. -/
structure SectionAfter {Entry : Type}
    (sec : TaskSection Entry)
    (new : Entry)
    (before after : PathView) : Prop where
  mount : ∃ mount,
    after.mount = some mount ∧
      ∀ entry,
        after.tasks sec.kind = some entry →
          entry.mount = mount
  running :
    (after.tasks sec.kind).isSome = true ↔
      sec.enabled new = true
  others :
    ∀ k, k ≠ sec.kind → after.tasks k = before.tasks k

/-
  The diff of a section serves every new entry that is
  enabled or was listed before.
-/
theorem sectionAfter_diffEntries {Entry : Type}
    (sec : TaskSection Entry)
    {olds news : List Entry}
    (hOlds : (olds.map sec.path).Nodup)
    (hNews : (news.map sec.path).Nodup)
    (cfg : Config)
    {s : ServerState}
    {new : Entry}
    (hMem : new ∈ news)
    (hKept :
      sec.path new ∈ olds.map sec.path ∨
        sec.enabled new = true)
    (hBefore :
      sec.path new ∈ olds.map sec.path →
        SectionBefore sec olds (sec.path new)
          (s.view (sec.path new))) :
    SectionAfter sec new (s.view (sec.path new))
      ((diffEntries sec olds news cfg s).view
        (sec.path new)) := by
  rcases view_diffEntries_listed sec olds hNews cfg s hMem
    with ⟨t, hSame, hAfter⟩
  rw [hAfter]
  cases hRespawn : needsRespawn sec olds new with
  | true =>
      rcases view_applyEntry_respawn sec olds cfg t hRespawn
        with ⟨mount, token, hView, _⟩
      rw [hView, hSame]
      constructor
      · refine ⟨mount, rfl, ?_⟩
        intro entry hEntry
        simp only [PathView.withTask_tasks, if_true]
          at hEntry
        split at hEntry
        · cases hEntry
          rfl
        · cases hEntry
      · simp only [PathView.withTask_tasks, if_true]
        split
        · rename_i hEnabled
          simp [hEnabled]
        · rename_i hEnabled
          simp [hEnabled]
      · intro k hKind
        simp [hKind]
  | false =>
      rw [view_applyEntry_keep sec olds cfg t hRespawn, hSame]
      unfold needsRespawn at hRespawn
      cases hFind :
          olds.find? fun old => sec.path old = sec.path new with
      | none =>
          -- A new entry without a task: neither listed
          -- before nor enabled.
          rw [hFind] at hRespawn
          rw [List.find?_eq_none] at hFind
          exfalso
          rcases hKept with hOld | hEnabled
          · rcases List.mem_map.mp hOld with
              ⟨old, hOldMem, hPath⟩
            exact hFind old hOldMem (by simpa using hPath)
          · rw [hEnabled] at hRespawn
            cases hRespawn
      | some old =>
          rw [hFind] at hRespawn
          have hOldMem := List.mem_of_find?_eq_some hFind
          have hPath : sec.path old = sec.path new := by
            simpa using List.find?_some hFind
          have hEnabled :=
            sec.changed_enabled old new hRespawn
          have hListed :
              sec.path new ∈ olds.map sec.path :=
            hPath ▸ List.mem_map_of_mem hOldMem
          have hSection := hBefore hListed
          rcases Option.isSome_iff_exists.mp hSection.mount
            with ⟨mount, hMount⟩
          constructor
          · refine ⟨mount, hMount, ?_⟩
            intro entry hEntry
            have hOn := hSection.attached entry hEntry
            rw [hMount] at hOn
            exact (Option.some.inj hOn).symm
          · rw [hSection.running, ← hEnabled, ← hPath]
            exact sec.runs_iff hOlds hOldMem
          · intro k _
            rfl

/-
  A new entry that is neither enabled nor was listed before
  leaves its path alone.
-/
theorem view_diffEntries_disabled {Entry : Type}
    (sec : TaskSection Entry)
    {olds news : List Entry}
    (hNews : (news.map sec.path).Nodup)
    (cfg : Config)
    (s : ServerState)
    {new : Entry}
    (hMem : new ∈ news)
    (hNew : sec.path new ∉ olds.map sec.path)
    (hDisabled : sec.enabled new = false) :
    (diffEntries sec olds news cfg s).view (sec.path new) =
      s.view (sec.path new) := by
  rcases view_diffEntries_listed sec olds hNews cfg s hMem
    with ⟨t, hSame, hAfter⟩
  have hKeep : needsRespawn sec olds new = false := by
    unfold needsRespawn
    cases hFind :
        olds.find? fun old => sec.path old = sec.path new with
    | none => exact hDisabled
    | some old =>
        have hOldMem := List.mem_of_find?_eq_some hFind
        have hPath : sec.path old = sec.path new := by
          simpa using List.find?_some hFind
        exact absurd
          (hPath ▸ List.mem_map_of_mem hOldMem) hNew
  rw [hAfter, view_applyEntry_keep sec olds cfg t hKeep,
    hSame]

end RustyIce

------------------------------------------------------------
-- A Whole Reload At One Path
------------------------------------------------------------

namespace RustyIce

open ServerState

/-
  The moves a reload carries out: no path goes from a task
  section to the plain one or from the relays to the
  rotations, and an entry new to its task section is
  enabled.
-/
structure PathKept
    (old new : Config)
    (path : String) : Prop where
  plain :
    path ∈ new.mountPaths →
      path ∉ old.autodjPaths ∧ path ∉ old.relayPaths
  autodj :
    path ∈ new.autodjPaths →
      path ∉ old.relayPaths ∧
        (path ∈ old.autodjPaths ∨ new.Runs .autodj path)
  relay :
    path ∈ new.relayPaths →
      path ∈ old.relayPaths ∨ new.Runs .relay path

/- The server after the plain mounts were compared. -/
def mountsApplied
    (new : Config)
    (s : ServerState) : ServerState :=
  diffMounts s.config.mounts new.mounts new
    { s with auth := .new new }

/- The server after the rotations were compared as well. -/
def autodjsApplied
    (new : Config)
    (s : ServerState) : ServerState :=
  diffEntries autodjSection s.config.autodjs new.autodjs new
    (mountsApplied new s)

theorem view_applied
    (new : Config)
    (s : ServerState)
    (path : String) :
    (applied new s).view path =
      (diffEntries relaySection s.config.relays new.relays
        new (autodjsApplied new s)).view path := rfl

section AppliedView

variable {new : Config}
variable {s : ServerState}
variable {path : String}

theorem view_mountsApplied_listed
    (hNew : new.mountPaths.Nodup)
    (hListed : path ∈ new.mountPaths) :
    ∃ mount,
      (mountsApplied new s).view path =
        (s.view path).withMount (some mount) := by
  rcases
      view_diffMounts_listed s.config.mounts hNew new
        { s with auth := .new new } hListed with
    ⟨mount, hView, _⟩
  exact ⟨mount, hView⟩

theorem view_mountsApplied_unlisted
    (hOld : s.config.mountPaths.Nodup)
    (hUnlisted : path ∉ new.mountPaths) :
    (mountsApplied new s).view path =
      if path ∈ s.config.mountPaths then
        (s.view path).withMount none
      else
        s.view path :=
  view_diffMounts_unlisted hOld new
    { s with auth := .new new } hUnlisted

theorem view_autodjsApplied_unlisted
    (hOld : s.config.autodjPaths.Nodup)
    (hUnlisted : path ∉ new.autodjPaths) :
    (autodjsApplied new s).view path =
      if path ∈ s.config.autodjPaths then
        (((mountsApplied new s).view path).withTask .autodj
          none).withMount none
      else
        (mountsApplied new s).view path :=
  view_diffEntries_unlisted autodjSection hOld new
    (mountsApplied new s) hUnlisted

theorem view_applied_unlisted
    (hOld : s.config.relayPaths.Nodup)
    (hUnlisted : path ∉ new.relayPaths) :
    (applied new s).view path =
      if path ∈ s.config.relayPaths then
        (((autodjsApplied new s).view path).withTask .relay
          none).withMount none
      else
        (autodjsApplied new s).view path :=
  view_diffEntries_unlisted relaySection hOld new
    (autodjsApplied new s) hUnlisted

end AppliedView

/- What the old configuration left at a task's path. -/
theorem PathAgrees.sectionBefore_autodj
    {cfg : Config}
    {dynamics : List String}
    {path : String}
    {v : PathView}
    (hAgrees : PathAgrees cfg dynamics path v)
    (hListed : path ∈ cfg.autodjPaths) :
    SectionBefore autodjSection cfg.autodjs path v where
  mount :=
    hAgrees.registered.mpr
      (.inl ((cfg.mem_allPaths path).mpr
        (.inr (.inl hListed))))
  running := hAgrees.running .autodj
  attached := hAgrees.attached .autodj

theorem PathAgrees.sectionBefore_relay
    {cfg : Config}
    {dynamics : List String}
    {path : String}
    {v : PathView}
    (hAgrees : PathAgrees cfg dynamics path v)
    (hListed : path ∈ cfg.relayPaths) :
    SectionBefore relaySection cfg.relays path v where
  mount :=
    hAgrees.registered.mpr
      (.inl ((cfg.mem_allPaths path).mpr
        (.inr (.inr hListed))))
  running := hAgrees.running .relay
  attached := hAgrees.attached .relay

section AppliedAgrees

variable {new : Config}
variable {s : ServerState}
variable {path : String}
variable {dynamics : List String}

/- A path of the new relay section. -/
theorem applied_pathAgrees_relay
    (hOld : s.config.Sections)
    (hNew : new.Sections)
    (hListed : path ∈ new.relayPaths)
    (hKept : PathKept s.config new path)
    (hAgrees :
      PathAgrees s.config dynamics path (s.view path)) :
    PathAgrees new dynamics path
      ((applied new s).view path) := by
  have hMount : path ∉ new.mountPaths := fun h =>
    hNew.mount_relay path h hListed
  have hAutodj : path ∉ new.autodjPaths := fun h =>
    hNew.autodj_relay path h hListed
  have hMounts :=
    view_mountsApplied_unlisted hOld.mounts hMount
  have hAutodjs :=
    view_autodjsApplied_unlisted hOld.autodjs hAutodj
  have hNoTask :
      ((autodjsApplied new s).view path).tasks .autodj =
        none := by
    rw [hAutodjs]
    by_cases hMoved : path ∈ s.config.autodjPaths
    · rw [if_pos hMoved]
      simp
    · rw [if_neg hMoved, hMounts]
      have hNone :=
        hAgrees.tasks_eq_none .autodj
          (TaskSection.not_runs hMoved)
      split
      · exact hNone
      · exact hNone
  have hBefore :
      path ∈ s.config.relayPaths →
        SectionBefore relaySection s.config.relays path
          ((autodjsApplied new s).view path) := by
    intro hRelay
    have hNotMount : path ∉ s.config.mountPaths := fun h =>
      hOld.mount_relay path h hRelay
    have hNotAutodj : path ∉ s.config.autodjPaths :=
      fun h => hOld.autodj_relay path h hRelay
    rw [hAutodjs, if_neg hNotAutodj, hMounts,
      if_neg hNotMount]
    exact hAgrees.sectionBefore_relay hRelay
  rcases List.mem_map.mp hListed with ⟨rc, hMem, rfl⟩
  have hRuns :
      new.Runs .relay rc.mount ↔ rc.enabled = true :=
    relaySection.runs_iff hNew.relays hMem
  have hAfter :=
    sectionAfter_diffEntries relaySection hOld.relays
      hNew.relays new hMem
      ((hKept.relay hListed).imp_right hRuns.mp) hBefore
  rcases hAfter.mount with ⟨mount, hMountAfter, hAttached⟩
  refine
    PathAgrees.of_section .relay
      ((new.mem_allPaths _).mpr (.inr (.inr hListed)))
      hMountAfter (hAfter.running.trans hRuns.symm)
      hAttached ?_
  intro k hKind
  cases k with
  | relay => exact absurd rfl hKind
  | autodj =>
      exact
        ⟨(hAfter.others .autodj hKind).trans hNoTask,
          TaskSection.not_runs hAutodj⟩

/- A path of the new rotation section. -/
theorem applied_pathAgrees_autodj
    (hOld : s.config.Sections)
    (hNew : new.Sections)
    (hListed : path ∈ new.autodjPaths)
    (hKept : PathKept s.config new path)
    (hAgrees :
      PathAgrees s.config dynamics path (s.view path)) :
    PathAgrees new dynamics path
      ((applied new s).view path) := by
  have hMount : path ∉ new.mountPaths := fun h =>
    hNew.mount_autodj path h hListed
  have hRelay : path ∉ new.relayPaths :=
    hNew.autodj_relay path hListed
  rcases hKept.autodj hListed with ⟨hNotRelay, hServed⟩
  have hMounts :=
    view_mountsApplied_unlisted hOld.mounts hMount
  have hNoTask :
      ((mountsApplied new s).view path).tasks .relay =
        none := by
    have hNone :=
      hAgrees.tasks_eq_none .relay
        (TaskSection.not_runs hNotRelay)
    rw [hMounts]
    split
    · exact hNone
    · exact hNone
  have hBefore :
      path ∈ s.config.autodjPaths →
        SectionBefore autodjSection s.config.autodjs path
          ((mountsApplied new s).view path) := by
    intro hAutodj
    have hNotMount : path ∉ s.config.mountPaths := fun h =>
      hOld.mount_autodj path h hAutodj
    rw [hMounts, if_neg hNotMount]
    exact hAgrees.sectionBefore_autodj hAutodj
  rw [view_applied_unlisted hOld.relays hRelay,
    if_neg hNotRelay]
  rcases List.mem_map.mp hListed with ⟨ac, hMem, rfl⟩
  have hRuns :
      new.Runs .autodj ac.mount ↔ ac.enabled = true :=
    autodjSection.runs_iff hNew.autodjs hMem
  have hAfter :=
    sectionAfter_diffEntries autodjSection hOld.autodjs
      hNew.autodjs new hMem (hServed.imp_right hRuns.mp)
      hBefore
  rcases hAfter.mount with ⟨mount, hMountAfter, hAttached⟩
  refine
    PathAgrees.of_section .autodj
      ((new.mem_allPaths _).mpr (.inr (.inl hListed)))
      hMountAfter (hAfter.running.trans hRuns.symm)
      hAttached ?_
  intro k hKind
  cases k with
  | autodj => exact absurd rfl hKind
  | relay =>
      exact
        ⟨(hAfter.others .relay hKind).trans hNoTask,
          TaskSection.not_runs hRelay⟩

/- A path of the new plain section. -/
theorem applied_pathAgrees_mount
    (hOld : s.config.Sections)
    (hNew : new.Sections)
    (hListed : path ∈ new.mountPaths)
    (hKept : PathKept s.config new path)
    (hAgrees :
      PathAgrees s.config dynamics path (s.view path)) :
    PathAgrees new dynamics path
      ((applied new s).view path) := by
  rcases hKept.plain hListed with ⟨hNotAutodj, hNotRelay⟩
  have hAutodj := hNew.mount_autodj path hListed
  have hRelay := hNew.mount_relay path hListed
  rcases
      view_mountsApplied_listed (s := s) hNew.mounts hListed
    with ⟨mount, hView⟩
  rw [view_applied_unlisted hOld.relays hRelay,
    if_neg hNotRelay,
    view_autodjsApplied_unlisted hOld.autodjs hAutodj,
    if_neg hNotAutodj, hView]
  refine PathAgrees.of_untasked ?_ ?_ ?_
  · simp [Config.mem_allPaths, hListed]
  · intro kind
    apply hAgrees.tasks_eq_none
    cases kind with
    | autodj => exact TaskSection.not_runs hNotAutodj
    | relay => exact TaskSection.not_runs hNotRelay
  · exact hNew.not_runs_mount hListed

/- A path the new configuration does not list. -/
theorem applied_pathAgrees_unlisted
    (hOld : s.config.Sections)
    (hUnlisted : path ∉ new.allPaths)
    (hApart : path ∈ dynamics → path ∉ s.config.allPaths)
    (hAgrees :
      PathAgrees s.config dynamics path (s.view path)) :
    PathAgrees new dynamics path
      ((applied new s).view path) := by
  have hOut := hUnlisted
  rw [Config.mem_allPaths, not_or, not_or] at hOut
  rcases hOut with ⟨hMount, hAutodj, hRelay⟩
  have hMounts :=
    view_mountsApplied_unlisted (s := s) hOld.mounts hMount
  have hAutodjs :=
    view_autodjsApplied_unlisted (s := s) hOld.autodjs
      hAutodj
  have hRelays :=
    view_applied_unlisted (s := s) hOld.relays hRelay
  have hWas := hAgrees.registered
  rw [Config.mem_allPaths] at hWas hApart
  refine
    PathAgrees.of_untasked ?_ ?_
      (Config.not_runs_unlisted hUnlisted)
  · simp only [hUnlisted, false_or]
    by_cases hOldRelay : path ∈ s.config.relayPaths
    · have hNot : path ∉ dynamics := fun h =>
        hApart h (.inr (.inr hOldRelay))
      rw [hRelays, if_pos hOldRelay]
      simp [hNot]
    · rw [hRelays, if_neg hOldRelay]
      by_cases hOldAutodj : path ∈ s.config.autodjPaths
      · have hNot : path ∉ dynamics := fun h =>
          hApart h (.inr (.inl hOldAutodj))
        rw [hAutodjs, if_pos hOldAutodj]
        simp [hNot]
      · rw [hAutodjs, if_neg hOldAutodj, hMounts]
        by_cases hOldMount : path ∈ s.config.mountPaths
        · have hNot : path ∉ dynamics := fun h =>
            hApart h (.inl hOldMount)
          rw [if_pos hOldMount]
          simp [hNot]
        · rw [if_neg hOldMount, hWas]
          simp [hOldMount, hOldAutodj, hOldRelay]
  · -- Each section cancels its own task, or never had one.
    have hKeptTasks :
        ∀ kind,
          ((mountsApplied new s).view path).tasks kind =
            (s.view path).tasks kind := by
      intro kind
      rw [hMounts]
      split
      · rfl
      · rfl
    intro kind
    cases kind with
    | autodj =>
        have hAfter :
            ((applied new s).view path).tasks .autodj =
              ((autodjsApplied new s).view path).tasks
                .autodj := by
          rw [hRelays]
          split
          · simp
          · rfl
        rw [hAfter, hAutodjs]
        split
        · simp
        · rename_i hNot
          rw [hKeptTasks]
          exact hAgrees.tasks_eq_none .autodj
            (TaskSection.not_runs hNot)
    | relay =>
        rw [hRelays]
        split
        · simp
        · rename_i hNot
          have hAfter :
              ((autodjsApplied new s).view path).tasks
                  .relay =
                ((mountsApplied new s).view path).tasks
                  .relay := by
            rw [hAutodjs]
            split
            · simp
            · rfl
          rw [hAfter, hKeptTasks]
          exact hAgrees.tasks_eq_none .relay
            (TaskSection.not_runs hNot)

end AppliedAgrees

/- A reload keeps agreement at a path it carries over. -/
theorem applied_pathAgrees
    {new : Config}
    {s : ServerState}
    {path : String}
    {dynamics : List String}
    (hOld : s.config.Sections)
    (hNew : new.Sections)
    (hKept : PathKept s.config new path)
    (hApart : path ∈ dynamics → path ∉ s.config.allPaths)
    (hAgrees :
      PathAgrees s.config dynamics path (s.view path)) :
    PathAgrees new dynamics path
      ((applied new s).view path) := by
  by_cases hListed : path ∈ new.allPaths
  · rcases (new.mem_allPaths path).mp hListed with
      hMount | hAutodj | hRelay
    · exact applied_pathAgrees_mount hOld hNew hMount hKept
        hAgrees
    · exact applied_pathAgrees_autodj hOld hNew hAutodj
        hKept hAgrees
    · exact applied_pathAgrees_relay hOld hNew hRelay hKept
        hAgrees
  · exact applied_pathAgrees_unlisted hOld hListed hApart
      hAgrees

end RustyIce

------------------------------------------------------------
-- A Reload That Changes Nothing
------------------------------------------------------------

namespace RustyIce

open ServerState

/- A section compared with itself leaves every path alone. -/
theorem view_diffEntries_again {Entry : Type}
    (sec : TaskSection Entry)
    {entries : List Entry}
    (hNodup : (entries.map sec.path).Nodup)
    (cfg : Config)
    (s : ServerState)
    (path : String) :
    (diffEntries sec entries entries cfg s).view path =
      s.view path := by
  by_cases hListed : path ∈ entries.map sec.path
  · rcases List.mem_map.mp hListed with ⟨entry, hMem, rfl⟩
    rcases
        view_diffEntries_listed sec entries hNodup cfg s hMem
      with ⟨t, hSame, hAfter⟩
    have hKeep : needsRespawn sec entries entry = false := by
      unfold needsRespawn
      rw [Library.Keyed.find?_key hNodup hMem rfl]
      exact sec.changed_self entry
    rw [hAfter, view_applyEntry_keep sec entries cfg t hKeep,
      hSame]
  · rw [view_diffEntries_unlisted sec hNodup cfg s hListed,
      if_neg hListed]

/- Applying the running configuration once more. -/
theorem view_applied_again
    {s : ServerState}
    (hSections : s.config.Sections)
    {dynamics : List String}
    {path : String}
    (hAgrees :
      PathAgrees s.config dynamics path (s.view path)) :
    (applied s.config s).view path = s.view path := by
  have hRelays :=
    view_diffEntries_again relaySection hSections.relays
      s.config (autodjsApplied s.config s) path
  have hAutodjs :=
    view_diffEntries_again autodjSection hSections.autodjs
      s.config (mountsApplied s.config s) path
  have hMounts :
      (mountsApplied s.config s).view path =
        s.view path := by
    by_cases hListed : path ∈ s.config.mountPaths
    · rcases
          view_diffMounts_listed s.config.mounts
            hSections.mounts s.config
            { s with auth := .new s.config } hListed with
        ⟨mount, hView, hSame⟩
      have hThere : (s.mounts path).isSome = true :=
        hAgrees.registered.mpr
          (.inl ((Config.mem_allPaths _ _).mpr
            (.inl hListed)))
      rcases Option.isSome_iff_exists.mp hThere with
        ⟨old, hOld⟩
      refine hView.trans ?_
      rw [hSame old hOld, ← hOld]
      rfl
    · rw [view_mountsApplied_unlisted hSections.mounts
        hListed, if_neg hListed]
  rw [view_applied]
  exact hRelays.trans (hAutodjs.trans hMounts)

end RustyIce

------------------------------------------------------------
-- Reload Against Restart
------------------------------------------------------------

namespace RustyIce

open ServerState

/-
  A reload: two valid configurations, and dynamic mounts on
  paths in neither.
-/
structure Reload where
  old : Config
  new : Config
  dynamics : List (String × CodecId)
  oldValid : old.validatePaths = .ok ()
  newValid : new.validatePaths = .ok ()
  apart :
    ∀ path ∈ dynamics.map Prod.fst,
      path ∉ old.allPaths ∧ path ∉ new.allPaths

namespace Reload

def dynamicPaths (r : Reload) : List String :=
  r.dynamics.map Prod.fst

/- The running server: started from `old`, with sources. -/
def before (r : Reload) : ServerState :=
  startDynamics r.dynamics (bootstrap r.old)

/-
  The server `after` the reload agrees with a restart. What
  is registered and what runs is said by the new
  configuration and the dynamic mounts alone, whatever the
  old configuration was.
-/
structure Agrees
    (r : Reload)
    (after : ServerState) : Prop where
  registered :
    ∀ path,
      after.mounts.Registered path ↔
        (bootstrap r.new).mounts.Registered path ∨
          path ∈ r.dynamicPaths
  running :
    ∀ kind path,
      (after.tasks kind path).isSome = true ↔
        r.new.Runs kind path
  attached :
    ∀ kind path entry,
      after.tasks kind path = some entry →
        after.mounts path = some entry.mount
  again :
    ∃ twice warnings,
      applyConfig r.new after = .ok (twice, warnings) ∧
        twice.mounts = after.mounts ∧
          twice.tasks = after.tasks

/- Every path is carried over. -/
def Kept (r : Reload) : Prop :=
  ∀ path, PathKept r.old r.new path

theorem config_before (r : Reload) :
    r.before.config = r.old :=
  (config_startDynamics _ _).trans (config_bootstrap _)

/- The running server agrees with its own configuration. -/
theorem before_pathAgrees
    (r : Reload)
    (path : String) :
    PathAgrees r.before.config r.dynamicPaths path
      (r.before.view path) := by
  rw [config_before]
  apply PathAgrees.startDynamics
  · exact bootstrap_pathAgrees r.oldValid path
  · intro p hp
    exact (r.apart p hp).1

/- A mount is at a path nobody lists only for its source. -/
theorem before_mount_eq_none
    (r : Reload)
    {path : String}
    (hOld : path ∉ r.old.allPaths)
    (hNew : path ∈ r.new.allPaths) :
    (r.before.view path).mount = none := by
  have hDynamic : path ∉ r.dynamicPaths := fun h =>
    (r.apart path h).2 hNew
  have hWas := (r.before_pathAgrees path).registered
  rw [config_before] at hWas
  simp only [hOld, hDynamic, or_self, iff_false,
    Bool.not_eq_true, Option.isSome_eq_false_iff,
    Option.isNone_iff_eq_none] at hWas
  exact hWas

/- Nothing is registered at a path that was nowhere listed. -/
theorem mountsApplied_eq_none
    (r : Reload)
    {path : String}
    (hNotPlain : path ∉ r.new.mountPaths)
    (hIn : path ∈ r.new.allPaths)
    (hNotAutodj : path ∉ r.before.config.autodjPaths)
    (hNotRelay : path ∉ r.before.config.relayPaths) :
    ((mountsApplied r.new r.before).view path).mount =
      none := by
  have hSections : r.before.config.Sections := by
    rw [config_before]
    exact Config.sections_of_valid r.oldValid
  have hMounts :=
    view_mountsApplied_unlisted hSections.mounts hNotPlain
  refine (congrArg PathView.mount hMounts).trans ?_
  split
  · rfl
  · rename_i hNotMount
    apply r.before_mount_eq_none _ hIn
    rw [← config_before r, Config.mem_allPaths]
    rintro (h | h | h)
    · exact hNotMount h
    · exact hNotAutodj h
    · exact hNotRelay h

theorem autodjsApplied_eq_none
    (r : Reload)
    {path : String}
    (hNotPlain : path ∉ r.new.mountPaths)
    (hNotRotation : path ∉ r.new.autodjPaths)
    (hIn : path ∈ r.new.allPaths)
    (hNotRelay : path ∉ r.before.config.relayPaths) :
    ((autodjsApplied r.new r.before).view path).mount =
      none := by
  have hSections : r.before.config.Sections := by
    rw [config_before]
    exact Config.sections_of_valid r.oldValid
  have hAutodjs :=
    view_autodjsApplied_unlisted hSections.autodjs
      hNotRotation
  refine (congrArg PathView.mount hAutodjs).trans ?_
  split
  · rfl
  · rename_i hNotAutodj
    exact
      r.mountsApplied_eq_none hNotPlain hIn hNotAutodj
        hNotRelay

/- Carrying over every path is enough. -/
theorem agrees_of_kept
    {r : Reload}
    (hKept : r.Kept) :
    r.Agrees (applied r.new r.before) := by
  have hOld : r.before.config.Sections := by
    rw [config_before]
    exact Config.sections_of_valid r.oldValid
  have hNew := Config.sections_of_valid r.newValid
  have hAfter :
      ∀ path,
        PathAgrees r.new r.dynamicPaths path
          ((applied r.new r.before).view path) := by
    intro path
    apply applied_pathAgrees hOld hNew
    · rw [config_before]
      exact hKept path
    · intro hDynamic
      rw [config_before]
      exact (r.apart path hDynamic).1
    · exact r.before_pathAgrees path
  have hAgain :
      ∀ path,
        (applied r.new (applied r.new r.before)).view path =
          (applied r.new r.before).view path :=
    fun path =>
      view_applied_again
        (s := applied r.new r.before) hNew (hAfter path)
  constructor
  · intro path
    have hMain := (bootstrap_pathAgrees r.newValid path)
    have hRestart := hMain.registered
    simp only [List.not_mem_nil, or_false] at hRestart
    exact (hAfter path).registered.trans
      (or_congr_left hRestart.symm)
  · intro kind path
    exact (hAfter path).running kind
  · intro kind path entry hEntry
    exact (hAfter path).attached kind entry hEntry
  · refine ⟨_, _, applyConfig_eq _ _, ?_, ?_⟩
    · funext path
      exact congrArg PathView.mount (hAgain path)
    · funext kind path
      exact congrFun
        (congrArg PathView.tasks (hAgain path)) kind

/- A path that is not carried over loses its mount. -/
theorem kept_of_registered
    {r : Reload}
    (hListed :
      ∀ path ∈ r.new.allPaths,
        ((applied r.new r.before).view path).mount ≠
          none) :
    r.Kept := by
  have hOld : r.before.config.Sections := by
    rw [config_before]
    exact Config.sections_of_valid r.oldValid
  have hNew := Config.sections_of_valid r.newValid
  intro path
  rw [← config_before r]
  constructor
  · intro hMount
    have hThere :=
      hListed path ((r.new.mem_allPaths path).mpr
        (.inl hMount))
    have hRelays :=
      view_applied_unlisted hOld.relays
        (hNew.mount_relay path hMount)
    have hNotRelay : path ∉ r.before.config.relayPaths := by
      intro hWas
      rw [hRelays, if_pos hWas] at hThere
      exact hThere rfl
    refine ⟨?_, hNotRelay⟩
    intro hWas
    rw [hRelays, if_neg hNotRelay,
      view_autodjsApplied_unlisted hOld.autodjs
        (hNew.mount_autodj path hMount),
      if_pos hWas] at hThere
    exact hThere rfl
  · intro hAutodj
    have hIn :=
      (r.new.mem_allPaths path).mpr (.inr (.inl hAutodj))
    have hThere := hListed path hIn
    rw [view_applied_unlisted hOld.relays
      (hNew.autodj_relay path hAutodj)] at hThere
    have hNotRelay : path ∉ r.before.config.relayPaths := by
      intro hWas
      rw [if_pos hWas] at hThere
      exact hThere rfl
    refine ⟨hNotRelay, ?_⟩
    rw [if_neg hNotRelay] at hThere
    by_contra hNone
    rw [not_or] at hNone
    rcases hNone with ⟨hNotAutodj, hNotRuns⟩
    rcases List.mem_map.mp hAutodj with ⟨ac, hMem, rfl⟩
    have hDisabled : ac.enabled = false := by
      by_contra hEnabled
      apply hNotRuns
      exact
        ⟨ac, hMem, rfl, eq_true_of_ne_false hEnabled⟩
    have hView :=
      view_diffEntries_disabled autodjSection hNew.autodjs
        r.new (mountsApplied r.new r.before) hMem hNotAutodj
        hDisabled
    apply hThere
    refine (congrArg PathView.mount hView).trans ?_
    have hNotPlain : ac.mount ∉ r.new.mountPaths := fun h =>
      hNew.mount_autodj _ h hAutodj
    exact
      r.mountsApplied_eq_none hNotPlain hIn hNotAutodj
        hNotRelay
  · intro hRelay
    have hIn :=
      (r.new.mem_allPaths path).mpr (.inr (.inr hRelay))
    have hThere := hListed path hIn
    by_contra hNone
    rw [not_or] at hNone
    rcases hNone with ⟨hNotRelay, hNotRuns⟩
    rcases List.mem_map.mp hRelay with ⟨rc, hMem, rfl⟩
    have hDisabled : rc.enabled = false := by
      by_contra hEnabled
      apply hNotRuns
      exact
        ⟨rc, hMem, rfl, eq_true_of_ne_false hEnabled⟩
    have hView :=
      view_diffEntries_disabled relaySection hNew.relays
        r.new (autodjsApplied r.new r.before) hMem hNotRelay
        hDisabled
    apply hThere
    refine (congrArg PathView.mount hView).trans ?_
    have hNotRotation : rc.mount ∉ r.new.autodjPaths :=
      fun h => hNew.autodj_relay _ h hRelay
    have hNotPlain : rc.mount ∉ r.new.mountPaths :=
      fun h => hNew.mount_relay _ h hRelay
    exact
      r.autodjsApplied_eq_none hNotPlain hNotRotation hIn
        hNotRelay

end Reload

/-
  A reload agrees with a restart exactly when it carries
  every path over.
-/
theorem hotReload_agrees_iff (r : Reload) :
    (∃ after warnings,
      applyConfig r.new r.before = .ok (after, warnings) ∧
        r.Agrees after) ↔
      r.Kept := by
  constructor
  · rintro ⟨after, warnings, hApply, hAgrees⟩
    rw [applyConfig_eq] at hApply
    cases hApply
    apply Reload.kept_of_registered
    intro path hListed
    have hMain := bootstrap_pathAgrees r.newValid path
    have hRestart :
        (bootstrap r.new).mounts.Registered path :=
      hMain.registered.mpr (.inl hListed)
    have hThere :=
      (hAgrees.registered path).mpr (.inl hRestart)
    intro hNone
    have hNot : (applied r.new r.before).mounts path = none :=
      hNone
    unfold MountRegistry.Registered at hThere
    rw [hNot] at hThere
    cases hThere
  · intro hKept
    exact
      ⟨_, _, applyConfig_eq _ _,
        Reload.agrees_of_kept hKept⟩

/- The rotation becomes a plain mount. -/
def rotationToPlain : Reload where
  old := rotationConfig
  new := plainConfig
  dynamics := []
  oldValid := by decide
  newValid := by decide
  apart := by
    intro path hPath
    cases hPath

/-
  The path that moved is not registered after the reload,
  though a restart would register it.
-/
theorem rotationToPlain_not_agrees :
    ¬ ∃ after warnings,
        applyConfig rotationToPlain.new
            rotationToPlain.before =
          .ok (after, warnings) ∧
          rotationToPlain.Agrees after := by
  rintro ⟨after, warnings, hApply, hAgrees⟩
  rw [applyConfig_eq] at hApply
  cases hApply
  have hRestart :
      (bootstrap rotationToPlain.new).mounts.Registered
        "/radio" := by
    decide
  have hGone :
      ¬ (applied rotationToPlain.new
          rotationToPlain.before).mounts.Registered
        "/radio" := by
    decide
  exact
    hGone ((hAgrees.registered "/radio").mpr (.inl hRestart))

end RustyIce
