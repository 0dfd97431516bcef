import RustyIce.Server.InfoSwaps
import RustyIce.Server.ServerRuns

/-
  What a reload does to a path whose entry changed in its
  metadata only: the mount stays the object it was, and no
  more than its description is swapped.

  Main declarations:
    * `ServerState.Swapped`
    * `Relisted`
    * `applied_swapped`
    * `metadata_reload_undisturbed`
-/

------------------------------------------------------------
-- One Path, In Full
------------------------------------------------------------

namespace RustyIce

namespace ServerState

/-
  From `s` to `t` the mount registered at the path stays and
  only its description changes, and the tasks of the path
  are neither replaced nor cancelled.
-/
structure Swapped
    (path : String)
    (change : MountInfo → MountInfo)
    (s t : ServerState) : Prop where
  mount :
    ∀ id, s.mounts path = some id →
      t.mounts path = some id ∧
        t.heap id =
          { s.heap id with
            info := change (s.heap id).info }
  tasks : ∀ kind, t.tasks kind path = s.tasks kind path
  running :
    ∀ kind entry, s.tasks kind path = some entry →
      t.cancelled entry.cancel = s.cancelled entry.cancel

/- Nothing at all happens at the path. -/
abbrev Same
    (path : String)
    (s t : ServerState) : Prop :=
  Swapped path id s t

namespace Swapped

theorem refl
    (path : String)
    (s : ServerState) :
    Same path s s where
  mount := fun _ hMount => ⟨hMount, rfl⟩
  tasks := fun _ => rfl
  running := fun _ _ _ => rfl

/- Two swaps in a row. -/
theorem trans
    {path : String}
    {first second : MountInfo → MountInfo}
    {s t u : ServerState}
    (hFirst : Swapped path first s t)
    (hSecond : Swapped path second t u) :
    Swapped path (second ∘ first) s u where
  mount := by
    intro id hMount
    rcases hFirst.mount id hMount with ⟨hThere, hHeap⟩
    rcases hSecond.mount id hThere with ⟨hStays, hHeap'⟩
    refine ⟨hStays, ?_⟩
    rw [hHeap', hHeap]
    rfl
  tasks := by
    intro kind
    rw [hSecond.tasks, hFirst.tasks]
  running := by
    intro kind entry hEntry
    have hThere : t.tasks kind path = some entry := by
      rw [hFirst.tasks]
      exact hEntry
    rw [hSecond.running kind entry hThere,
      hFirst.running kind entry hEntry]

end Swapped

end ServerState

end RustyIce

------------------------------------------------------------
-- Operations Elsewhere
------------------------------------------------------------

namespace RustyIce

namespace ServerState

variable {s : ServerState}
variable {path other : String}

theorem same_registerMount
    (hTidy : s.Tidy)
    {info : MountInfo}
    (bus : BusSize)
    (hOther : path ≠ info.path) :
    Same path s (s.registerMount info bus) where
  mount := by
    intro id hMount
    have hMade := hTidy.made path id hMount
    refine ⟨?_, ?_⟩
    · simp only [registerMount]
      rw [MountRegistry.add_other _ _ hOther]
      exact hMount
    · simp only [registerMount]
      rw [if_neg (Nat.ne_of_lt hMade)]
      rfl
  tasks := fun _ => rfl
  running := fun _ _ _ => rfl

theorem same_unregister
    (hOther : path ≠ other) :
    Same path s (s.unregister other) where
  mount := by
    intro id hMount
    refine ⟨?_, rfl⟩
    simp only [unregister]
    rw [MountRegistry.remove_other _ hOther]
    exact hMount
  tasks := fun _ => rfl
  running := fun _ _ _ => rfl

/- Another path has another mount. -/
theorem same_swapInfo
    (hTidy : s.Tidy)
    (change : MountInfo → MountInfo)
    (hOther : path ≠ other) :
    Same path s (s.swapInfo other change) := by
  unfold swapInfo
  cases hThere : s.mounts other with
  | none => exact Swapped.refl path s
  | some id' =>
      constructor
      · intro id hMount
        refine ⟨hMount, ?_⟩
        have hApart : id ≠ id' := by
          intro hSame
          apply hOther
          rw [← hTidy.path path id hMount, hSame]
          exact hTidy.path other id' hThere
        show (if id = id' then _ else _) = _
        rw [if_neg hApart]
        rfl
      · intro kind
        rfl
      · intro kind entry _
        rfl

/- Another path has other tasks, under other tokens. -/
theorem same_cancelTask
    (hTidy : s.Tidy)
    (kind : TaskKind)
    (hOther : path ≠ other) :
    Same path s (s.cancelTask kind other) := by
  unfold cancelTask
  cases hThere : s.tasks kind other with
  | none => exact Swapped.refl path s
  | some gone =>
      constructor
      · intro id hMount
        exact ⟨hMount, rfl⟩
      · intro k
        simp [setTask, hOther]
      · intro k entry hEntry
        have hApart : entry.cancel ≠ gone.cancel := by
          intro hSame
          exact
            hOther
              (hTidy.apart _ _ _ _ _ _ hEntry hThere
                hSame).2
        exact if_neg hApart

theorem same_spawnTask
    (kind : TaskKind)
    (cfg : TaskConfig)
    (hOther : path ≠ other) :
    Same path s (s.spawnTask kind other cfg) := by
  unfold spawnTask
  cases s.mounts other with
  | none => exact Swapped.refl path s
  | some id =>
      constructor
      · intro i hMount
        exact ⟨hMount, rfl⟩
      · intro k
        simp [setTask, hOther]
      · intro k entry _
        rfl

/- The swap of the path's own mount. -/
theorem swapped_swapInfo
    (s : ServerState)
    (path : String)
    (change : MountInfo → MountInfo) :
    Swapped path change s (s.swapInfo path change) := by
  unfold swapInfo
  cases hThere : s.mounts path with
  | none =>
      constructor
      · intro id hMount
        rw [hThere] at hMount
        cases hMount
      · intro kind
        rfl
      · intro kind entry _
        rfl
  | some id' =>
      constructor
      · intro id hMount
        rw [hThere] at hMount
        cases hMount
        exact ⟨hThere, if_pos rfl⟩
      · intro kind
        rfl
      · intro kind entry _
        rfl

end ServerState

end RustyIce

------------------------------------------------------------
-- Iterations Elsewhere
------------------------------------------------------------

namespace RustyIce

open ServerState Library.Keyed

variable {s : ServerState}
variable {path : String}

theorem same_applyMount
    (hTidy : s.Tidy)
    (cfg : Config)
    {mc : MountConfig}
    (hOther : path ≠ mc.path) :
    Same path s (applyMount cfg s mc) := by
  unfold applyMount
  split
  · exact same_swapInfo hTidy _ hOther
  · exact same_registerMount hTidy _ hOther

theorem same_dropMount
    (newPaths : List String)
    {old : MountConfig}
    (hOther : path ≠ old.path ∨ path ∈ newPaths) :
    Same path s (dropMount newPaths s old) := by
  unfold dropMount
  split
  · exact Swapped.refl path s
  · rename_i hGone
    apply same_unregister
    rintro rfl
    exact (hOther.resolve_left fun h => h rfl) |> hGone

variable {Entry : Type}
variable (sec : TaskSection Entry)

theorem same_dropEntry
    (hTidy : s.Tidy)
    (newPaths : List String)
    {old : Entry}
    (hOther : path ≠ sec.path old ∨ path ∈ newPaths) :
    Same path s (dropEntry sec newPaths s old) := by
  unfold dropEntry
  split
  · exact Swapped.refl path s
  · rename_i hGone
    have hApart : path ≠ sec.path old := by
      rintro rfl
      exact (hOther.resolve_left fun h => h rfl) |> hGone
    exact
      (same_cancelTask hTidy sec.kind hApart).trans
        (same_unregister hApart)

theorem same_ensureMount
    (hTidy : s.Tidy)
    (cfg : Config)
    {new : Entry}
    (hOther : path ≠ sec.path new) :
    Same path s (ensureMount sec cfg s new) := by
  unfold ensureMount
  split
  · apply same_registerMount hTidy
    rw [sec.info_path]
    exact hOther
  · exact Swapped.refl path s

theorem same_applyEntry
    (hTidy : s.Tidy)
    (olds : List Entry)
    (cfg : Config)
    {new : Entry}
    (hOther : path ≠ sec.path new) :
    Same path s (applyEntry sec olds cfg s new) := by
  unfold applyEntry
  split
  · have hEnsured :
        Same path s
          (ensureMount sec cfg
            (s.cancelTask sec.kind (sec.path new)) new) :=
      (same_cancelTask hTidy sec.kind hOther).trans
        (same_ensureMount sec (hTidy.cancelTask _ _) cfg
          hOther)
    split
    · exact hEnsured.trans (same_spawnTask _ _ hOther)
    · exact hEnsured
  · exact same_swapInfo hTidy _ hOther

end RustyIce

------------------------------------------------------------
-- Sections
------------------------------------------------------------

namespace RustyIce

open ServerState Library.Keyed

/- How far a reload has come at a path. -/
structure Progress
    (path : String)
    (change : MountInfo → MountInfo)
    (s t : ServerState) : Prop where
  tidy : t.Tidy
  swapped : Swapped path change s t

theorem Progress.same
    {path : String}
    {change : MountInfo → MountInfo}
    {s t u : ServerState}
    (hProgress : Progress path change s t)
    (hTidy : u.Tidy)
    (hSame : Same path t u) :
    Progress path change s u where
  tidy := hTidy
  swapped := hProgress.swapped.trans hSame

/- The swap that is due at the path, after all the rest. -/
theorem Progress.swap
    {path : String}
    {change : MountInfo → MountInfo}
    {s t u : ServerState}
    (hProgress : Progress path id s t)
    (hTidy : u.Tidy)
    (hSwap : Swapped path change t u) :
    Progress path change s u where
  tidy := hTidy
  swapped := hProgress.swapped.trans hSwap

variable {s t : ServerState}
variable {path : String}
variable {change : MountInfo → MountInfo}

/- The loop of removals spares what is listed in neither. -/
theorem progress_dropMounts
    {olds : List MountConfig}
    {newPaths : List String}
    (hSpared :
      path ∉ olds.map MountConfig.path ∨ path ∈ newPaths)
    (hProgress : Progress path change s t) :
    Progress path change s
      (olds.foldl (dropMount newPaths) t) := by
  apply foldl_keeps (I := Progress path change s)
  · intro u old hMem hThere
    apply hThere.same (operational_tidy.dropMount _ old hThere.tidy)
    apply same_dropMount
    rcases hSpared with hOld | hNew
    · exact .inl fun h => hOld (h ▸ List.mem_map_of_mem hMem)
    · exact .inr hNew
  · exact hProgress

theorem progress_dropEntries {Entry : Type}
    (sec : TaskSection Entry)
    {olds : List Entry}
    {newPaths : List String}
    (hSpared :
      path ∉ olds.map sec.path ∨ path ∈ newPaths)
    (hProgress : Progress path change s t) :
    Progress path change s
      (olds.foldl (dropEntry sec newPaths) t) := by
  apply foldl_keeps (I := Progress path change s)
  · intro u old hMem hThere
    apply hThere.same (operational_tidy.dropEntry _ _ old hThere.tidy)
    apply same_dropEntry sec hThere.tidy
    rcases hSpared with hOld | hNew
    · exact .inl fun h => hOld (h ▸ List.mem_map_of_mem hMem)
    · exact .inr hNew
  · exact hProgress

/- A section that lists the path neither before nor after. -/
theorem progress_diffMounts_unlisted
    {olds news : List MountConfig}
    (cfg : Config)
    (hOld : path ∉ olds.map MountConfig.path)
    (hNew : path ∉ news.map MountConfig.path)
    (hProgress : Progress path change s t) :
    Progress path change s (diffMounts olds news cfg t) := by
  unfold diffMounts
  apply progress_dropMounts (.inl hOld)
  apply foldl_keeps (I := Progress path change s)
  · intro u mc hMem hThere
    apply hThere.same
      (operational_tidy.applyMount (fun _ => trivial) mc
        hThere.tidy)
    apply same_applyMount hThere.tidy
    exact fun h => hNew (h ▸ List.mem_map_of_mem hMem)
  · exact hProgress

theorem progress_diffEntries_unlisted {Entry : Type}
    (sec : TaskSection Entry)
    {olds news : List Entry}
    (cfg : Config)
    (hOld : path ∉ olds.map sec.path)
    (hNew : path ∉ news.map sec.path)
    (hProgress : Progress path change s t) :
    Progress path change s
      (diffEntries sec olds news cfg t) := by
  unfold diffEntries
  apply foldl_keeps (I := Progress path change s)
  · intro u new hMem hThere
    apply hThere.same
      (operational_tidy.applyEntry (fun _ => trivial) _ _ new
        hThere.tidy)
    apply same_applyEntry sec hThere.tidy
    exact fun h => hNew (h ▸ List.mem_map_of_mem hMem)
  · exact progress_dropEntries sec (.inl hOld) hProgress

/- The iteration of a listed mount is its swap. -/
theorem swapped_applyMount
    (cfg : Config)
    (s : ServerState)
    (mc : MountConfig) :
    Swapped mc.path (InfoSwap.mount mc).apply s
      (applyMount cfg s mc) := by
  unfold applyMount
  split
  · exact swapped_swapInfo s mc.path _
  · rename_i hNone
    constructor
    · intro id hMount
      rw [hMount] at hNone
      exact absurd rfl hNone
    · intro kind
      rfl
    · intro kind entry _
      rfl

/- A listed mount that the section lists again. -/
theorem progress_diffMounts_listed
    (olds : List MountConfig)
    {news : List MountConfig}
    (cfg : Config)
    (hNodup : (news.map MountConfig.path).Nodup)
    {mc : MountConfig}
    (hMem : mc ∈ news)
    (hProgress : Progress mc.path id s t) :
    Progress mc.path (InfoSwap.mount mc).apply s
      (diffMounts olds news cfg t) := by
  -- Mounts of other paths come before and behind.
  have hBeside
      (swap : MountInfo → MountInfo)
      (u : ServerState)
      (other : MountConfig)
      (hOther : other.path ≠ mc.path)
      (hThere : Progress mc.path swap s u) :
      Progress mc.path swap s (applyMount cfg u other) :=
    hThere.same
      (operational_tidy.applyMount (fun _ => trivial) other
        hThere.tidy)
      (same_applyMount hThere.tidy cfg hOther.symm)
  unfold diffMounts
  apply progress_dropMounts
    (.inr (List.mem_map_of_mem hMem))
  apply foldl_passes (I := Progress mc.path id s)
    (J := Progress mc.path (InfoSwap.mount mc).apply s)
    (applyMount cfg) MountConfig.path
  · exact hBeside id
  · intro u hThere
    exact
      hThere.swap
        (operational_tidy.applyMount (fun _ => trivial) mc
          hThere.tidy)
        (swapped_applyMount cfg u mc)
  · exact hBeside (InfoSwap.mount mc).apply
  · exact hNodup
  · exact hMem
  · exact hProgress

/- The description an entry of a task section is given. -/
def TaskSection.describe {Entry : Type}
    (sec : TaskSection Entry)
    (new : Entry)
    (info : MountInfo) : MountInfo :=
  { info with
    maxListeners := (sec.info new).maxListeners
    metadata := (sec.info new).metadata }

theorem swapped_applyEntry {Entry : Type}
    (sec : TaskSection Entry)
    {olds : List Entry}
    (cfg : Config)
    (s : ServerState)
    {new : Entry}
    (hKeep : needsRespawn sec olds new = false) :
    Swapped (sec.path new) (sec.describe new) s
      (applyEntry sec olds cfg s new) := by
  unfold applyEntry
  rw [hKeep]
  exact swapped_swapInfo s (sec.path new) _

/- An entry of a task section that needs no new task. -/
theorem progress_diffEntries_listed {Entry : Type}
    (sec : TaskSection Entry)
    {olds news : List Entry}
    (cfg : Config)
    (hNodup : (news.map sec.path).Nodup)
    {new : Entry}
    (hMem : new ∈ news)
    (hKeep : needsRespawn sec olds new = false)
    (hProgress : Progress (sec.path new) id s t) :
    Progress (sec.path new) (sec.describe new) s
      (diffEntries sec olds news cfg t) := by
  -- Entries of other paths come before and behind.
  have hBeside
      (swap : MountInfo → MountInfo)
      (u : ServerState)
      (other : Entry)
      (hOther : sec.path other ≠ sec.path new)
      (hThere : Progress (sec.path new) swap s u) :
      Progress (sec.path new) swap s
        (applyEntry sec olds cfg u other) :=
    hThere.same
      (operational_tidy.applyEntry (fun _ => trivial) sec
        olds other hThere.tidy)
      (same_applyEntry sec hThere.tidy olds cfg hOther.symm)
  unfold diffEntries
  apply foldl_passes (I := Progress (sec.path new) id s)
    (J := Progress (sec.path new) (sec.describe new) s)
    (applyEntry sec olds cfg) sec.path
  · exact hBeside id
  · intro u hThere
    exact
      hThere.swap
        (operational_tidy.applyEntry (fun _ => trivial) sec
          olds new hThere.tidy)
        (swapped_applyEntry sec cfg u hKeep)
  · exact hBeside (sec.describe new)
  · exact hNodup
  · exact hMem
  · exact
      progress_dropEntries sec
        (.inr (List.mem_map_of_mem hMem)) hProgress

end RustyIce

------------------------------------------------------------
-- Entries That Change In Their Metadata
------------------------------------------------------------

namespace RustyIce

/- The entries differ at most in what listeners are told. -/
def MountConfig.MetadataOnly
    (old new : MountConfig) : Prop :=
  new =
    { old with
      name := new.name
      description := new.description
      genre := new.genre
      url := new.url
      maxListeners := new.maxListeners
      sourcePassword := new.sourcePassword }

def AutoDjConfig.MetadataOnly
    (old new : AutoDjConfig) : Prop :=
  new =
    { old with
      name := new.name
      description := new.description
      genre := new.genre
      url := new.url
      maxListeners := new.maxListeners }

def RelayConfig.MetadataOnly
    (old new : RelayConfig) : Prop :=
  new =
    { old with
      name := new.name
      description := new.description
      genre := new.genre
      url := new.url
      maxListeners := new.maxListeners }

/-
  A path stays in its section, and its entry changes in its
  metadata at most. The swap is what the new entry is for.
-/
inductive Relisted
    (old new : Config) : String → InfoSwap → Prop
| mount {before after : MountConfig} :
    before ∈ old.mounts → after ∈ new.mounts →
      before.MetadataOnly after →
        Relisted old new after.path (.mount after)
| autodj {before after : AutoDjConfig} :
    before ∈ old.autodjs → after ∈ new.autodjs →
      before.MetadataOnly after →
        Relisted old new after.mount (.autodj after)
| relay {before after : RelayConfig} :
    before ∈ old.relays → after ∈ new.relays →
      before.MetadataOnly after →
        Relisted old new after.mount (.relay after)

/- With unique paths, the old entry of a path is found. -/
theorem needsRespawn_eq {Entry : Type}
    (sec : TaskSection Entry)
    {olds : List Entry}
    (hNodup : (olds.map sec.path).Nodup)
    {old new : Entry}
    (hMem : old ∈ olds)
    (hPath : sec.path old = sec.path new) :
    needsRespawn sec olds new = sec.changed old new := by
  unfold needsRespawn
  rw [Library.Keyed.find?_key hNodup hMem hPath]

theorem AutoDjConfig.MetadataOnly.unchanged
    {old new : AutoDjConfig}
    (hOnly : old.MetadataOnly new) :
    autodjSection.path old = autodjSection.path new ∧
      autodjSection.changed old new = false := by
  rw [hOnly]
  refine ⟨rfl, ?_⟩
  simp [autodjSection]

theorem RelayConfig.MetadataOnly.unchanged
    {old new : RelayConfig}
    (hOnly : old.MetadataOnly new) :
    relaySection.path old = relaySection.path new ∧
      relaySection.changed old new = false := by
  rw [hOnly]
  refine ⟨rfl, ?_⟩
  simp [relaySection]

end RustyIce

------------------------------------------------------------
-- Reloads
------------------------------------------------------------

namespace RustyIce

open ServerState

variable {s : ServerState}
variable {new : Config}

/- A reload is the swap at a path so relisted. -/
theorem applied_swapped
    (hTidy : s.Tidy)
    (hOld : s.config.Sections)
    (hNew : new.Sections)
    {path : String}
    {swap : InfoSwap}
    (hListed : Relisted s.config new path swap) :
    Swapped path swap.apply s (applied new s) := by
  have hStart :
      Progress path id s { s with auth := .new new } :=
    { tidy := hTidy.withSettings s.config _
      swapped :=
        { mount := fun _ hMount => ⟨hMount, rfl⟩
          tasks := fun _ => rfl
          running := fun _ _ _ => rfl } }
  -- The swap happens in one section; the two others list
  -- the path neither before nor after.
  suffices
      hProgress :
        Progress path swap.apply s
          (applySections new { s with auth := .new new }) by
    exact
      { mount := hProgress.swapped.mount
        tasks := hProgress.swapped.tasks
        running := hProgress.swapped.running }
  unfold applySections
  cases hListed with
  | mount hBefore hAfter hOnly =>
      rename_i before after
      have hPath : after.path = before.path := by rw [hOnly]
      have hIn : after.path ∈ s.config.mountPaths :=
        hPath ▸ List.mem_map_of_mem hBefore
      have hIn' : after.path ∈ new.mountPaths :=
        List.mem_map_of_mem hAfter
      apply progress_diffEntries_unlisted relaySection
      · exact hOld.mount_relay _ hIn
      · exact hNew.mount_relay _ hIn'
      apply progress_diffEntries_unlisted autodjSection
      · exact hOld.mount_autodj _ hIn
      · exact hNew.mount_autodj _ hIn'
      exact
        progress_diffMounts_listed _ new hNew.mounts hAfter
          hStart
  | autodj hBefore hAfter hOnly =>
      rename_i before after
      have hPath : after.mount = before.mount := by rw [hOnly]
      have hIn : after.mount ∈ s.config.autodjPaths :=
        hPath ▸ List.mem_map_of_mem hBefore
      have hIn' : after.mount ∈ new.autodjPaths :=
        List.mem_map_of_mem hAfter
      have hKeep :
          needsRespawn autodjSection s.config.autodjs after =
            false := by
        rw [needsRespawn_eq autodjSection hOld.autodjs
          hBefore hOnly.unchanged.1]
        exact hOnly.unchanged.2
      apply progress_diffEntries_unlisted relaySection
      · exact hOld.autodj_relay _ hIn
      · exact hNew.autodj_relay _ hIn'
      apply progress_diffEntries_listed autodjSection new
        hNew.autodjs hAfter hKeep
      apply progress_diffMounts_unlisted
      · exact fun h => hOld.mount_autodj _ h hIn
      · exact fun h => hNew.mount_autodj _ h hIn'
      exact hStart
  | relay hBefore hAfter hOnly =>
      rename_i before after
      have hPath : after.mount = before.mount := by rw [hOnly]
      have hIn : after.mount ∈ s.config.relayPaths :=
        hPath ▸ List.mem_map_of_mem hBefore
      have hIn' : after.mount ∈ new.relayPaths :=
        List.mem_map_of_mem hAfter
      have hKeep :
          needsRespawn relaySection s.config.relays after =
            false := by
        rw [needsRespawn_eq relaySection hOld.relays
          hBefore hOnly.unchanged.1]
        exact hOnly.unchanged.2
      apply progress_diffEntries_listed relaySection new
        hNew.relays hAfter hKeep
      apply progress_diffEntries_unlisted autodjSection
      · exact fun h => hOld.autodj_relay _ h hIn
      · exact fun h => hNew.autodj_relay _ h hIn'
      apply progress_diffMounts_unlisted
      · exact fun h => hOld.mount_relay _ h hIn
      · exact fun h => hNew.mount_relay _ h hIn'
      exact hStart

/-
  The streams of a path are left alone, and its description
  says what the new entry says.
-/
structure Undisturbed
    (path : String)
    (swap : InfoSwap)
    (s t : ServerState) : Prop where
  object :
    ∀ id, s.mounts path = some id →
      t.mounts path = some id
  unchanged :
    ∀ id, s.mounts path = some id →
      { t.heap id with info := (s.heap id).info } = s.heap id
  named :
    ∀ id, s.mounts path = some id →
      (t.heap id).info.path = (s.heap id).info.path ∧
        (t.heap id).info.codec = (s.heap id).info.codec
  described :
    ∀ id, s.mounts path = some id →
      swap.maxListeners? =
          some (t.heap id).info.maxListeners ∧
        swap.metadata? = some (t.heap id).info.metadata
  tasks : ∀ kind, t.tasks kind path = s.tasks kind path
  running :
    ∀ kind entry, s.tasks kind path = some entry →
      t.cancelled entry.cancel = s.cancelled entry.cancel

/-
  A reload that changes the entry of a path in its metadata
  at most does not disturb the streams of the path, whatever
  else it changes.
-/
theorem metadata_reload_undisturbed
    (hReach : serverMachine.Reachable s)
    (hNew : new.validatePaths = .ok ())
    {path : String}
    {swap : InfoSwap}
    (hListed : Relisted s.config new path swap)
    {t : ServerState}
    {warnings : List String}
    (hApply : applyConfig new s = .ok (t, warnings)) :
    Undisturbed path swap s t := by
  rw [applyConfig_eq] at hApply
  cases hApply
  have hSwapped :=
    applied_swapped (tidy_of_reachable hReach)
      (Config.sections_of_valid (valid_of_reachable hReach))
      (Config.sections_of_valid hNew) hListed
  constructor
  · intro id hMount
    exact (hSwapped.mount id hMount).1
  · intro id hMount
    rw [(hSwapped.mount id hMount).2]
  · intro id hMount
    rw [(hSwapped.mount id hMount).2]
    cases hListed <;> exact ⟨rfl, rfl⟩
  · intro id hMount
    rw [(hSwapped.mount id hMount).2]
    cases hListed <;> exact ⟨rfl, rfl⟩
  · exact hSwapped.tasks
  · exact hSwapped.running

/- A rotation gets a name, and a plain mount joins it. -/
def namedEntry : AutoDjConfig :=
  { AutoDjConfig.bare "/radio" .mp3 with
    name := some "Radio" }

def namedRotation : Config :=
  { Config.bare with
    mounts := [.bare "/live" "hackme"]
    autodjs := [namedEntry] }

theorem metadata_reload_undisturbed_namedRotation :
    ∃ t warnings,
      applyConfig namedRotation (bootstrap rotationConfig) =
          .ok (t, warnings) ∧
        Undisturbed "/radio" (.autodj namedEntry)
          (bootstrap rotationConfig) t := by
  have hReach :
      serverMachine.Reachable (bootstrap rotationConfig) :=
    .start ⟨rotationConfig, by decide, rfl⟩
  have hOnly :
      (AutoDjConfig.bare "/radio" .mp3).MetadataOnly
        namedEntry := rfl
  have hListed :
      Relisted (bootstrap rotationConfig).config
        namedRotation "/radio" (.autodj namedEntry) :=
    .autodj List.mem_cons_self List.mem_cons_self hOnly
  exact
    ⟨_, _, rfl,
      metadata_reload_undisturbed hReach (by decide) hListed
        rfl⟩

end RustyIce
