import RustyIce.Server.ReloadSteps
import RustyIce.Server.ServerRuns

/-
  What the iterations of a reload and the other events of the
  server leave of the task registries and of the mount
  objects.

  Main declarations:
    * `Retained`, `KeepsPaths`, `Evolves`
    * `evolves_exec`, `unapplied_of_exec`
    * `tasks_exec`, `exists_unlists`
    * `TasksListed`, `tasksListed_bootstrap`
-/

------------------------------------------------------------
-- What The Server Keeps
------------------------------------------------------------

namespace RustyIce

open ServerState

namespace ServerState

/- No entry is lost but a stopped one. -/
structure Retained (s t : ServerState) : Prop where
  entries :
    ∀ kind path entry, s.tasks kind path = some entry →
      t.tasks kind path = some entry ∨
        t.cancelled entry.cancel = true
  stopped :
    ∀ token, s.cancelled token = true →
      t.cancelled token = true

theorem Retained.refl (s : ServerState) : Retained s s where
  entries := fun _ _ _ hEntry => .inl hEntry
  stopped := fun _ hToken => hToken

theorem Retained.trans
    {s t u : ServerState}
    (hFirst : Retained s t)
    (hSecond : Retained t u) :
    Retained s u where
  entries := by
    intro kind path entry hEntry
    rcases hFirst.entries kind path entry hEntry with
      hThere | hStopped
    · exact hSecond.entries kind path entry hThere
    · exact .inr (hSecond.stopped _ hStopped)
  stopped := fun token hToken =>
    hSecond.stopped token (hFirst.stopped token hToken)

/- The part of a server the task registries make up. -/
def taskPart
    (s : ServerState) :
    (TaskKind → String → Option TaskEntry) ×
      (Token → Bool) :=
  (s.tasks, s.cancelled)

theorem Retained.of_taskPart
    {s t : ServerState}
    (hSame : t.taskPart = s.taskPart) :
    Retained s t where
  entries := by
    intro kind path entry hEntry
    rw [(Prod.mk.inj hSame).1]
    exact .inl hEntry
  stopped := by
    intro token hToken
    rw [(Prod.mk.inj hSame).2]
    exact hToken

theorem taskPart_swapInfo
    (s : ServerState)
    (path : String)
    (change : MountInfo → MountInfo) :
    (s.swapInfo path change).taskPart = s.taskPart := by
  unfold swapInfo
  split
  · rfl
  · rfl

theorem taskPart_applyMount
    (cfg : Config)
    (s : ServerState)
    (mc : MountConfig) :
    (applyMount cfg s mc).taskPart = s.taskPart := by
  unfold applyMount
  split
  · exact taskPart_swapInfo _ _ _
  · rfl

theorem taskPart_dropMount
    (newPaths : List String)
    (s : ServerState)
    (old : MountConfig) :
    (dropMount newPaths s old).taskPart = s.taskPart := by
  unfold dropMount
  split
  · rfl
  · rfl

theorem taskPart_ensureMount {Entry : Type}
    (sec : TaskSection Entry)
    (cfg : Config)
    (s : ServerState)
    (new : Entry) :
    (ensureMount sec cfg s new).taskPart = s.taskPart := by
  unfold ensureMount
  split
  · rfl
  · rfl

theorem retained_cancelTask
    (s : ServerState)
    (k : TaskKind)
    (p : String) :
    Retained s (s.cancelTask k p) := by
  unfold cancelTask
  cases hThere : s.tasks k p with
  | none => exact .refl s
  | some gone =>
      constructor
      · intro kind path entry hEntry
        by_cases hHere : kind = k ∧ path = p
        · right
          rw [hHere.1, hHere.2, hThere] at hEntry
          cases hEntry
          exact if_pos rfl
        · left
          simpa [setTask, hHere] using hEntry
      · intro token hToken
        show (if token = gone.cancel then _ else _) = true
        split
        · rfl
        · exact hToken

/- What it cancels is cancelled. -/
theorem cancelled_cancelTask
    {s : ServerState}
    {kind : TaskKind}
    {path : String}
    {entry : TaskEntry}
    (hEntry : s.tasks kind path = some entry) :
    (s.cancelTask kind path).cancelled entry.cancel =
      true := by
  unfold cancelTask
  rw [hEntry]
  exact if_pos rfl

/- What is left in the registries was there. -/
theorem tasks_cancelTask
    {s : ServerState}
    {k kind : TaskKind}
    {p path : String}
    {entry : TaskEntry}
    (hEntry :
      (s.cancelTask k p).tasks kind path = some entry) :
    s.tasks kind path = some entry ∧
      ¬ (kind = k ∧ path = p) := by
  unfold cancelTask at hEntry
  cases hThere : s.tasks k p with
  | none =>
      rw [hThere] at hEntry
      refine ⟨hEntry, ?_⟩
      rintro ⟨rfl, rfl⟩
      cases hThere.symm.trans hEntry
  | some gone =>
      simp only [hThere, setTask] at hEntry
      split at hEntry
      · cases hEntry
      · rename_i hOther
        exact ⟨hEntry, hOther⟩

theorem tasks_spawnTask
    {s : ServerState}
    {k kind : TaskKind}
    {p path : String}
    {cfg : TaskConfig}
    {entry : TaskEntry}
    (hEntry :
      (s.spawnTask k p cfg).tasks kind path = some entry) :
    (kind = k ∧ path = p) ∨
      s.tasks kind path = some entry := by
  unfold spawnTask at hEntry
  cases hMount : s.mounts p with
  | none =>
      rw [hMount] at hEntry
      exact .inr hEntry
  | some mount =>
      simp only [hMount, setTask] at hEntry
      split at hEntry
      · rename_i hHere
        exact .inl hHere
      · exact .inr hEntry

/- A task starts where none is. -/
theorem retained_spawnTask
    {s : ServerState}
    {k : TaskKind}
    {p : String}
    (cfg : TaskConfig)
    (hNone : ∀ entry, s.tasks k p ≠ some entry) :
    Retained s (s.spawnTask k p cfg) := by
  unfold spawnTask
  cases s.mounts p with
  | none => exact .refl s
  | some mount =>
      constructor
      · intro kind path entry hEntry
        left
        have hOther : ¬ (kind = k ∧ path = p) := by
          rintro ⟨rfl, rfl⟩
          exact hNone entry hEntry
        simpa [setTask, hOther] using hEntry
      · intro token hToken
        exact hToken

/-
  A mount object that was made keeps its path, whatever else
  happens to it.
-/
structure KeepsPaths (s t : ServerState) : Prop where
  made : s.nextMount ≤ t.nextMount
  path :
    ∀ id, id < s.nextMount →
      (t.heap id).info.path = (s.heap id).info.path

theorem KeepsPaths.refl (s : ServerState) :
    KeepsPaths s s where
  made := Nat.le_refl _
  path := fun _ _ => rfl

theorem operational_keepsPaths (s : ServerState) :
    Operational (fun _ => True) (KeepsPaths s) where
  registerMount := by
    intro t info bus _ hKeeps
    refine ⟨Nat.le_succ_of_le hKeeps.made, ?_⟩
    intro id hMade
    have hOther : id ≠ t.nextMount :=
      Nat.ne_of_lt (Nat.lt_of_lt_of_le hMade hKeeps.made)
    simp only [registerMount]
    rw [if_neg hOther]
    exact hKeeps.path id hMade
  unregister := fun _ hKeeps => ⟨hKeeps.made, hKeeps.path⟩
  swapInfo := by
    intro t path change hChange hKeeps
    unfold swapInfo
    split
    · exact hKeeps
    · rename_i mount _
      refine ⟨hKeeps.made, ?_⟩
      intro id hMade
      show (if id = mount then _ else _ :
        ActiveMount).info.path = _
      split
      · rw [hChange]
        exact hKeeps.path id hMade
      · exact hKeeps.path id hMade
  cancelTask := by
    intro t kind path hKeeps
    unfold cancelTask
    split
    · exact hKeeps
    · exact ⟨hKeeps.made, hKeeps.path⟩
  spawnTask := by
    intro t kind path cfg hKeeps
    unfold spawnTask
    split
    · exact hKeeps
    · exact ⟨hKeeps.made, hKeeps.path⟩
  settings := fun _ _ hKeeps => ⟨hKeeps.made, hKeeps.path⟩

/- What any change to the server keeps. -/
structure Evolves (s t : ServerState) : Prop where
  tidy : s.Tidy → t.Tidy
  retained : Retained s t
  paths : ∀ u, KeepsPaths u s → KeepsPaths u t

end ServerState

end RustyIce

------------------------------------------------------------
-- Iterations And Events
------------------------------------------------------------

namespace RustyIce

open ServerState Library.Keyed

theorem retained_dropEntry {Entry : Type}
    (sec : TaskSection Entry)
    (newPaths : List String)
    (s : ServerState)
    (old : Entry) :
    Retained s (dropEntry sec newPaths s old) := by
  unfold dropEntry
  split
  · exact .refl s
  · exact (retained_cancelTask s _ _).trans (.of_taskPart rfl)

theorem retained_applyEntry {Entry : Type}
    (sec : TaskSection Entry)
    (olds : List Entry)
    (cfg : Config)
    (s : ServerState)
    (new : Entry) :
    Retained s (applyEntry sec olds cfg s new) := by
  unfold applyEntry
  split
  · have hPart :=
      taskPart_ensureMount sec cfg
        (s.cancelTask sec.kind (sec.path new)) new
    have hEnsured :
        Retained s
          (ensureMount sec cfg
            (s.cancelTask sec.kind (sec.path new)) new) :=
      (retained_cancelTask s _ _).trans (.of_taskPart hPart)
    split
    · apply hEnsured.trans
      apply retained_spawnTask
      intro entry hEntry
      rw [(Prod.mk.inj hPart).1] at hEntry
      exact (tasks_cancelTask hEntry).2 ⟨rfl, rfl⟩
    · exact hEnsured
  · exact .of_taskPart (taskPart_swapInfo s _ _)

/- What an iteration keeps, whatever it is about. -/
theorem ServerState.Operational.exec
    {fits : BusSize → Prop}
    {I : ServerState → Prop}
    (hKept : Operational fits I)
    {old new : Config}
    (hFits : ∀ burst, fits (busSize new burst))
    (step : ReloadStep)
    {s : ServerState}
    (hI : I s) :
    I (step.exec old new s) := by
  cases step with
  | mount mc => exact hKept.applyMount hFits mc hI
  | unmount mc => exact hKept.dropMount _ mc hI
  | stopAutodj ac => exact hKept.dropEntry _ _ ac hI
  | autodj ac => exact hKept.applyEntry hFits _ _ ac hI
  | stopRelay rc => exact hKept.dropEntry _ _ rc hI
  | relay rc => exact hKept.applyEntry hFits _ _ rc hI

theorem evolves_exec
    (old new : Config)
    (s : ServerState)
    (step : ReloadStep) :
    Evolves s (step.exec old new s) where
  tidy := operational_tidy.exec (fun _ => trivial) step
  paths := fun u =>
    (operational_keepsPaths u).exec (fun _ => trivial) step
  retained := by
    cases step with
    | mount mc =>
        exact .of_taskPart (taskPart_applyMount new s mc)
    | unmount mc =>
        exact .of_taskPart (taskPart_dropMount _ s mc)
    | stopAutodj ac => exact retained_dropEntry _ _ s ac
    | autodj ac => exact retained_applyEntry _ _ new s ac
    | stopRelay rc => exact retained_dropEntry _ _ s rc
    | relay rc => exact retained_applyEntry _ _ new s rc

theorem evolves_cancelTask
    (s : ServerState)
    (kind : TaskKind)
    (path : String) :
    Evolves s (s.cancelTask kind path) where
  tidy := fun hTidy => hTidy.cancelTask kind path
  paths := fun u => (operational_keepsPaths u).cancelTask _ _
  retained := retained_cancelTask s kind path

theorem evolves_settings
    (s : ServerState)
    (cfg : Config)
    (auth : TomlBcryptAuth) :
    Evolves s { s with config := cfg, auth := auth } where
  tidy := fun hTidy => hTidy.withSettings cfg auth
  paths := fun u => (operational_keepsPaths u).settings _ _
  retained := .of_taskPart rfl

/- An event of the server that is not a reload. -/
structure Unapplied (s t : ServerState) : Prop where
  evolves : Evolves s t
  tasks : t.tasks = s.tasks
  config : t.config = s.config

theorem unapplied_of_exec
    {s t : ServerState}
    {event : ServerEvent}
    (hOther : ∀ new, event ≠ .apply new)
    (hStep : event.exec s = some t) :
    Unapplied s t := by
  have hTidy : s.Tidy → t.Tidy := fun hTidy =>
    tidy_of_exec hTidy hStep
  cases event with
  | apply new => exact absurd rfl (hOther new)
  | firstConnect path codec =>
      simp only [ServerEvent.exec] at hStep
      split at hStep
      · cases hStep
      · cases hStep
        refine ⟨⟨hTidy, .of_taskPart rfl, ?_⟩, rfl, rfl⟩
        intro u hKeeps
        exact
          (operational_keepsPaths u).registerMount _ trivial
            hKeeps
  | forget path =>
      cases hStep
      refine ⟨⟨hTidy, .of_taskPart rfl, ?_⟩, rfl, rfl⟩
      intro u hKeeps
      exact (operational_keepsPaths u).unregister path hKeeps
  | change id mount =>
      simp only [ServerEvent.exec] at hStep
      split at hStep
      · rename_i hPath
        cases hStep
        refine ⟨⟨hTidy, .of_taskPart rfl, ?_⟩, rfl, rfl⟩
        intro u hKeeps
        refine ⟨hKeeps.made, ?_⟩
        intro i hMade
        show (if i = id then mount else s.heap i).info.path = _
        split
        · rename_i hSame
          rw [hPath, ← hSame]
          exact hKeeps.path i hMade
        · exact hKeeps.path i hMade
      · cases hStep
  | cancel token =>
      cases hStep
      refine ⟨⟨hTidy, ?_, ?_⟩, rfl, rfl⟩
      · constructor
        · intro kind path entry hEntry
          exact .inl hEntry
        · intro other hStopped
          show (if other = token then _ else _) = true
          split
          · rfl
          · exact hStopped
      · intro u hKeeps
        exact ⟨hKeeps.made, hKeeps.path⟩

end RustyIce

------------------------------------------------------------
-- Listed Tasks
------------------------------------------------------------

namespace RustyIce

open ServerState Library.Keyed

/- The paths of the section that has tasks of a kind. -/
def Config.taskPaths
    (cfg : Config)
    (kind : TaskKind) : List String :=
  match kind with
  | .autodj => cfg.autodjPaths
  | .relay => cfg.relayPaths

/- The task an iteration stops if it is no longer listed. -/
def ReloadStep.unlists :
    ReloadStep → Option (TaskKind × String)
| .stopAutodj ac => some (.autodj, ac.mount)
| .stopRelay rc => some (.relay, rc.mount)
| .mount _ => none
| .unmount _ => none
| .autodj _ => none
| .relay _ => none

variable {s : ServerState}
variable {kind : TaskKind}
variable {path : String}
variable {entry : TaskEntry}

theorem tasks_dropEntry {Entry : Type}
    {sec : TaskSection Entry}
    {newPaths : List String}
    {old : Entry}
    (hEntry :
      (dropEntry sec newPaths s old).tasks kind path =
        some entry) :
    s.tasks kind path = some entry ∧
      (kind = sec.kind ∧ path = sec.path old →
        path ∈ newPaths) := by
  unfold dropEntry at hEntry
  split at hEntry
  · rename_i hThere
    refine ⟨hEntry, ?_⟩
    rintro ⟨_, rfl⟩
    exact hThere
  · rcases tasks_cancelTask hEntry with ⟨hWas, hOther⟩
    exact ⟨hWas, fun hHere => absurd hHere hOther⟩

theorem tasks_applyEntry {Entry : Type}
    {sec : TaskSection Entry}
    {olds : List Entry}
    {cfg : Config}
    {new : Entry}
    (hEntry :
      (applyEntry sec olds cfg s new).tasks kind path =
        some entry) :
    (kind = sec.kind ∧ path = sec.path new) ∨
      s.tasks kind path = some entry := by
  -- Making the mount leaves the registries alone.
  have hEnsured :
      ∀ entry,
        (ensureMount sec cfg
            (s.cancelTask sec.kind (sec.path new))
            new).tasks kind path = some entry →
          s.tasks kind path = some entry := by
    intro entry hThere
    have hPart :=
      taskPart_ensureMount sec cfg
        (s.cancelTask sec.kind (sec.path new)) new
    rw [(Prod.mk.inj hPart).1] at hThere
    exact (tasks_cancelTask hThere).1
  unfold applyEntry at hEntry
  split at hEntry
  · split at hEntry
    · rcases tasks_spawnTask hEntry with hHere | hWas
      · exact .inl hHere
      · exact .inr (hEnsured entry hWas)
    · exact .inr (hEnsured entry hEntry)
  · have hPart := taskPart_swapInfo s (sec.path new)
      fun old =>
        { old with
          maxListeners := (sec.info new).maxListeners
          metadata := (sec.info new).metadata }
    rw [(Prod.mk.inj hPart).1] at hEntry
    exact .inr hEntry

/-
  The task an iteration leaves in a registry is listed by the
  new configuration, or was there before and is not the one
  that the iteration is about.
-/
theorem tasks_exec
    {old new : Config}
    {step : ReloadStep}
    (hStep : step ∈ reloadSteps old new)
    (hEntry :
      (step.exec old new s).tasks kind path = some entry) :
    path ∈ new.taskPaths kind ∨
      s.tasks kind path = some entry ∧
        step.unlists ≠ some (kind, path) := by
  cases step with
  | mount mc =>
      have hPart := taskPart_applyMount new s mc
      right
      refine ⟨?_, by simp [ReloadStep.unlists]⟩
      rw [← (Prod.mk.inj hPart).1]
      exact hEntry
  | unmount mc =>
      have hPart := taskPart_dropMount new.mountPaths s mc
      right
      refine ⟨?_, by simp [ReloadStep.unlists]⟩
      rw [← (Prod.mk.inj hPart).1]
      exact hEntry
  | stopAutodj ac =>
      rcases tasks_dropEntry hEntry with ⟨hWas, hStays⟩
      by_cases hHere : kind = .autodj ∧ path = ac.mount
      · rw [hHere.1]
        exact .inl (hStays hHere)
      · right
        refine ⟨hWas, ?_⟩
        intro hSame
        cases hSame
        exact hHere ⟨rfl, rfl⟩
  | stopRelay rc =>
      rcases tasks_dropEntry hEntry with ⟨hWas, hStays⟩
      by_cases hHere : kind = .relay ∧ path = rc.mount
      · rw [hHere.1]
        exact .inl (hStays hHere)
      · right
        refine ⟨hWas, ?_⟩
        intro hSame
        cases hSame
        exact hHere ⟨rfl, rfl⟩
  | autodj ac =>
      have hMem : ac ∈ new.autodjs := by
        simpa [reloadSteps] using hStep
      rcases tasks_applyEntry hEntry with ⟨rfl, rfl⟩ | hWas
      · exact .inl (List.mem_map_of_mem hMem)
      · exact .inr ⟨hWas, by simp [ReloadStep.unlists]⟩
  | relay rc =>
      have hMem : rc ∈ new.relays := by
        simpa [reloadSteps] using hStep
      rcases tasks_applyEntry hEntry with ⟨rfl, rfl⟩ | hWas
      · exact .inl (List.mem_map_of_mem hMem)
      · exact .inr ⟨hWas, by simp [ReloadStep.unlists]⟩

/- A reload has an iteration for each path of the old one. -/
theorem exists_unlists
    {old new : Config}
    (hListed : path ∈ old.taskPaths kind) :
    ∃ step ∈ reloadSteps old new,
      step.unlists = some (kind, path) := by
  cases kind with
  | autodj =>
      rcases List.mem_map.mp hListed with ⟨ac, hMem, rfl⟩
      refine ⟨.stopAutodj ac, ?_, rfl⟩
      simpa [reloadSteps] using hMem
  | relay =>
      rcases List.mem_map.mp hListed with ⟨rc, hMem, rfl⟩
      refine ⟨.stopRelay rc, ?_, rfl⟩
      simpa [reloadSteps] using hMem

/- The registries hold what the configuration lists. -/
def ServerState.TasksListed
    (cfg : Config)
    (s : ServerState) : Prop :=
  ∀ kind path entry, s.tasks kind path = some entry →
    path ∈ cfg.taskPaths kind

theorem tasksListed_startEntry {Entry : Type}
    (sec : TaskSection Entry)
    {cfg : Config}
    {new : Entry}
    (hListed : sec.path new ∈ cfg.taskPaths sec.kind)
    (hTasks : s.TasksListed cfg) :
    (startEntry sec cfg s new).TasksListed cfg := by
  intro kind path entry hEntry
  unfold startEntry at hEntry
  split at hEntry
  · rcases tasks_spawnTask hEntry with ⟨rfl, rfl⟩ | hWas
    · exact hListed
    · exact hTasks kind path entry hWas
  · exact hTasks kind path entry hEntry

theorem tasksListed_bootstrap (cfg : Config) :
    (bootstrap cfg).TasksListed cfg := by
  unfold bootstrap
  apply foldl_keeps (I := TasksListed cfg)
  · intro t rc hMem hTasks
    exact
      tasksListed_startEntry relaySection
        (List.mem_map_of_mem hMem) hTasks
  · apply foldl_keeps (I := TasksListed cfg)
    · intro t ac hMem hTasks
      exact
        tasksListed_startEntry autodjSection
          (List.mem_map_of_mem hMem) hTasks
    · apply foldl_keeps (I := TasksListed cfg)
      · intro t mc _ hTasks
        exact hTasks
      · intro kind path entry hEntry
        cases hEntry

end RustyIce
