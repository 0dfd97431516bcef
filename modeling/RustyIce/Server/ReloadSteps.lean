import RustyIce.Server.PathAgreement

/-
  The iterations of a reload, one step each, for runs in
  which requests arrive between them.

  Main declarations:
    * `ReloadStep`, `reloadSteps`
    * `applySections_eq_foldl`
    * `registered_exec`
-/

------------------------------------------------------------
-- Steps
------------------------------------------------------------

namespace RustyIce

/- One iteration of one of the six loops of a reload. -/
inductive ReloadStep where
| mount (mc : MountConfig)
| unmount (old : MountConfig)
| stopAutodj (old : AutoDjConfig)
| autodj (new : AutoDjConfig)
| stopRelay (old : RelayConfig)
| relay (new : RelayConfig)
deriving DecidableEq, Repr

def ReloadStep.exec
    (old new : Config)
    (s : ServerState) : ReloadStep → ServerState
| .mount mc => applyMount new s mc
| .unmount mc =>
    dropMount (new.mounts.map MountConfig.path) s mc
| .stopAutodj ac =>
    dropEntry autodjSection
      (new.autodjs.map autodjSection.path) s ac
| .autodj ac =>
    applyEntry autodjSection old.autodjs new s ac
| .stopRelay rc =>
    dropEntry relaySection
      (new.relays.map relaySection.path) s rc
| .relay rc =>
    applyEntry relaySection old.relays new s rc

/- The iterations of a reload, in order. -/
def reloadSteps (old new : Config) : List ReloadStep :=
  new.mounts.map .mount ++
    (old.mounts.map .unmount ++
      (old.autodjs.map .stopAutodj ++
        (new.autodjs.map .autodj ++
          (old.relays.map .stopRelay ++
            new.relays.map .relay))))

/- Taken one after the other they are the reload. -/
theorem applySections_eq_foldl
    (new : Config)
    (s : ServerState) :
    applySections new s =
      (reloadSteps s.config new).foldl
        (fun t step => step.exec s.config new t) s := by
  unfold applySections reloadSteps diffMounts diffEntries
  simp only [List.foldl_append, List.foldl_map]
  rfl

end RustyIce

------------------------------------------------------------
-- Registered Paths
------------------------------------------------------------

namespace RustyIce

open ServerState

/- Registration is read off the view. -/
theorem registered_iff_view
    (s : ServerState)
    (path : String) :
    s.mounts.Registered path ↔
      (s.view path).mount.isSome = true := Iff.rfl

theorem registered_applyMount
    {cfg : Config}
    {s : ServerState}
    {path : String}
    (mc : MountConfig)
    (hThere : s.mounts.Registered path) :
    (applyMount cfg s mc).mounts.Registered path := by
  rw [registered_iff_view] at hThere ⊢
  by_cases hPath : path = mc.path
  · rcases view_applyMount_self cfg s mc with
      ⟨mount, hView, _⟩
    rw [hPath, hView]
    rfl
  · rw [view_applyMount_other cfg s hPath]
    exact hThere

theorem registered_applyMount_self
    (cfg : Config)
    (s : ServerState)
    (mc : MountConfig) :
    (applyMount cfg s mc).mounts.Registered mc.path := by
  rcases view_applyMount_self cfg s mc with
    ⟨mount, hView, _⟩
  rw [registered_iff_view, hView]
  rfl

theorem registered_applyEntry {Entry : Type}
    (sec : TaskSection Entry)
    (olds : List Entry)
    {cfg : Config}
    {s : ServerState}
    {path : String}
    (new : Entry)
    (hThere : s.mounts.Registered path) :
    (applyEntry sec olds cfg s new).mounts.Registered
      path := by
  rw [registered_iff_view] at hThere ⊢
  by_cases hPath : path = sec.path new
  · cases hRespawn : needsRespawn sec olds new with
    | true =>
        rcases
            view_applyEntry_respawn sec olds cfg s hRespawn
          with ⟨mount, token, hView, _⟩
        rw [hPath, hView]
        rfl
    | false =>
        rw [view_applyEntry_keep sec olds cfg s hRespawn]
        exact hThere
  · rw [view_applyEntry_other sec olds cfg s hPath]
    exact hThere

/-
  No iteration unregisters a path the new plain section
  lists, if the old task sections did not list it.
-/
theorem registered_exec
    {old new : Config}
    {step : ReloadStep}
    (hStep : step ∈ reloadSteps old new)
    {path : String}
    (hListed : path ∈ new.mountPaths)
    (hAutodj : path ∉ old.autodjPaths)
    (hRelay : path ∉ old.relayPaths)
    {s : ServerState}
    (hThere : s.mounts.Registered path) :
    (step.exec old new s).mounts.Registered path := by
  cases step with
  | mount mc => exact registered_applyMount mc hThere
  | autodj ac =>
      exact registered_applyEntry _ _ ac hThere
  | relay rc =>
      exact registered_applyEntry _ _ rc hThere
  | unmount mc =>
      have hView :
          (dropMount new.mountPaths s mc).view path =
            s.view path :=
        view_dropMount_other _ s (.inr hListed)
      rw [registered_iff_view, ← hView] at hThere
      exact hThere
  | stopAutodj ac =>
      have hMem : ac ∈ old.autodjs := by
        simpa [reloadSteps] using hStep
      have hOther : path ≠ autodjSection.path ac := by
        intro hPath
        exact hAutodj (hPath ▸ List.mem_map_of_mem hMem)
      have hView :=
        view_dropEntry_other autodjSection
          (new.autodjs.map autodjSection.path) s
          (.inl hOther)
      rw [registered_iff_view, ← hView] at hThere
      exact hThere
  | stopRelay rc =>
      have hMem : rc ∈ old.relays := by
        simpa [reloadSteps] using hStep
      have hOther : path ≠ relaySection.path rc := by
        intro hPath
        exact hRelay (hPath ▸ List.mem_map_of_mem hMem)
      have hView :=
        view_dropEntry_other relaySection
          (new.relays.map relaySection.path) s (.inl hOther)
      rw [registered_iff_view, ← hView] at hThere
      exact hThere

end RustyIce

------------------------------------------------------------
-- Configuration And Credentials
------------------------------------------------------------

namespace RustyIce

open ServerState

theorem settings_applyEntry {Entry : Type}
    (sec : TaskSection Entry)
    (olds : List Entry)
    (cfg : Config)
    (s : ServerState)
    (new : Entry) :
    (applyEntry sec olds cfg s new).settings =
      s.settings := by
  have hEnsure :
      ∀ t : ServerState,
        (ensureMount sec cfg t new).settings =
          t.settings := by
    intro t
    unfold ensureMount
    split
    · rfl
    · rfl
  unfold applyEntry
  split
  · split
    · exact
        (settings_spawnTask _ _ _ _).trans
          ((hEnsure _).trans (settings_cancelTask _ _ _))
    · exact (hEnsure _).trans (settings_cancelTask _ _ _)
  · exact settings_swapInfo _ _ _

theorem settings_dropEntry {Entry : Type}
    (sec : TaskSection Entry)
    (newPaths : List String)
    (s : ServerState)
    (old : Entry) :
    (dropEntry sec newPaths s old).settings =
      s.settings := by
  unfold dropEntry
  split
  · rfl
  · exact settings_cancelTask s _ _

/- An iteration touches neither. -/
theorem settings_exec
    (old new : Config)
    (s : ServerState)
    (step : ReloadStep) :
    (step.exec old new s).settings = s.settings := by
  cases step with
  | mount mc =>
      show (applyMount new s mc).settings = s.settings
      unfold applyMount
      split
      · exact settings_swapInfo _ _ _
      · rfl
  | unmount mc =>
      show (dropMount _ s mc).settings = s.settings
      unfold dropMount
      split
      · rfl
      · rfl
  | stopAutodj ac => exact settings_dropEntry _ _ s ac
  | stopRelay rc => exact settings_dropEntry _ _ s rc
  | autodj ac => exact settings_applyEntry _ _ new s ac
  | relay rc => exact settings_applyEntry _ _ new s rc

end RustyIce
