import RustyIce.Library.Machine
import RustyIce.Server.PathAgreement
import RustyIce.Server.SourceProtocol

/-
  The running server: started from a valid configuration,
  reconfigured any number of times, with sources that name
  new paths, go, and change their mounts.

  What a source or a task does to its mount is any change
  that leaves the path of the mount alone.

  Main declarations:
    * `ServerEvent`, `serverMachine`
    * `ServerState.Tidy`, `ServerState.Operational`
    * `tidy_of_reachable`, `valid_of_reachable`
-/

------------------------------------------------------------
-- Events
------------------------------------------------------------

namespace RustyIce

open Library

/-
  A reload or an accepted save, the first source of a path,
  the end of such a source, a change to a mount by those who
  hold it, and the cancellation of a source.
-/
inductive ServerEvent where
| apply (new : Config)
| firstConnect (path : String) (codec : CodecId)
| forget (path : String)
| change (id : MountId) (mount : ActiveMount)
| cancel (token : Token)

namespace ServerState

def setMount
    (s : ServerState)
    (id : MountId)
    (mount : ActiveMount) : ServerState :=
  { s with
    heap := fun i => if i = id then mount else s.heap i }

def cancel
    (s : ServerState)
    (token : Token) : ServerState :=
  { s with
    cancelled := fun t =>
      if t = token then true else s.cancelled t }

end ServerState

/-
  Only valid configurations are applied, and only a path
  that is not registered gets a dynamic mount.
-/
def ServerEvent.exec
    (s : ServerState) : ServerEvent → Option ServerState
| .apply new =>
    match new.validatePaths with
    | .ok _ => some (applied new s)
    | .error _ => none
| .firstConnect path codec =>
    if s.mounts.Registered path then none
    else some (s.createDynamicMount path codec)
| .forget path => some (s.unregister path)
| .change id mount =>
    if mount.info.path = (s.heap id).info.path then
      some (s.setMount id mount)
    else
      none
| .cancel token => some (s.cancel token)

def serverMachine : Machine ServerState ServerEvent where
  init := fun s =>
    ∃ cfg : Config,
      cfg.validatePaths = .ok () ∧ s = bootstrap cfg
  step := ServerEvent.exec

end RustyIce

------------------------------------------------------------
-- Names And Tokens
------------------------------------------------------------

namespace RustyIce

namespace ServerState

/-
  A mount object is registered under its own path only, a
  task has a mount of its own path, and no two tasks share a
  token.
-/
structure Tidy (s : ServerState) : Prop where
  path :
    ∀ path id, s.mounts path = some id →
      (s.heap id).info.path = path
  made : ∀ path id, s.mounts path = some id → id < s.nextMount
  placed :
    ∀ kind path entry, s.tasks kind path = some entry →
      entry.mount < s.nextMount ∧
        (s.heap entry.mount).info.path = path
  drawn :
    ∀ kind path entry, s.tasks kind path = some entry →
      entry.cancel < s.nextToken
  apart :
    ∀ kind path entry kind' path' entry',
      s.tasks kind path = some entry →
        s.tasks kind' path' = some entry' →
          entry.cancel = entry'.cancel →
            kind = kind' ∧ path = path'

namespace Tidy

variable {s : ServerState}

theorem registerMount
    (hTidy : s.Tidy)
    (info : MountInfo)
    (bus : BusSize) :
    (s.registerMount info bus).Tidy where
  path := by
    intro path id hMount
    simp only [ServerState.registerMount, MountRegistry.add]
      at hMount ⊢
    split at hMount
    · rename_i hPath
      cases hMount
      rw [if_pos rfl, hPath]
      rfl
    · have hMade := hTidy.made path id hMount
      rw [if_neg (Nat.ne_of_lt hMade)]
      exact hTidy.path path id hMount
  made := by
    intro path id hMount
    simp only [ServerState.registerMount, MountRegistry.add]
      at hMount ⊢
    split at hMount
    · cases hMount
      exact Nat.lt_succ_self _
    · exact Nat.lt_succ_of_lt (hTidy.made path id hMount)
  placed := by
    intro kind path entry hEntry
    have hPlaced := hTidy.placed kind path entry hEntry
    refine ⟨Nat.lt_succ_of_lt hPlaced.1, ?_⟩
    simp only [ServerState.registerMount]
    rw [if_neg (Nat.ne_of_lt hPlaced.1)]
    exact hPlaced.2
  drawn := hTidy.drawn
  apart := hTidy.apart

theorem unregister
    (hTidy : s.Tidy)
    (path : String) :
    (s.unregister path).Tidy where
  path := by
    intro p id hMount
    simp only [ServerState.unregister, MountRegistry.remove]
      at hMount
    split at hMount
    · cases hMount
    · exact hTidy.path p id hMount
  made := by
    intro p id hMount
    simp only [ServerState.unregister, MountRegistry.remove]
      at hMount
    split at hMount
    · cases hMount
    · exact hTidy.made p id hMount
  placed := hTidy.placed
  drawn := hTidy.drawn
  apart := hTidy.apart

theorem setMount
    (hTidy : s.Tidy)
    {id : MountId}
    {mount : ActiveMount}
    (hPath : mount.info.path = (s.heap id).info.path) :
    (s.setMount id mount).Tidy where
  path := by
    intro path i hMount
    have hOld := hTidy.path path i hMount
    simp only [ServerState.setMount]
    split
    · rename_i hSame
      rw [hPath, ← hSame]
      exact hOld
    · exact hOld
  made := hTidy.made
  placed := by
    intro kind path entry hEntry
    have hPlaced := hTidy.placed kind path entry hEntry
    refine ⟨hPlaced.1, ?_⟩
    simp only [ServerState.setMount]
    split
    · rename_i hSame
      rw [hPath, ← hSame]
      exact hPlaced.2
    · exact hPlaced.2
  drawn := hTidy.drawn
  apart := hTidy.apart

theorem swapInfo
    (hTidy : s.Tidy)
    (path : String)
    {change : MountInfo → MountInfo}
    (hChange : ∀ info, (change info).path = info.path) :
    (s.swapInfo path change).Tidy := by
  unfold ServerState.swapInfo
  cases s.mounts path with
  | none => exact hTidy
  | some id =>
      have hPath :
          (change (s.heap id).info).path =
            (s.heap id).info.path := hChange _
      constructor
      · intro p i hMount
        have hOld := hTidy.path p i hMount
        show (if i = id then _ else _ : ActiveMount).info.path
          = p
        split
        · rw [hChange]
          exact hOld
        · exact hOld
      · exact hTidy.made
      · intro kind p entry hEntry
        have hPlaced := hTidy.placed kind p entry hEntry
        refine ⟨hPlaced.1, ?_⟩
        show (if entry.mount = id then _ else _ :
          ActiveMount).info.path = p
        split
        · rw [hChange]
          exact hPlaced.2
        · exact hPlaced.2
      · exact hTidy.drawn
      · exact hTidy.apart

theorem cancelTask
    (hTidy : s.Tidy)
    (kind : TaskKind)
    (path : String) :
    (s.cancelTask kind path).Tidy := by
  unfold ServerState.cancelTask
  cases s.tasks kind path with
  | none => exact hTidy
  | some gone =>
      -- What is left is an entry of before.
      have hLeft :
          ∀ k p entry,
            (s.setTask kind path none).tasks k p =
                some entry →
              s.tasks k p = some entry := by
        intro k p entry hEntry
        simp only [setTask] at hEntry
        split at hEntry
        · cases hEntry
        · exact hEntry
      constructor
      · exact hTidy.path
      · exact hTidy.made
      · intro k p entry hEntry
        exact hTidy.placed k p entry (hLeft k p entry hEntry)
      · intro k p entry hEntry
        exact hTidy.drawn k p entry (hLeft k p entry hEntry)
      · intro k p entry k' p' entry' hEntry hEntry' hSame
        exact
          hTidy.apart k p entry k' p' entry'
            (hLeft k p entry hEntry)
            (hLeft k' p' entry' hEntry') hSame

/- A new task has a token nobody has. -/
theorem spawnTask
    (hTidy : s.Tidy)
    (kind : TaskKind)
    (path : String)
    (cfg : TaskConfig) :
    (s.spawnTask kind path cfg).Tidy := by
  unfold ServerState.spawnTask
  cases hMount : s.mounts path with
  | none => exact hTidy
  | some mount =>
      have hCases :
          ∀ k p entry,
            (s.setTask kind path
                (some ⟨cfg, s.nextToken, mount⟩)).tasks k p =
                some entry →
              (k = kind ∧ p = path ∧
                  entry.cancel = s.nextToken ∧
                    entry.mount = mount) ∨
                s.tasks k p = some entry ∧
                  entry.cancel < s.nextToken := by
        intro k p entry hEntry
        simp only [setTask] at hEntry
        split at hEntry
        · rename_i hHere
          cases hEntry
          exact .inl ⟨hHere.1, hHere.2, rfl, rfl⟩
        · exact
            .inr ⟨hEntry, hTidy.drawn k p entry hEntry⟩
      constructor
      · exact hTidy.path
      · exact hTidy.made
      · intro k p entry hEntry
        rcases hCases k p entry hEntry with
          ⟨_, hP, _, hOn⟩ | ⟨hOld, _⟩
        · rw [hP, hOn]
          exact
            ⟨hTidy.made path mount hMount,
              hTidy.path path mount hMount⟩
        · exact hTidy.placed k p entry hOld
      · intro k p entry hEntry
        rcases hCases k p entry hEntry with
          ⟨_, _, hToken, _⟩ | ⟨_, hToken⟩
        · rw [hToken]
          exact Nat.lt_succ_self _
        · exact Nat.lt_succ_of_lt hToken
      · intro k p entry k' p' entry' hEntry hEntry' hSame
        rcases hCases k p entry hEntry with
          ⟨hK, hP, hToken, _⟩ | ⟨hOld, hToken⟩
        · rcases hCases k' p' entry' hEntry' with
            ⟨hK', hP', _⟩ | ⟨_, hToken'⟩
          · exact ⟨hK.trans hK'.symm, hP.trans hP'.symm⟩
          · rw [← hSame, hToken] at hToken'
            exact absurd hToken' (Nat.lt_irrefl _)
        · rcases hCases k' p' entry' hEntry' with
            ⟨_, _, hToken', _⟩ | ⟨hOld', _⟩
          · rw [hSame, hToken'] at hToken
            exact absurd hToken (Nat.lt_irrefl _)
          · exact
              hTidy.apart k p entry k' p' entry' hOld hOld'
                hSame

end Tidy

end ServerState

end RustyIce

------------------------------------------------------------
-- Reachable Servers
------------------------------------------------------------

namespace RustyIce

open Library Library.Keyed

namespace ServerState

/-
  A property of servers that every operation keeps, as long
  as the buses have sizes that fit.
-/
structure Operational
    (fits : BusSize → Prop)
    (I : ServerState → Prop) : Prop where
  registerMount :
    ∀ {s : ServerState} info {bus}, fits bus → I s →
      I (s.registerMount info bus)
  unregister :
    ∀ {s : ServerState} path, I s → I (s.unregister path)
  swapInfo :
    ∀ {s : ServerState} path {change},
      (∀ info, (change info).path = info.path) → I s →
        I (s.swapInfo path change)
  cancelTask :
    ∀ {s : ServerState} kind path, I s →
      I (s.cancelTask kind path)
  spawnTask :
    ∀ {s : ServerState} kind path cfg, I s →
      I (s.spawnTask kind path cfg)
  settings :
    ∀ {s : ServerState} cfg auth, I s →
      I { s with config := cfg, auth := auth }

namespace Operational

variable {fits : BusSize → Prop}
variable {I : ServerState → Prop}
variable {cfg : Config}
variable {s : ServerState}
variable {Entry : Type}

theorem applyMount
    (hKept : Operational fits I)
    (hFits : ∀ burst, fits (busSize cfg burst))
    (mc : MountConfig)
    (hI : I s) :
    I (RustyIce.applyMount cfg s mc) := by
  unfold RustyIce.applyMount
  split
  · exact hKept.swapInfo _ (fun _ => rfl) hI
  · exact hKept.registerMount _ (hFits _) hI

theorem dropMount
    (hKept : Operational fits I)
    (newPaths : List String)
    (old : MountConfig)
    (hI : I s) :
    I (RustyIce.dropMount newPaths s old) := by
  unfold RustyIce.dropMount
  split
  · exact hI
  · exact hKept.unregister _ hI

theorem dropEntry
    (hKept : Operational fits I)
    (sec : TaskSection Entry)
    (newPaths : List String)
    (old : Entry)
    (hI : I s) :
    I (RustyIce.dropEntry sec newPaths s old) := by
  unfold RustyIce.dropEntry
  split
  · exact hI
  · exact hKept.unregister _ (hKept.cancelTask _ _ hI)

theorem applyEntry
    (hKept : Operational fits I)
    (hFits : ∀ burst, fits (busSize cfg burst))
    (sec : TaskSection Entry)
    (olds : List Entry)
    (new : Entry)
    (hI : I s) :
    I (RustyIce.applyEntry sec olds cfg s new) := by
  have hEnsured :
      I (ensureMount sec cfg
        (s.cancelTask sec.kind (sec.path new)) new) := by
    have hStopped := hKept.cancelTask sec.kind (sec.path new) hI
    unfold ensureMount
    split
    · exact hKept.registerMount _ (hFits _) hStopped
    · exact hStopped
  unfold RustyIce.applyEntry
  split
  · split
    · exact hKept.spawnTask _ _ _ hEnsured
    · exact hEnsured
  · exact hKept.swapInfo _ (fun _ => rfl) hI

theorem startEntry
    (hKept : Operational fits I)
    (hFits : ∀ burst, fits (busSize cfg burst))
    (sec : TaskSection Entry)
    (entry : Entry)
    (hI : I s) :
    I (RustyIce.startEntry sec cfg s entry) := by
  have hThere := hKept.registerMount (sec.info entry)
    (hFits (sec.burstSize entry)) hI
  unfold RustyIce.startEntry
  split
  · exact hKept.spawnTask _ _ _ hThere
  · exact hThere

theorem diffMounts
    (hKept : Operational fits I)
    (hFits : ∀ burst, fits (busSize cfg burst))
    (olds news : List MountConfig)
    (hI : I s) :
    I (RustyIce.diffMounts olds news cfg s) := by
  unfold RustyIce.diffMounts
  apply foldl_keeps _ fun _ old _ h =>
    hKept.dropMount _ old h
  exact
    foldl_keeps _
      (fun _ mc _ h => hKept.applyMount hFits mc h) hI

theorem diffEntries
    (hKept : Operational fits I)
    (hFits : ∀ burst, fits (busSize cfg burst))
    (sec : TaskSection Entry)
    (olds news : List Entry)
    (hI : I s) :
    I (RustyIce.diffEntries sec olds news cfg s) := by
  unfold RustyIce.diffEntries
  apply foldl_keeps _ fun _ new _ h =>
    hKept.applyEntry hFits sec olds new h
  exact
    foldl_keeps _
      (fun _ old _ h => hKept.dropEntry sec _ old h) hI

/- What the operations keep, a start from nothing builds. -/
theorem bootstrap
    (hKept : Operational fits I)
    (hFits : ∀ burst, fits (busSize cfg burst))
    (hEmpty : I (emptyServer cfg)) :
    I (RustyIce.bootstrap cfg) := by
  unfold RustyIce.bootstrap
  apply foldl_keeps _ fun _ rc _ h =>
    hKept.startEntry hFits relaySection rc h
  apply foldl_keeps _ fun _ ac _ h =>
    hKept.startEntry hFits autodjSection ac h
  exact
    foldl_keeps _
      (fun _ mc _ h =>
        hKept.registerMount (mountInfo mc)
          (hFits mc.burstSize) h)
      hEmpty

/- And so does a reload. -/
theorem applied
    (hKept : Operational fits I)
    (hFits : ∀ burst, fits (busSize cfg burst))
    (hI : I s) :
    I (RustyIce.applied cfg s) := by
  have hStart := hKept.settings s.config (.new cfg) hI
  have hMounts :=
    hKept.diffMounts hFits s.config.mounts cfg.mounts hStart
  have hAutodjs :=
    hKept.diffEntries hFits autodjSection s.config.autodjs
      cfg.autodjs hMounts
  have hRelays :=
    hKept.diffEntries hFits relaySection s.config.relays
      cfg.relays hAutodjs
  exact hKept.settings cfg _ hRelays

end Operational

theorem tidy_emptyServer (cfg : Config) :
    (emptyServer cfg).Tidy where
  path := by
    intro path id hMount
    cases hMount
  made := by
    intro path id hMount
    cases hMount
  placed := by
    intro kind path entry hEntry
    cases hEntry
  drawn := by
    intro kind path entry hEntry
    cases hEntry
  apart := by
    intro kind path entry kind' path' entry' hEntry
    cases hEntry

/- The credentials and the configuration play no part. -/
theorem Tidy.withSettings
    {s : ServerState}
    (hTidy : s.Tidy)
    (cfg : Config)
    (auth : TomlBcryptAuth) :
    ServerState.Tidy
      { s with config := cfg, auth := auth } where
  path := hTidy.path
  made := hTidy.made
  placed := hTidy.placed
  drawn := hTidy.drawn
  apart := hTidy.apart

theorem operational_tidy :
    Operational (fun _ => True) Tidy where
  registerMount := by
    intro s info bus _ hTidy
    exact hTidy.registerMount info bus
  unregister := by
    intro s path hTidy
    exact hTidy.unregister path
  swapInfo := by
    intro s path change hChange hTidy
    exact hTidy.swapInfo path hChange
  cancelTask := by
    intro s kind path hTidy
    exact hTidy.cancelTask kind path
  spawnTask := by
    intro s kind path cfg hTidy
    exact hTidy.spawnTask kind path cfg
  settings := by
    intro s cfg auth hTidy
    exact hTidy.withSettings cfg auth

theorem tidy_bootstrap (cfg : Config) :
    (RustyIce.bootstrap cfg).Tidy :=
  operational_tidy.bootstrap (fun _ => trivial)
    (tidy_emptyServer cfg)

end ServerState

open ServerState

theorem tidy_of_exec
    {s t : ServerState}
    {event : ServerEvent}
    (hTidy : s.Tidy)
    (hStep : event.exec s = some t) :
    t.Tidy := by
  cases event with
  | apply new =>
      simp only [ServerEvent.exec] at hStep
      split at hStep
      · cases hStep
        exact
          operational_tidy.applied (fun _ => trivial) hTidy
      · cases hStep
  | firstConnect path codec =>
      simp only [ServerEvent.exec] at hStep
      split at hStep
      · cases hStep
      · cases hStep
        exact hTidy.registerMount _ _
  | forget path =>
      cases hStep
      exact hTidy.unregister path
  | change id mount =>
      simp only [ServerEvent.exec] at hStep
      split at hStep
      · rename_i hPath
        cases hStep
        exact hTidy.setMount hPath
      · cases hStep
  | cancel token =>
      cases hStep
      exact
        { path := hTidy.path
          made := hTidy.made
          placed := hTidy.placed
          drawn := hTidy.drawn
          apart := hTidy.apart }

theorem tidy_of_reachable
    {s : ServerState}
    (hReach : serverMachine.Reachable s) :
    s.Tidy := by
  refine Machine.ReachableUnder.invariant (I := Tidy)
    ?_ ?_ hReach
  · rintro _ ⟨cfg, _, rfl⟩
    exact tidy_bootstrap cfg
  · intro s event t hTidy _ hStep
    exact tidy_of_exec hTidy hStep

theorem valid_of_exec
    {s t : ServerState}
    {event : ServerEvent}
    (hValid : s.config.validatePaths = .ok ())
    (hStep : event.exec s = some t) :
    t.config.validatePaths = .ok () := by
  cases event with
  | apply new =>
      simp only [ServerEvent.exec] at hStep
      split at hStep
      · rename_i hNew
        cases hStep
        exact hNew
      · cases hStep
  | firstConnect path codec =>
      simp only [ServerEvent.exec] at hStep
      split at hStep
      · cases hStep
      · cases hStep
        exact hValid
  | forget path =>
      cases hStep
      exact hValid
  | change id mount =>
      simp only [ServerEvent.exec] at hStep
      split at hStep
      · cases hStep
        exact hValid
      · cases hStep
  | cancel token =>
      cases hStep
      exact hValid

/- The running configuration passed the check on paths. -/
theorem valid_of_reachable
    {s : ServerState}
    (hReach : serverMachine.Reachable s) :
    s.config.validatePaths = .ok () := by
  refine Machine.ReachableUnder.invariant
    (I := fun t => t.config.validatePaths = .ok ())
    ?_ ?_ hReach
  · rintro _ ⟨cfg, hValid, rfl⟩
    rw [config_bootstrap]
    exact hValid
  · intro s event t hValid _ hStep
    exact valid_of_exec hValid hStep

end RustyIce
