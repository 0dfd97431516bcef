import RustyIce.Auth.CredentialReload
import RustyIce.Server.ReloadSteps

/-
  Who may upload: source requests, dynamic mounts and
  reloads on one server, in any order.

  A request looks its path up in the registry and is checked
  later, by one rule if the path was there and by another if
  it was not. A check loads one or two cells of the credential
  store, one a step. A reload stores the three cells first,
  one a step, and then runs its loops one iteration at a time,
  while requests go on. What follows from the verdict of a
  check is one step with its last load. Whether a slot is
  free and a codec taken is left open: an admitted request
  may be refused at any time before it streams.

  Main declarations:
    * `UploadServer`, `uploadMachine`
    * `Acceptance`, `AuthorisationFollows`
    * `UploadsKept`
    * `authorisation_follows`
-/

------------------------------------------------------------
-- Requests And Reloads
------------------------------------------------------------

namespace RustyIce

/-
  How far a source request has come. One that falls back has
  found no password of its own in the mount table.
-/
inductive UploadPhase where
| looked (known : Bool)
| fallback
| admitted (dynamic : Bool)
| streaming (dynamic : Bool)
| over
deriving DecidableEq, Repr

structure Upload where
  path : String
  password : String
  codec : CodecId
  phase : UploadPhase
deriving DecidableEq, Repr

/- A reload, and the iterations of its loops to come. -/
structure Reloading where
  old : Config
  new : Config
  todo : List ReloadStep
deriving DecidableEq, Repr

/- Before the loops come the stores of the credentials. -/
structure UploadReload extends Reloading where
  stores : List CredentialStore
deriving DecidableEq, Repr

/-
  A request that was accepted, and the configurations that
  were last applied then: both of a reload that has not
  stored all of its credentials.
-/
structure Acceptance where
  path : String
  password : String
  applied : List Config
deriving DecidableEq, Repr

structure UploadServer where
  server : ServerState
  reloading : Option UploadReload
  uploads : List Upload
  accepted : List Acceptance

namespace UploadServer

/- The configuration last handed to the server. -/
def lastApplied (s : UploadServer) : Config :=
  match s.reloading with
  | some r => r.new
  | none => s.server.config

/- With the one before, as long as credentials are stored. -/
def applied (s : UploadServer) : List Config :=
  match s.reloading with
  | some r => if r.stores = [] then [r.new] else [r.old, r.new]
  | none => [s.server.config]

/- A request's next phase. -/
def setPhase
    (s : UploadServer)
    (i : Nat)
    (phase : UploadPhase) : UploadServer :=
  { s with
    uploads :=
      s.uploads.modify i fun u => { u with phase := phase } }

end UploadServer

/- Events on the server. -/
inductive UploadLabel where
| restart (cfg : Config)
| apply (new : Config)
| storeCell
| iterate
| store
| lookup (path password : String) (codec : CodecId)
| check (i : Nat)
| refuse (i : Nat)
| claim (i : Nat)
| disconnect (i : Nat)
deriving DecidableEq, Repr

namespace UploadServer

/- The server after a start. -/
def started (cfg : Config) : UploadServer where
  server := bootstrap cfg
  reloading := none
  uploads := []
  accepted := []

/- A request is accepted. -/
def accept
    (s : UploadServer)
    (u : Upload) : UploadServer :=
  { s with
    accepted :=
      s.accepted ++
        [{ path := u.path
           password := u.password
           applied := s.applied }] }

/- The verdict over a request for a registered mount. -/
def resolve
    (s : UploadServer)
    (i : Nat)
    (u : Upload)
    (verdict : Bool) : UploadServer :=
  if verdict then
    (s.accept u).setPhase i (.admitted false)
  else
    s.setPhase i .over

/- The verdict over one that creates its mount. -/
def resolveOrCreate
    (s : UploadServer)
    (i : Nat)
    (u : Upload)
    (verdict : Bool) : UploadServer :=
  if verdict then
    { (s.accept u).setPhase i (.admitted true) with
      server := s.server.createDynamicMount u.path u.codec }
  else
    s.setPhase i .over

/- What a request does with the load of a check. -/
def loaded
    (s : UploadServer)
    (i : Nat)
    (u : Upload) : CheckPhase → UploadServer
| .loadMounts => s
| .loadDefault => s.setPhase i .fallback
| .verdict accepted => s.resolve i u accepted

/-
  The guard of a source that streamed: only a dynamic mount
  leaves the registry.
-/
def disconnected
    (s : UploadServer)
    (i : Nat)
    (dynamic : Bool)
    (u : Upload) : UploadServer :=
  if dynamic then
    { s.setPhase i .over with
      server := s.server.unregister u.path }
  else
    s.setPhase i .over

def step
    (s : UploadServer) : UploadLabel → Option UploadServer
| .restart cfg =>
    if cfg.validatePaths = .ok () then
      some { started cfg with accepted := s.accepted }
    else
      none
| .apply new =>
    if s.reloading = none ∧ new.validatePaths = .ok () then
      some
        { s with
          reloading :=
            some
              { old := s.server.config
                new := new
                todo := reloadSteps s.server.config new
                stores := reloadStores } }
    else
      none
| .storeCell =>
    match s.reloading with
    | none => none
    | some r =>
        match r.stores with
        | [] => none
        | op :: rest =>
            some
              { s with
                server :=
                  { s.server with
                    auth := op.exec r.new s.server.auth }
                reloading := some { r with stores := rest } }
| .iterate =>
    match s.reloading with
    | none => none
    | some r =>
        match r.stores, r.todo with
        | _ :: _, _ => none
        | [], [] => none
        | [], step :: rest =>
            some
              { s with
                server := step.exec r.old r.new s.server
                reloading := some { r with todo := rest } }
| .store =>
    match s.reloading with
    | none => none
    | some r =>
        if r.stores = [] ∧ r.todo = [] then
          some
            { s with
              server := { s.server with config := r.new }
              reloading := none }
        else
          none
| .lookup path password codec =>
    some
      { s with
        uploads :=
          s.uploads ++
            [{ path := path
               password := password
               codec := codec
               phase :=
                 .looked (s.server.mounts path).isSome }] }
| .check i =>
    match s.uploads[i]? with
    | none => none
    | some u =>
        match u.phase with
        | .looked true =>
            (CheckPhase.loadMounts.step u.path u.password
                s.server.auth).map
              (s.loaded i u)
        | .looked false =>
            some
              (s.resolveOrCreate i u
                (s.server.auth.verifyDefaultSource
                  u.password))
        | .fallback =>
            (CheckPhase.loadDefault.step u.path u.password
                s.server.auth).map
              (s.loaded i u)
        | .admitted _ => none
        | .streaming _ => none
        | .over => none
| .refuse i =>
    match s.uploads[i]? with
    | none => none
    | some u =>
        match u.phase with
        | .looked _ => some (s.setPhase i .over)
        | .fallback => some (s.setPhase i .over)
        | .admitted _ => some (s.setPhase i .over)
        | .streaming _ => none
        | .over => none
| .claim i =>
    match s.uploads[i]? with
    | none => none
    | some u =>
        match u.phase with
        | .admitted dynamic =>
            some (s.setPhase i (.streaming dynamic))
        | .looked _ => none
        | .fallback => none
        | .streaming _ => none
        | .over => none
| .disconnect i =>
    match s.uploads[i]? with
    | none => none
    | some u =>
        match u.phase with
        | .streaming dynamic =>
            some (s.disconnected i dynamic u)
        | .looked _ => none
        | .fallback => none
        | .admitted _ => none
        | .over => none

end UploadServer

/- The server from its first start on. -/
def uploadMachine :
    Library.Machine UploadServer UploadLabel where
  init := fun s =>
    ∃ cfg : Config,
      cfg.validatePaths = .ok () ∧
        s = UploadServer.started cfg
  step := UploadServer.step

/-
  Every request that was accepted had the password that a
  configuration last applied then asks for.
-/
def AuthorisationFollows (s : UploadServer) : Prop :=
  ∀ a ∈ s.accepted,
    ∃ cfg ∈ a.applied, Authorised cfg a.path a.password

end RustyIce

------------------------------------------------------------
-- Runs That Keep The Registry Whole
------------------------------------------------------------

namespace RustyIce

/- The global password decides over the request. -/
def UploadPhase.Unlisted : UploadPhase → Prop
| .looked false => True
| .fallback => True
| _ => False

instance (phase : UploadPhase) : Decidable phase.Unlisted :=
  match phase with
  | .looked true => isFalse id
  | .looked false => isTrue trivial
  | .fallback => isTrue trivial
  | .admitted _ => isFalse id
  | .streaming _ => isFalse id
  | .over => isFalse id

/-
  What keeps every listed mount registered and every request
  for one from the global password.

  A reload lists no path of a rotation or a relay as a plain
  mount, nor the path of a request that is already on its way
  to the global password. While a reload runs, no request
  looks up a listed path it has yet to register. While its
  credentials are stored, no check that finds no password in
  the mount table is of a path either configuration lists. A
  dynamic source whose path was listed meanwhile stays
  connected.
-/
def UploadsKept
    (s : UploadServer) : UploadLabel → Prop
| .apply new =>
    (∀ path ∈ new.mountPaths,
      path ∉ s.server.config.autodjPaths ∧
        path ∉ s.server.config.relayPaths) ∧
      ∀ u ∈ s.uploads,
        u.phase.Unlisted → u.path ∉ new.mountPaths
| .lookup path _ _ =>
    ∀ r ∈ s.reloading,
      path ∈ r.new.mountPaths →
        s.server.mounts.Registered path
| .check i =>
    ∀ u ∈ s.uploads[i]?,
      u.phase = .looked true →
        s.server.auth.mountPasswords u.path = none →
          ∀ cfg ∈ s.applied, u.path ∉ cfg.mountPaths
| .disconnect i =>
    ∀ u ∈ s.uploads[i]?,
      u.phase = .streaming true →
        ∀ cfg ∈ s.applied, u.path ∉ cfg.mountPaths
| .restart _ => True
| .storeCell => True
| .iterate => True
| .store => True
| .refuse _ => True
| .claim _ => True

/-
  A listed path is registered, or about to be; what only the
  old configuration lists may go once the loops run.
-/
def Listed (s : UploadServer) : Prop :=
  match s.reloading with
  | none =>
      ∀ path ∈ s.server.config.mountPaths,
        s.server.mounts.Registered path
  | some r =>
      (∀ path ∈ r.new.mountPaths,
        s.server.mounts.Registered path ∨
          ∃ mc, .mount mc ∈ r.todo ∧ mc.path = path) ∧
        (∀ step ∈ r.todo, step ∈ reloadSteps r.old r.new) ∧
          (∀ path ∈ r.new.mountPaths,
            path ∉ r.old.autodjPaths ∧
              path ∉ r.old.relayPaths) ∧
            (r.stores ≠ [] →
              ∀ path ∈ r.old.mountPaths,
                s.server.mounts.Registered path)

/- The cells as the stores so far left them. -/
def Stored (s : UploadServer) : Prop :=
  match s.reloading with
  | none => s.server.auth = .new s.server.config
  | some r =>
      ∃ done,
        reloadStores = done ++ r.stores ∧
          s.server.auth =
            done.foldl (fun cells op => op.exec r.new cells)
              (.new r.old)

/- What holds of every state of such a run. -/
structure UploadInv (s : UploadServer) : Prop where
  stored : Stored s
  unique : ∀ cfg ∈ s.applied, cfg.mountPaths.Nodup
  listed : Listed s
  unknown :
    ∀ u ∈ s.uploads,
      u.phase.Unlisted →
        ∀ cfg ∈ s.applied, u.path ∉ cfg.mountPaths
  follows : AuthorisationFollows s

end RustyIce

------------------------------------------------------------
-- Verdicts
------------------------------------------------------------

namespace RustyIce

variable {s : UploadServer}

theorem lastApplied_mem (s : UploadServer) :
    s.lastApplied ∈ s.applied := by
  unfold UploadServer.lastApplied UploadServer.applied
  cases s.reloading with
  | none => exact List.mem_singleton.mpr rfl
  | some r =>
      dsimp only
      split
      · exact List.mem_singleton.mpr rfl
      · exact List.mem_cons_of_mem _ (List.mem_singleton.mpr rfl)

/- Once all is stored, the credentials are the new ones. -/
theorem Stored.auth_eq
    (hStored : Stored s)
    (hDone : ∀ r ∈ s.reloading, r.stores = []) :
    s.server.auth = .new s.lastApplied := by
  unfold Stored at hStored
  unfold UploadServer.lastApplied
  cases hReloading : s.reloading with
  | none =>
      rw [hReloading] at hStored
      exact hStored
  | some r =>
      rw [hReloading] at hStored
      rcases hStored with ⟨done, hSplit, hAuth⟩
      rw [hDone r hReloading, List.append_nil] at hSplit
      rw [← hSplit] at hAuth
      have hReload := reload_eq_stores (.new r.old) r.new
      rw [← hAuth] at hReload
      exact (Except.ok.inj hReload).symm

/- Each cell is that of a configuration last applied. -/
theorem Stored.cells
    (hStored : Stored s) :
    (∃ cfg ∈ s.applied,
      s.server.auth.mountPasswords = mountMap cfg) ∧
      ∃ cfg ∈ s.applied,
        s.server.auth.defaultSourcePassword =
          cfg.auth.sourcePassword := by
  by_cases hDone : ∀ r ∈ s.reloading, r.stores = []
  · rw [hStored.auth_eq hDone]
    exact
      ⟨⟨s.lastApplied, lastApplied_mem s, rfl⟩,
        ⟨s.lastApplied, lastApplied_mem s, rfl⟩⟩
  · rw [not_forall] at hDone
    rcases hDone with ⟨r, hDone⟩
    rw [Classical.not_imp] at hDone
    rcases hDone with ⟨hReloading, hStores⟩
    have hReload : s.reloading = some r := hReloading
    have hApplied : s.applied = [r.old, r.new] := by
      unfold UploadServer.applied
      rw [hReload]
      exact if_neg hStores
    have hOld : r.old ∈ s.applied := by
      rw [hApplied]
      exact List.mem_cons_self
    have hNew : r.new ∈ s.applied := by
      rw [hApplied]
      exact List.mem_cons_of_mem _ (List.mem_singleton.mpr rfl)
    unfold Stored at hStored
    rw [hReload] at hStored
    rcases hStored with ⟨done, hSplit, hAuth⟩
    rw [hAuth]
    -- The stores are few, and so are their beginnings.
    unfold reloadStores at hSplit
    rcases done with _ | ⟨op, _ | ⟨op', _ | ⟨op'', more⟩⟩⟩
    · exact ⟨⟨r.old, hOld, rfl⟩, ⟨r.old, hOld, rfl⟩⟩
    · rw [(List.cons.inj hSplit).1.symm]
      exact ⟨⟨r.old, hOld, rfl⟩, ⟨r.old, hOld, rfl⟩⟩
    · rcases List.cons.inj hSplit with ⟨hOp, hRest⟩
      rw [← hOp, ← (List.cons.inj hRest).1]
      exact ⟨⟨r.new, hNew, rfl⟩, ⟨r.old, hOld, rfl⟩⟩
    · simp only [List.cons_append, List.cons.injEq] at hSplit
      rcases List.append_eq_nil_iff.mp hSplit.2.2.2.symm with
        ⟨-, hNone⟩
      exact absurd hNone hStores

/- A verdict by the mount table is one of a configuration. -/
theorem UploadInv.of_table
    (hInv : UploadInv s)
    {path stored : String}
    (hTable :
      s.server.auth.mountPasswords path = some stored) :
    ∃ cfg ∈ s.applied, Authorised cfg path stored := by
  rcases hInv.stored.cells.1 with ⟨cfg, hApplied, hCell⟩
  rw [hCell] at hTable
  refine ⟨cfg, hApplied, ?_⟩
  apply
    (verifySource_iff_authorised (hInv.unique cfg hApplied) _
      _).mp
  exact
    (verdictUnder_listed hTable stored).trans
      (decide_eq_true rfl)

/- So is one by the global password, for an unlisted path. -/
theorem UploadInv.of_default
    (hInv : UploadInv s)
    {path password : String}
    (hUnlisted : ∀ cfg ∈ s.applied, path ∉ cfg.mountPaths)
    (hDefault :
      s.server.auth.verifyDefaultSource password = true) :
    ∃ cfg ∈ s.applied, Authorised cfg path password := by
  rcases hInv.stored.cells.2 with ⟨cfg, hApplied, hCell⟩
  unfold TomlBcryptAuth.verifyDefaultSource at hDefault
  rw [hCell] at hDefault
  exact
    ⟨cfg, hApplied,
      .inr
        ⟨hUnlisted cfg hApplied,
          of_decide_eq_true hDefault⟩⟩

/- A request that is accepted joins those that were. -/
theorem AuthorisationFollows.accept
    {u : Upload}
    (hFollows : AuthorisationFollows s)
    (hVerdict :
      ∃ cfg ∈ s.applied, Authorised cfg u.path u.password) :
    AuthorisationFollows (s.accept u) := by
  intro a hMem
  rcases List.mem_append.mp hMem with hOld | hNew
  · exact hFollows a hOld
  · rw [List.mem_singleton.mp hNew]
    exact hVerdict

end RustyIce

------------------------------------------------------------
-- Steps
------------------------------------------------------------

namespace RustyIce

open ServerState

/- A request that changed its phase is in the new one. -/
theorem mem_setPhase
    {s : UploadServer}
    {i : Nat}
    {phase : UploadPhase}
    {u : Upload}
    (hMem : u ∈ (s.setPhase i phase).uploads) :
    u ∈ s.uploads ∨
      ∃ v ∈ s.uploads[i]?, u = { v with phase := phase } := by
  unfold UploadServer.setPhase at hMem
  rcases List.mem_iff_getElem?.mp hMem with ⟨k, hk⟩
  rw [List.getElem?_modify] at hk
  rcases Option.map_eq_some_iff.mp hk with ⟨v, hv, hSame⟩
  by_cases hIndex : i = k
  · right
    rw [if_pos hIndex] at hSame
    rw [hIndex]
    exact ⟨v, hv, hSame.symm⟩
  · left
    rw [if_neg hIndex] at hSame
    rw [← hSame]
    exact List.mem_of_getElem? hv

/-
  A step that changes neither the configuration nor the
  reload, and unregisters no listed path, keeps them listed.
-/
theorem Listed.mono
    {s t : UploadServer}
    (hListed : Listed s)
    (hReloading : t.reloading = s.reloading)
    (hConfig : t.server.config = s.server.config)
    (hKeeps :
      ∀ cfg ∈ s.applied, ∀ path ∈ cfg.mountPaths,
        s.server.mounts.Registered path →
          t.server.mounts.Registered path) :
    Listed t := by
  unfold Listed at hListed ⊢
  rw [hReloading]
  cases hPhase : s.reloading with
  | none =>
      have hNow : s.server.config ∈ s.applied := by
        simp [UploadServer.applied, hPhase]
      rw [hPhase] at hListed
      intro path hPath
      rw [hConfig] at hPath
      exact hKeeps _ hNow path hPath (hListed path hPath)
  | some r =>
      have hNew : r.new ∈ s.applied := by
        have hLast := lastApplied_mem s
        unfold UploadServer.lastApplied at hLast
        rw [hPhase] at hLast
        exact hLast
      rw [hPhase] at hListed
      rcases hListed with ⟨hThere, hTodo, hApart, hOld⟩
      refine ⟨?_, hTodo, hApart, ?_⟩
      · intro path hPath
        rcases hThere path hPath with hRegistered | hPending
        · exact .inl (hKeeps _ hNew path hPath hRegistered)
        · exact .inr hPending
      · intro hStores path hPath
        have hBefore : r.old ∈ s.applied := by
          simp [UploadServer.applied, hPhase, hStores]
        exact
          hKeeps _ hBefore path hPath (hOld hStores path hPath)

/- A request on its way to the global password stays so. -/
theorem UploadInv.setPhase
    {s : UploadServer}
    (hInv : UploadInv s)
    (i : Nat)
    (phase : UploadPhase)
    (hPhase :
      phase.Unlisted →
        ∀ u ∈ s.uploads[i]?, ∀ cfg ∈ s.applied,
          u.path ∉ cfg.mountPaths) :
    UploadInv (s.setPhase i phase) where
  stored := hInv.stored
  unique := hInv.unique
  listed := hInv.listed
  unknown := by
    intro u hMem hUnlisted
    rcases mem_setPhase hMem with hOld | ⟨v, hSome, hNew⟩
    · exact hInv.unknown u hOld hUnlisted
    · rw [hNew] at hUnlisted ⊢
      exact hPhase hUnlisted v hSome
  follows := hInv.follows

theorem UploadInv.accept
    {s : UploadServer}
    (hInv : UploadInv s)
    {u : Upload}
    (hVerdict :
      ∃ cfg ∈ s.applied, Authorised cfg u.path u.password) :
    UploadInv (s.accept u) where
  stored := hInv.stored
  unique := hInv.unique
  listed := hInv.listed
  unknown := hInv.unknown
  follows := hInv.follows.accept hVerdict

/-
  Another registry under the same settings keeps the
  invariant, unless a listed path left it.
-/
theorem UploadInv.withServer
    {s : UploadServer}
    (hInv : UploadInv s)
    {server : ServerState}
    (hSettings : server.settings = s.server.settings)
    (hKeeps :
      ∀ cfg ∈ s.applied, ∀ path ∈ cfg.mountPaths,
        s.server.mounts.Registered path →
          server.mounts.Registered path) :
    UploadInv { s with server := server } := by
  have hConfig : server.config = s.server.config :=
    congrArg Prod.fst hSettings
  have hAuth : server.auth = s.server.auth :=
    congrArg Prod.snd hSettings
  have hApplied :
      UploadServer.applied { s with server := server } =
        s.applied := by
    unfold UploadServer.applied
    rw [hConfig]
  constructor
  · have hStored := hInv.stored
    unfold Stored at hStored ⊢
    simp only [hConfig, hAuth]
    exact hStored
  · rw [hApplied]
    exact hInv.unique
  · exact hInv.listed.mono rfl hConfig hKeeps
  · rw [hApplied]
    exact hInv.unknown
  · exact hInv.follows

theorem registered_createDynamicMount
    {s : ServerState}
    {path : String}
    (mountPath : String)
    (codec : CodecId)
    (hThere : s.mounts.Registered path) :
    (s.createDynamicMount mountPath codec).mounts.Registered
      path := by
  rw [registered_iff_view] at hThere ⊢
  by_cases hPath : path = mountPath
  · rw [hPath, view_createDynamicMount_self]
    rfl
  · rw [view_createDynamicMount_other s codec hPath]
    exact hThere

theorem registered_unregister
    {s : ServerState}
    {path other : String}
    (hOther : path ≠ other)
    (hThere : s.mounts.Registered path) :
    (s.unregister other).mounts.Registered path := by
  rw [registered_iff_view] at hThere ⊢
  rw [view_unregister_other s hOther]
  exact hThere

/- A started server. -/
theorem uploadInv_started
    {cfg : Config}
    (hValid : cfg.validatePaths = .ok ()) :
    UploadInv (.started cfg) where
  stored :=
    (auth_bootstrap cfg).trans
      (congrArg TomlBcryptAuth.new
        (config_bootstrap cfg).symm)
  unique := by
    intro other hMem
    rw [List.mem_singleton.mp hMem]
    show (bootstrap cfg).config.mountPaths.Nodup
    rw [config_bootstrap]
    exact (Config.sections_of_valid hValid).mounts
  listed := by
    show
      ∀ path ∈ (bootstrap cfg).config.mountPaths,
        (bootstrap cfg).mounts.Registered path
    rw [config_bootstrap]
    intro path hPath
    apply
      (bootstrap_pathAgrees hValid path).registered.mpr
    exact .inl ((cfg.mem_allPaths path).mpr (.inl hPath))
  unknown := List.forall_mem_nil _
  follows := List.forall_mem_nil _

/- The start of a reload; nothing is stored yet. -/
theorem uploadInv_apply
    {s : UploadServer}
    {new : Config}
    (hInv : UploadInv s)
    (hOk : UploadsKept s (.apply new))
    (hNone : s.reloading = none)
    (hValid : new.validatePaths = .ok ()) :
    UploadInv
      { s with
        reloading :=
          some
            { old := s.server.config
              new := new
              todo := reloadSteps s.server.config new
              stores := reloadStores } } := by
  have hApplied : s.applied = [s.server.config] := by
    unfold UploadServer.applied
    rw [hNone]
  have hOld : s.server.config ∈ s.applied := by
    rw [hApplied]
    exact List.mem_singleton.mpr rfl
  constructor
  · refine ⟨[], rfl, ?_⟩
    have hStored := hInv.stored
    unfold Stored at hStored
    rw [hNone] at hStored
    exact hStored
  · intro cfg hMem
    rcases List.mem_cons.mp hMem with rfl | hNew
    · exact hInv.unique _ hOld
    · rw [List.mem_singleton.mp hNew]
      exact (Config.sections_of_valid hValid).mounts
  · refine ⟨?_, fun step hStep => hStep, hOk.1, ?_⟩
    · intro path hPath
      rcases List.mem_map.mp hPath with ⟨mc, hMem, hSame⟩
      refine .inr ⟨mc, ?_, hSame⟩
      apply List.mem_append_left
      exact List.mem_map_of_mem hMem
    · intro _
      have hListed := hInv.listed
      unfold Listed at hListed
      rw [hNone] at hListed
      exact hListed
  · intro u hMem hUnlisted cfg hCfg
    rcases List.mem_cons.mp hCfg with rfl | hNew
    · exact hInv.unknown u hMem hUnlisted _ hOld
    · rw [List.mem_singleton.mp hNew]
      exact hOk.2 u hMem hUnlisted
  · exact hInv.follows

/- One cell more is stored. -/
theorem uploadInv_storeCell
    {s : UploadServer}
    (hInv : UploadInv s)
    {r : UploadReload}
    (hReloading : s.reloading = some r)
    {op : CredentialStore}
    {rest : List CredentialStore}
    (hStores : r.stores = op :: rest) :
    UploadInv
      { s with
        server :=
          { s.server with
            auth := op.exec r.new s.server.auth }
        reloading := some { r with stores := rest } } := by
  have hApplied : s.applied = [r.old, r.new] := by
    unfold UploadServer.applied
    rw [hReloading]
    simp [hStores]
  -- What counts as applied may only become less.
  have hFewer (cfg : Config)
      (hMem :
        cfg ∈
          (if rest = [] then [r.new] else [r.old, r.new])) :
      cfg ∈ s.applied := by
    rw [hApplied]
    split at hMem
    · exact List.mem_cons_of_mem _ hMem
    · exact hMem
  have hListed := hInv.listed
  unfold Listed at hListed
  rw [hReloading] at hListed
  constructor
  · have hStored := hInv.stored
    unfold Stored at hStored
    rw [hReloading] at hStored
    rcases hStored with ⟨done, hSplit, hAuth⟩
    refine ⟨done ++ [op], ?_, ?_⟩
    · rw [hSplit, hStores, List.append_assoc]
      rfl
    · rw [List.foldl_append, ← hAuth]
      rfl
  · intro cfg hMem
    exact hInv.unique cfg (hFewer cfg hMem)
  · refine
      ⟨hListed.1, hListed.2.1, hListed.2.2.1, fun _ => ?_⟩
    exact hListed.2.2.2 (by simp [hStores])
  · intro u hMem hUnlisted cfg hCfg
    exact hInv.unknown u hMem hUnlisted cfg (hFewer cfg hCfg)
  · exact hInv.follows

/- One iteration of a reload. -/
theorem uploadInv_iterate
    {s : UploadServer}
    (hInv : UploadInv s)
    {r : UploadReload}
    (hReloading : s.reloading = some r)
    (hStores : r.stores = [])
    {step : ReloadStep}
    {rest : List ReloadStep}
    (hTodo : r.todo = step :: rest) :
    UploadInv
      { s with
        server := step.exec r.old r.new s.server
        reloading :=
          some
            { r with
              toReloading := { r.toReloading with todo := rest } } } := by
  have hApplied :
      UploadServer.applied
          { s with
            server := step.exec r.old r.new s.server
            reloading :=
              some
                { r with
                  toReloading :=
                    { r.toReloading with todo := rest } } } =
        s.applied := by
    unfold UploadServer.applied
    rw [hReloading]
  have hListed := hInv.listed
  unfold Listed at hListed
  rw [hReloading] at hListed
  rcases hListed with ⟨hThere, hSteps, hApart, -⟩
  rw [hTodo] at hThere hSteps
  constructor
  · have hAuth :
        (step.exec r.old r.new s.server).auth =
          s.server.auth :=
      congrArg Prod.snd
        (settings_exec r.old r.new s.server step)
    have hStored := hInv.stored
    unfold Stored at hStored ⊢
    rw [hReloading] at hStored
    simp only [hAuth]
    exact hStored
  · rw [hApplied]
    exact hInv.unique
  · refine ⟨?_, ?_, hApart, fun hLeft => absurd hStores hLeft⟩
    · intro path hPath
      rcases hThere path hPath with
        hRegistered | ⟨mc, hMem, hSame⟩
      · left
        exact
          registered_exec (hSteps step List.mem_cons_self)
            hPath (hApart path hPath).1 (hApart path hPath).2
            hRegistered
      · rcases List.mem_cons.mp hMem with hHead | hRest
        · left
          rw [← hHead, ← hSame]
          exact registered_applyMount_self _ _ mc
        · exact .inr ⟨mc, hRest, hSame⟩
    · intro other hOther
      exact hSteps other (List.mem_cons_of_mem _ hOther)
  · rw [hApplied]
    exact hInv.unknown
  · exact hInv.follows

/- The end of a reload. -/
theorem uploadInv_store
    {s : UploadServer}
    (hInv : UploadInv s)
    {r : UploadReload}
    (hReloading : s.reloading = some r)
    (hStores : r.stores = [])
    (hTodo : r.todo = []) :
    UploadInv
      { s with
        server := { s.server with config := r.new }
        reloading := none } := by
  have hApplied : s.applied = [r.new] := by
    unfold UploadServer.applied
    rw [hReloading]
    exact if_pos hStores
  have hAuth := hInv.stored.auth_eq fun other hOther => by
    cases hReloading.symm.trans hOther
    exact hStores
  have hLast : s.lastApplied = r.new := by
    unfold UploadServer.lastApplied
    rw [hReloading]
  have hListed := hInv.listed
  unfold Listed at hListed
  rw [hReloading] at hListed
  have hUnique := hInv.unique
  have hUnknown := hInv.unknown
  rw [hApplied] at hUnique hUnknown
  constructor
  · rw [hLast] at hAuth
    exact hAuth
  · exact hUnique
  · intro path hPath
    rcases hListed.1 path hPath with
      hRegistered | ⟨mc, hMem, _⟩
    · exact hRegistered
    · rw [hTodo] at hMem
      cases hMem
  · exact hUnknown
  · exact hInv.follows

/- What is listed and looked up is found. -/
theorem registered_of_lookup
    {s : UploadServer}
    (hInv : UploadInv s)
    {path password : String}
    {codec : CodecId}
    (hOk : UploadsKept s (.lookup path password codec))
    {cfg : Config}
    (hCfg : cfg ∈ s.applied)
    (hPath : path ∈ cfg.mountPaths) :
    s.server.mounts.Registered path := by
  have hListed := hInv.listed
  unfold Listed at hListed
  unfold UploadServer.applied at hCfg
  cases hReloading : s.reloading with
  | none =>
      rw [hReloading] at hListed hCfg
      rw [List.mem_singleton.mp hCfg] at hPath
      exact hListed path hPath
  | some r =>
      rw [hReloading] at hListed hCfg
      dsimp only at hCfg
      split at hCfg
      · rw [List.mem_singleton.mp hCfg] at hPath
        exact hOk r hReloading hPath
      · rename_i hStores
        rcases List.mem_cons.mp hCfg with rfl | hNew
        · exact hListed.2.2.2 hStores path hPath
        · rw [List.mem_singleton.mp hNew] at hPath
          exact hOk r hReloading hPath

/- A request looks its path up. -/
theorem uploadInv_lookup
    {s : UploadServer}
    (hInv : UploadInv s)
    {path password : String}
    {codec : CodecId}
    (hOk : UploadsKept s (.lookup path password codec)) :
    UploadInv
      { s with
        uploads :=
          s.uploads ++
            [{ path := path
               password := password
               codec := codec
               phase :=
                 .looked (s.server.mounts path).isSome }] }
    where
  stored := hInv.stored
  unique := hInv.unique
  listed := hInv.listed
  unknown := by
    intro u hMem hUnlisted cfg hCfg hPath
    rcases List.mem_append.mp hMem with hOld | hNew
    · exact hInv.unknown u hOld hUnlisted cfg hCfg hPath
    · rw [List.mem_singleton] at hNew
      subst hNew
      have hThere := registered_of_lookup hInv hOk hCfg hPath
      unfold MountRegistry.Registered at hThere
      simp only [hThere] at hUnlisted
      exact hUnlisted
  follows := hInv.follows

/- A verdict over a request for a registered mount. -/
theorem uploadInv_resolve
    {s : UploadServer}
    (hInv : UploadInv s)
    (i : Nat)
    {u : Upload}
    {verdict : Bool}
    (hVerdict :
      verdict = true →
        ∃ cfg ∈ s.applied, Authorised cfg u.path u.password) :
    UploadInv (s.resolve i u verdict) := by
  unfold UploadServer.resolve
  split
  · rename_i hTrue
    exact
      (hInv.accept (hVerdict hTrue)).setPhase i
        (.admitted false) False.elim
  · exact hInv.setPhase i .over False.elim

/- A verdict over one that creates its mount. -/
theorem uploadInv_resolveOrCreate
    {s : UploadServer}
    (hInv : UploadInv s)
    (i : Nat)
    {u : Upload}
    {verdict : Bool}
    (hVerdict :
      verdict = true →
        ∃ cfg ∈ s.applied, Authorised cfg u.path u.password) :
    UploadInv (s.resolveOrCreate i u verdict) := by
  unfold UploadServer.resolveOrCreate
  split
  · rename_i hTrue
    refine
      ((hInv.accept (hVerdict hTrue)).setPhase i
        (.admitted true) False.elim).withServer rfl ?_
    intro cfg _ path _ hThere
    exact registered_createDynamicMount _ _ hThere
  · exact hInv.setPhase i .over False.elim

/- The load of the mount table. -/
theorem uploadInv_loadMounts
    {s : UploadServer}
    (hInv : UploadInv s)
    {i : Nat}
    {u : Upload}
    (hOk : UploadsKept s (.check i))
    (hSome : s.uploads[i]? = some u)
    (hPhase : u.phase = .looked true)
    {check : CheckPhase}
    (hCheck :
      CheckPhase.loadMounts.step u.path u.password
          s.server.auth =
        some check) :
    UploadInv (s.loaded i u check) := by
  simp only [CheckPhase.step] at hCheck
  split at hCheck
  · rename_i stored hTable
    cases hCheck
    apply uploadInv_resolve hInv
    intro hSame
    rw [← of_decide_eq_true hSame]
    exact hInv.of_table hTable
  · rename_i hTable
    cases hCheck
    refine hInv.setPhase i .fallback fun _ => ?_
    intro v hThere
    cases hSome.symm.trans hThere
    exact hOk u hSome hPhase hTable

/- The load of the global password. -/
theorem uploadInv_loadDefault
    {s : UploadServer}
    (hInv : UploadInv s)
    {i : Nat}
    {u : Upload}
    (hSome : s.uploads[i]? = some u)
    (hPhase : u.phase = .fallback)
    {check : CheckPhase}
    (hCheck :
      CheckPhase.loadDefault.step u.path u.password
          s.server.auth =
        some check) :
    UploadInv (s.loaded i u check) := by
  cases hCheck
  apply uploadInv_resolve hInv
  intro hDefault
  apply hInv.of_default ?_ hDefault
  apply hInv.unknown u (List.mem_of_getElem? hSome)
  rw [hPhase]
  trivial

/- A source disconnects. -/
theorem uploadInv_disconnected
    {s : UploadServer}
    (hInv : UploadInv s)
    {i : Nat}
    {dynamic : Bool}
    {u : Upload}
    (hUnlisted :
      dynamic = true →
        ∀ cfg ∈ s.applied, u.path ∉ cfg.mountPaths) :
    UploadInv (s.disconnected i dynamic u) := by
  unfold UploadServer.disconnected
  split
  · rename_i hDynamic
    refine
      (hInv.setPhase i .over False.elim).withServer rfl ?_
    intro cfg hCfg path hPath hThere
    apply registered_unregister _ hThere
    intro hSame
    exact hUnlisted hDynamic cfg hCfg (hSame ▸ hPath)
  · exact hInv.setPhase i .over False.elim

/- Each event of such a run keeps the invariant. -/
theorem uploadInv_step
    {s t : UploadServer}
    {label : UploadLabel}
    (hInv : UploadInv s)
    (hOk : UploadsKept s label)
    (hStep : s.step label = some t) :
    UploadInv t := by
  cases label with
  | restart cfg =>
      simp only [UploadServer.step] at hStep
      split at hStep
      · rename_i hValid
        cases hStep
        have hStarted := uploadInv_started hValid
        exact
          ⟨hStarted.stored, hStarted.unique, hStarted.listed,
            hStarted.unknown, hInv.follows⟩
      · cases hStep
  | apply new =>
      simp only [UploadServer.step] at hStep
      split at hStep
      · rename_i hReady
        cases hStep
        exact uploadInv_apply hInv hOk hReady.1 hReady.2
      · cases hStep
  | storeCell =>
      simp only [UploadServer.step] at hStep
      split at hStep
      · cases hStep
      · rename_i r hReloading
        split at hStep
        · cases hStep
        · rename_i op rest hStores
          cases hStep
          exact uploadInv_storeCell hInv hReloading hStores
  | iterate =>
      simp only [UploadServer.step] at hStep
      split at hStep
      · cases hStep
      · rename_i r hReloading
        split at hStep
        · cases hStep
        · cases hStep
        · rename_i step rest hStores hTodo
          cases hStep
          exact
            uploadInv_iterate hInv hReloading hStores hTodo
  | store =>
      simp only [UploadServer.step] at hStep
      split at hStep
      · cases hStep
      · rename_i r hReloading
        split at hStep
        · rename_i hDone
          cases hStep
          exact
            uploadInv_store hInv hReloading hDone.1 hDone.2
        · cases hStep
  | lookup path password codec =>
      simp only [UploadServer.step] at hStep
      cases hStep
      exact uploadInv_lookup hInv hOk
  | check i =>
      simp only [UploadServer.step] at hStep
      split at hStep
      · cases hStep
      · rename_i u hSome
        split at hStep
        · rename_i hPhase
          rcases Option.map_eq_some_iff.mp hStep with
            ⟨check, hCheck, rfl⟩
          exact
            uploadInv_loadMounts hInv hOk hSome hPhase hCheck
        · rename_i hPhase
          cases hStep
          apply uploadInv_resolveOrCreate hInv
          intro hDefault
          apply hInv.of_default ?_ hDefault
          apply hInv.unknown u (List.mem_of_getElem? hSome)
          rw [hPhase]
          trivial
        · rename_i hPhase
          rcases Option.map_eq_some_iff.mp hStep with
            ⟨check, hCheck, rfl⟩
          exact uploadInv_loadDefault hInv hSome hPhase hCheck
        · cases hStep
        · cases hStep
        · cases hStep
  | refuse i =>
      simp only [UploadServer.step] at hStep
      split at hStep
      · cases hStep
      · split at hStep
        · cases hStep
          exact hInv.setPhase i .over False.elim
        · cases hStep
          exact hInv.setPhase i .over False.elim
        · cases hStep
          exact hInv.setPhase i .over False.elim
        · cases hStep
        · cases hStep
  | claim i =>
      simp only [UploadServer.step] at hStep
      split at hStep
      · cases hStep
      · split at hStep
        · cases hStep
          exact hInv.setPhase i _ False.elim
        · cases hStep
        · cases hStep
        · cases hStep
        · cases hStep
  | disconnect i =>
      simp only [UploadServer.step] at hStep
      split at hStep
      · cases hStep
      · rename_i u hSome
        split at hStep
        · rename_i dynamic hPhase
          cases hStep
          apply uploadInv_disconnected hInv
          intro hDynamic
          apply hOk u hSome
          rw [hPhase, hDynamic]
        · cases hStep
        · cases hStep
        · cases hStep
        · cases hStep

end RustyIce

------------------------------------------------------------
-- An Adopted Dynamic Mount
------------------------------------------------------------

namespace RustyIce

instance (s : UploadServer) (label : UploadLabel) :
    Decidable (UploadsKept s label) :=
  match label with
  | .apply new =>
      inferInstanceAs
        (Decidable
          ((∀ path ∈ new.mountPaths,
            path ∉ s.server.config.autodjPaths ∧
              path ∉ s.server.config.relayPaths) ∧
            ∀ u ∈ s.uploads,
              u.phase.Unlisted → u.path ∉ new.mountPaths))
  | .lookup path _ _ =>
      inferInstanceAs
        (Decidable
          (∀ r ∈ s.reloading,
            path ∈ r.new.mountPaths →
              s.server.mounts.Registered path))
  | .disconnect i =>
      inferInstanceAs
        (Decidable
          (∀ u ∈ s.uploads[i]?,
            u.phase = .streaming true →
              ∀ cfg ∈ s.applied, u.path ∉ cfg.mountPaths))
  | .check i =>
      inferInstanceAs
        (Decidable
          (∀ u ∈ s.uploads[i]?,
            u.phase = .looked true →
              s.server.auth.mountPasswords u.path = none →
                ∀ cfg ∈ s.applied, u.path ∉ cfg.mountPaths))
  | .restart _ => isTrue trivial
  | .storeCell => isTrue trivial
  | .iterate => isTrue trivial
  | .store => isTrue trivial
  | .refuse _ => isTrue trivial
  | .claim _ => isTrue trivial

/- A server with a global source password. -/
def openConfig : Config :=
  { Config.bare with
    auth := { users := [], sourcePassword := some "hackme" } }

/- The same, with a mount that has its own password. -/
def openWithLive : Config :=
  { openConfig with
    mounts := [.bare "/live" "secret"] }

theorem init_openConfig :
    uploadMachine.init (.started openConfig) :=
  ⟨openConfig, by decide, rfl⟩

/- A whole reload to a configuration with one mount more. -/
def listsLive : List UploadLabel :=
  [.apply openWithLive, .storeCell, .storeCell, .storeCell,
    .iterate, .store]

/-
  The mount is listed while nobody streams there, and both
  rules are asked.
-/
def listedWhileIdle : List UploadLabel :=
  listsLive ++
    [.lookup "/live" "secret" .MP3, .check 0,
      .lookup "/guest" "hackme" .MP3, .check 1]

/-
  A guest streams to a path, the path is listed with its own
  password, and the guest leaves.
-/
def listedWhileStreaming : List UploadLabel :=
  [.lookup "/live" "hackme" .MP3, .check 0, .claim 0] ++
    listsLive ++
      [.disconnect 0, .lookup "/live" "hackme" .MP3, .check 1]

end RustyIce
