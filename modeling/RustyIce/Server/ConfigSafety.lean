import Mathlib.Data.Fintype.EquivFin
import RustyIce.Admin.FileAgreement
import RustyIce.Server.ServerRuns

/-
  The numbers of a configuration where they are used: the
  ring size every bus is built with, and the rates from the
  configuration that an ingest paces by.

  A configuration comes to run from the file, which is not
  checked for them, or from a save, which checks some.

  Main declarations:
    * `channelAccepts`, `byteRate`, `Config.ingestRates`
    * `Config.Usable`, `Config.NumbersFit`
    * `RunningServer`, `ConfigEvent`, `configMachine`
    * `RunningServer.configs_usable_iff`
-/

------------------------------------------------------------
-- What The Consumers Take
------------------------------------------------------------

namespace RustyIce

/-
  A broadcast channel is not made for no packet, nor for
  more than half of what `usize` counts; it panics then.
-/
def channelAccepts (capacity : Nat) : Prop :=
  0 < capacity ∧ capacity ≤ u64Max / 2

instance (capacity : Nat) :
    Decidable (channelAccepts capacity) := by
  unfold channelAccepts
  infer_instance

/- Kilobits a second in bytes a second. -/
def byteRate (kbps : Nat) : Nat :=
  kbps * 1000 / 8

theorem byteRate_ne_zero_iff (kbps : Nat) :
    byteRate kbps ≠ 0 ↔ kbps ≠ 0 := by
  unfold byteRate
  omega

namespace Config

open Library

/-
  The rates the ingest of a source on a path takes from the
  configuration: the maximum rate of a live source, and the
  output rate of a transcode.
-/
def ingestRates
    (cfg : Config)
    (path : String) : List Nat :=
  (cfg.limits.sourceMaxKbps.map byteRate).toList ++
    ((mountTranscode cfg path).map fun tc =>
      byteRate tc.bitrateKbps).toList

/- A configuration that is safe wherever it is used. -/
structure Usable (cfg : Config) : Prop where
  ring : channelAccepts cfg.limits.ringSize
  rates : ∀ path, ∀ bps ∈ cfg.ingestRates path, bps ≠ 0

/- The same of the numbers as they are written down. -/
structure NumbersFit (cfg : Config) : Prop where
  ring :
    0 < cfg.limits.ringSize ∧
      cfg.limits.ringSize ≤ u64Max / 2
  maximum : cfg.limits.sourceMaxKbps ≠ some 0
  transcode :
    ∀ tc ∈ cfg.transcode, tc.bitrateKbps ≠ 0
  mounts :
    ∀ mc ∈ cfg.mounts, ∀ tc ∈ mc.transcode,
      tc.bitrateKbps ≠ 0

/- Some path is not listed: dynamic mounts are on such. -/
theorem exists_unlisted (cfg : Config) :
    ∃ path, path ∉ cfg.mountPaths := by
  rcases Infinite.exists_notMem_finset
      cfg.mountPaths.toFinset with ⟨path, hPath⟩
  refine ⟨path, ?_⟩
  intro hMem
  exact hPath (List.mem_toFinset.mpr hMem)

/- The transcode in effect, for listed and other paths. -/
theorem mountTranscode_listed
    {cfg : Config}
    (hNodup : cfg.mountPaths.Nodup)
    {mc : MountConfig}
    (hMem : mc ∈ cfg.mounts) :
    mountTranscode cfg mc.path =
      cfg.effectiveTranscode mc := by
  unfold mountTranscode
  rw [Keyed.find?_key hNodup hMem rfl]

theorem mountTranscode_unlisted
    {cfg : Config}
    {path : String}
    (hNone : path ∉ cfg.mountPaths) :
    mountTranscode cfg path = cfg.transcode := by
  unfold mountTranscode
  rw [Keyed.find?_key_eq_none hNone]

theorem mountTranscode_cases
    (cfg : Config)
    (path : String) :
    mountTranscode cfg path = cfg.transcode ∨
      ∃ mc ∈ cfg.mounts,
        mountTranscode cfg path = mc.transcode := by
  unfold mountTranscode
  cases hFind :
      cfg.mounts.find? fun m => m.path = path with
  | none => exact .inl rfl
  | some mc =>
      cases hOwn : mc.transcode with
      | none =>
          left
          simp [effectiveTranscode, hOwn]
      | some tc =>
          right
          refine ⟨mc, List.mem_of_find?_eq_some hFind, ?_⟩
          simp [effectiveTranscode, hOwn]

/- A configuration is usable if its numbers fit. -/
theorem usable_iff
    {cfg : Config}
    (hNodup : cfg.mountPaths.Nodup) :
    cfg.Usable ↔ cfg.NumbersFit := by
  constructor
  · intro hUsable
    constructor
    · exact hUsable.ring
    · intro hZero
      refine hUsable.rates "" 0 ?_ rfl
      simp [ingestRates, hZero, byteRate]
    · intro tc hTc
      rcases exists_unlisted cfg with ⟨path, hPath⟩
      rw [← byteRate_ne_zero_iff]
      apply hUsable.rates path
      rw [Option.mem_def] at hTc
      simp [ingestRates, mountTranscode_unlisted hPath, hTc]
    · intro mc hMem tc hTc
      rw [← byteRate_ne_zero_iff]
      apply hUsable.rates mc.path
      rw [Option.mem_def] at hTc
      simp [ingestRates, mountTranscode_listed hNodup hMem,
        effectiveTranscode, hTc]
  · intro hFit
    constructor
    · exact hFit.ring
    · intro path bps hMem
      simp only [ingestRates, List.mem_append,
        Option.mem_toList, Option.map_eq_some_iff] at hMem
      rcases hMem with ⟨kbps, hMax, rfl⟩ | ⟨tc, hTc, rfl⟩
      · rw [byteRate_ne_zero_iff]
        rintro rfl
        exact hFit.maximum hMax
      · rw [byteRate_ne_zero_iff]
        rcases mountTranscode_cases cfg path with
          hGlobal | ⟨mc, hMc, hOwn⟩
        · exact hFit.transcode tc (hGlobal ▸ hTc)
        · exact hFit.mounts mc hMc tc (hOwn ▸ hTc)

end Config

end RustyIce

------------------------------------------------------------
-- Saves
------------------------------------------------------------

namespace RustyIce

namespace ConfigPut

open ConfigWrite Library

/- The numbers of a request that no check looks at. -/
def PutRequest.NumbersFit : PutRequest → Prop
| .server body =>
    body.limits.ringSize.toNat ≤ u64Max / 2 ∧
      body.limits.sourceMaxKbps ≠ some 0
| .transcode _ => True
| .mounts _ => True
| .users _ _ _ => True
| .autodjs _ => True
| .relays _ => True

theorem bitrate_of_transcodeConfig
    {t : TranscodeSubPatch}
    {tc : TranscodeConfig}
    (hConfig : transcodeConfig t = .ok tc) :
    tc.bitrateKbps = t.bitrateKbps.toNat := by
  unfold transcodeConfig at hConfig
  rcases bind_eq_ok_iff.mp hConfig with ⟨format, _, hEq⟩
  cases hEq
  rfl

theorem exists_of_optionalTranscodeConfig
    {source : Option TranscodeSubPatch}
    {result : Option TranscodeConfig}
    (hConfig : optionalTranscodeConfig source = .ok result)
    {tc : TranscodeConfig}
    (hTc : tc ∈ result) :
    ∃ t, source = some t ∧ transcodeConfig t = .ok tc := by
  cases source with
  | none =>
      cases hConfig
      cases hTc
  | some t =>
      rcases bind_eq_ok_iff.mp hConfig with
        ⟨config, hOne, hEq⟩
      cases hEq
      cases hTc
      exact ⟨t, rfl, hOne⟩

/- A checked transcode block has a bitrate. -/
theorem bitrate_of_validateTranscode
    {t : TranscodeSubPatch}
    (hValid : validateTranscodePatch ⟨some t⟩ = .ok ()) :
    t.bitrateKbps.toNat ≠ 0 := by
  simp only [validateTranscodePatch, bind_eq_ok_iff]
    at hValid
  rcases hValid with ⟨_, _, _, _, _, _, _, hRate, _⟩
  have hNotZero : t.bitrateKbps ≠ 0 := by
    simpa using require_ok_iff.mp hRate
  intro hZero
  exact hNotZero (UInt32.toNat_inj.mp hZero)

theorem bitrate_of_validateOptional
    {entry : String}
    {t : TranscodeSubPatch}
    (hValid :
      validateOptionalTranscode entry (some t) = .ok ()) :
    t.bitrateKbps.toNat ≠ 0 := by
  apply bitrate_of_validateTranscode
  simp only [validateOptionalTranscode,
    validateEntryTranscode] at hValid
  split at hValid
  · assumption
  · cases hValid

/- A checked ring size is not zero. -/
theorem ringSize_pos_of_validate
    {p : WritePatch}
    (hValid : validateServerPatch p = .ok ()) :
    0 < p.limits.ringSize.toNat := by
  simp only [validateServerPatch, bind_eq_ok_iff] at hValid
  rcases hValid with ⟨_, hRing, _⟩
  have hRing : p.limits.ringSize ≠ 0 :=
    of_decide_eq_true (require_ok_iff.mp hRing)
  rw [Nat.pos_iff_ne_zero]
  intro hZero
  exact hRing (UInt64.toNat_inj.mp hZero)

/- Nor is a bitrate of a checked request. -/
theorem bitrates_of_transcodePatch
    {p : TranscodePatch}
    {transcode : Option TranscodeConfig}
    (hValid : validateTranscodePatch p = .ok ())
    (hConfig :
      optionalTranscodeConfig p.transcode = .ok transcode) :
    ∀ tc ∈ transcode, tc.bitrateKbps ≠ 0 := by
  intro tc hTc
  rcases exists_of_optionalTranscodeConfig hConfig hTc with
    ⟨t, hSource, hOne⟩
  rw [bitrate_of_transcodeConfig hOne]
  apply bitrate_of_validateTranscode
  rw [← hSource]
  exact hValid

theorem bitrates_of_mountsPatch
    {p : MountsPatch}
    {mounts : List MountConfig}
    (hValid : validateMountsPatch p = .ok ())
    (hMounts : p.mounts.mapM mountConfig = .ok mounts) :
    ∀ mc ∈ mounts, ∀ tc ∈ mc.transcode,
      tc.bitrateKbps ≠ 0 := by
  intro mc hMc tc hTc
  rcases exists_of_mem_mapM hMounts hMc with
    ⟨m, hMem, hOne⟩
  rcases bind_eq_ok_iff.mp hOne with
    ⟨transcode, hTranscode, hEq⟩
  cases hEq
  rcases exists_of_optionalTranscodeConfig hTranscode hTc with
    ⟨t, hSource, hT⟩
  rcases check_of_validateEach hValid m hMem with
    ⟨_, _, hCheck⟩
  simp only [validateMount, bind_eq_ok_iff] at hCheck
  rcases hCheck with ⟨_, _, _, _, _, _, hCheck⟩
  rw [hSource] at hCheck
  rw [bitrate_of_transcodeConfig hT]
  exact bitrate_of_validateOptional hCheck

/- Of an accepted request these numbers are what matters. -/
theorem numbersFit_of_accepted
    {current candidate : Config}
    {put : PutRequest}
    {patch : Patch}
    (hAccepted : Accepted current put patch candidate)
    (hCurrent : current.NumbersFit) :
    candidate.NumbersFit ↔ put.NumbersFit := by
  have hValid := validate_of_checkPatch hAccepted.checked
  have hBuilt := hAccepted.built
  have hResolved := hAccepted.resolved
  cases put with
  | server body =>
      cases hResolved
      rcases bind_eq_ok_iff.mp hBuilt with ⟨format, _, hEq⟩
      cases hEq
      have hPositive : 0 < body.limits.ringSize.toNat :=
        ringSize_pos_of_validate hValid
      constructor
      · intro hFit
        refine ⟨hFit.ring.2, ?_⟩
        intro hZero
        apply hFit.maximum
        simp [resolveServer, hZero]
      · rintro ⟨hBound, hMax⟩
        constructor
        · exact ⟨hPositive, hBound⟩
        · intro hZero
          apply hMax
          rcases Option.map_eq_some_iff.mp hZero with
            ⟨kbps, hKbps, hEq⟩
          have hSame : kbps = 0 := UInt32.toNat_inj.mp hEq
          rw [← hSame]
          exact hKbps
        · exact hCurrent.transcode
        · exact hCurrent.mounts
  | transcode body =>
      cases hResolved
      rcases bind_eq_ok_iff.mp hBuilt with
        ⟨config, hConfig, hEq⟩
      cases hEq
      refine iff_of_true ?_ trivial
      constructor
      · exact hCurrent.ring
      · exact hCurrent.maximum
      · exact bitrates_of_transcodePatch hValid hConfig
      · exact hCurrent.mounts
  | mounts body =>
      rcases bind_eq_ok_iff.mp hResolved with
        ⟨patch, _, hEq⟩
      cases hEq
      rcases bind_eq_ok_iff.mp hBuilt with
        ⟨mounts, hMounts, hEq⟩
      cases hEq
      refine iff_of_true ?_ trivial
      constructor
      · exact hCurrent.ring
      · exact hCurrent.maximum
      · exact hCurrent.transcode
      · exact bitrates_of_mountsPatch hValid hMounts
  | users requester hash body =>
      rcases bind_eq_ok_iff.mp hResolved with
        ⟨patch, _, hEq⟩
      cases hEq
      cases hBuilt
      refine iff_of_true ?_ trivial
      exact
        ⟨hCurrent.ring, hCurrent.maximum, hCurrent.transcode,
          hCurrent.mounts⟩
  | autodjs body =>
      cases hResolved
      rcases bind_eq_ok_iff.mp hBuilt with ⟨autodjs, _, hEq⟩
      cases hEq
      refine iff_of_true ?_ trivial
      exact
        ⟨hCurrent.ring, hCurrent.maximum, hCurrent.transcode,
          hCurrent.mounts⟩
  | relays body =>
      cases hResolved
      rcases bind_eq_ok_iff.mp hBuilt with ⟨relays, _, hEq⟩
      cases hEq
      refine iff_of_true ?_ trivial
      exact
        ⟨hCurrent.ring, hCurrent.maximum, hCurrent.transcode,
          hCurrent.mounts⟩

end ConfigPut

end RustyIce

------------------------------------------------------------
-- The Server And Its File
------------------------------------------------------------

namespace RustyIce

open ConfigPut Library Library.Toml

/- The document of the file, and what the server made of it. -/
structure RunningServer where
  document : Table
  server : ServerState

/-
  The file is edited by hand, or loaded on a signal; a
  section is saved; a source of a new path comes and goes.
-/
inductive ConfigEvent where
| edit (document : Table)
| reload
| put (request : PutRequest)
| firstConnect (path : String) (codec : CodecId)
| forget (path : String)

namespace RunningServer

/- What an endpoint sees of the server. -/
def file (s : RunningServer) : FileState where
  document := s.document
  running := s.server.config

def start
    (document : Table)
    (cfg : Config) : RunningServer where
  document := document
  server := bootstrap cfg

end RunningServer

/-
  A file that does not load and a request that is turned
  down leave the running configuration as it is.
-/
def ConfigEvent.exec
    (s : RunningServer) : ConfigEvent → Option RunningServer
| .edit document => some { s with document := document }
| .reload =>
    match load s.document with
    | .ok cfg => some { s with server := applied cfg s.server }
    | .error _ => some s
| .put request =>
    match request.exec s.file with
    | .ok saved =>
        some
          { document := saved.document
            server := applied saved.running s.server }
    | .error _ => some s
| .firstConnect path codec =>
    if s.server.mounts.Registered path then
      none
    else
      some
        { s with
          server := s.server.createDynamicMount path codec }
| .forget path =>
    some { s with server := s.server.unregister path }

def configMachine : Machine RunningServer ConfigEvent where
  init := fun s =>
    ∃ document cfg,
      load document = .ok cfg ∧ s = .start document cfg
  step := ConfigEvent.exec

/- Every bus there is was made with a size it takes. -/
def ServerState.BusesFit (s : ServerState) : Prop :=
  ∀ id, id < s.nextMount →
    channelAccepts (s.heap id).bus.capacity

theorem ServerState.operational_busesFit :
    Operational (fun bus => channelAccepts bus.capacity)
      BusesFit where
  registerMount := by
    intro s info bus hBus hFit id hMade
    simp only [registerMount] at hMade ⊢
    split
    · exact hBus
    · rename_i hOther
      exact
        hFit id
          (Nat.lt_of_le_of_ne (Nat.le_of_lt_succ hMade)
            hOther)
  unregister := by
    intro s path hFit
    exact hFit
  swapInfo := by
    intro s path change _ hFit id hMade
    unfold swapInfo at hMade ⊢
    split
    · rename_i hNone
      rw [hNone] at hMade
      exact hFit id hMade
    · rename_i mount hSome
      rw [hSome] at hMade
      have hOld := hFit id hMade
      show channelAccepts
        (if id = mount then _ else _ : ActiveMount).bus.capacity
      split
      · exact hOld
      · exact hOld
  cancelTask := by
    intro s kind path hFit id hMade
    unfold cancelTask at hMade ⊢
    split
    · rename_i hNone
      rw [hNone] at hMade
      exact hFit id hMade
    · rename_i entry hSome
      rw [hSome] at hMade
      exact hFit id hMade
  spawnTask := by
    intro s kind path cfg hFit id hMade
    unfold spawnTask at hMade ⊢
    split
    · rename_i hNone
      rw [hNone] at hMade
      exact hFit id hMade
    · rename_i mount hSome
      rw [hSome] at hMade
      exact hFit id hMade
  settings := by
    intro s cfg auth hFit
    exact hFit

namespace RunningServer

open ServerState

/-
  The running configuration is safe where it is used next,
  and the ones before it were where they were used.
-/
structure Safe (s : RunningServer) : Prop where
  usable : s.server.config.Usable
  buses : s.server.BusesFit

/- The numbers that come to run with an event fit. -/
def NumbersFit (s : RunningServer) : ConfigEvent → Prop
| .edit _ => True
| .reload =>
    ∀ cfg, load s.document = .ok cfg → cfg.NumbersFit
| .put request =>
    ∀ saved, request.exec s.file = .ok saved →
      request.NumbersFit
| .firstConnect _ _ => True
| .forget _ => True

theorem nodup_of_valid
    {cfg : Config}
    (hValid : cfg.validatePaths = .ok ()) :
    cfg.mountPaths.Nodup :=
  ((cfg.validatePaths_ok_iff.mp hValid).1.of_append_left)
    |>.of_append_left

/- Applying a configuration is safe if its numbers fit. -/
theorem safe_applied_iff
    {s : RunningServer}
    {cfg : Config}
    (hValid : cfg.validatePaths = .ok ())
    (hSafe : s.Safe)
    (document : Table) :
    Safe
        { document := document
          server := applied cfg s.server } ↔
      cfg.NumbersFit := by
  rw [← Config.usable_iff (nodup_of_valid hValid)]
  constructor
  · intro hAfter
    exact hAfter.usable
  · intro hUsable
    constructor
    · exact hUsable
    · exact
        operational_busesFit.applied (fun _ => hUsable.ring)
          hSafe.buses

theorem safe_start_iff
    {document : Table}
    {cfg : Config}
    (hLoad : load document = .ok cfg) :
    (start document cfg).Safe ↔ cfg.NumbersFit := by
  have hValid := (load_eq_ok_iff.mp hLoad).2
  rw [← Config.usable_iff (nodup_of_valid hValid)]
  have hConfig : (start document cfg).server.config = cfg :=
    config_bootstrap cfg
  constructor
  · intro hSafe
    rw [← hConfig]
    exact hSafe.usable
  · intro hUsable
    constructor
    · rw [hConfig]
      exact hUsable
    · apply operational_busesFit.bootstrap
        fun _ => hUsable.ring
      intro id hMade
      exact absurd hMade (Nat.not_lt_zero id)

/- What is saved is what the accepted request built. -/
theorem accepted_of_exec
    {s t : FileState}
    {request : PutRequest}
    (hSaved : request.exec s = .ok t) :
    ∃ patch, Accepted s.running request patch t.running := by
  rcases exec_cases s request with
    ⟨patch, candidate, hAccepted⟩ | ⟨⟨error, hError⟩, _⟩
  · rw [exec_of_accepted hAccepted] at hSaved
    rcases bind_eq_ok_iff.mp hSaved with ⟨document, _, hEq⟩
    cases hEq
    exact ⟨patch, hAccepted⟩
  · rw [hError] at hSaved
    cases hSaved

theorem valid_of_exec
    {s t : RunningServer}
    {event : ConfigEvent}
    (hValid : s.server.config.validatePaths = .ok ())
    (hStep : event.exec s = some t) :
    t.server.config.validatePaths = .ok () := by
  cases event with
  | edit document =>
      cases hStep
      exact hValid
  | reload =>
      simp only [ConfigEvent.exec] at hStep
      split at hStep
      · rename_i cfg hLoad
        cases hStep
        exact (load_eq_ok_iff.mp hLoad).2
      · cases hStep
        exact hValid
  | put request =>
      simp only [ConfigEvent.exec] at hStep
      split at hStep
      · rename_i saved hSaved
        cases hStep
        rcases accepted_of_exec hSaved with
          ⟨patch, hAccepted⟩
        exact validatePaths_of_accepted hValid hAccepted
      · cases hStep
        exact hValid
  | firstConnect path codec =>
      simp only [ConfigEvent.exec] at hStep
      split at hStep
      · cases hStep
      · cases hStep
        exact hValid
  | forget path =>
      cases hStep
      exact hValid

/- One event keeps the server safe if its numbers fit. -/
theorem safe_step_iff
    {s t : RunningServer}
    {event : ConfigEvent}
    (hValid : s.server.config.validatePaths = .ok ())
    (hSafe : s.Safe)
    (hStep : event.exec s = some t) :
    t.Safe ↔ s.NumbersFit event := by
  cases event with
  | edit document =>
      cases hStep
      exact iff_of_true ⟨hSafe.usable, hSafe.buses⟩ trivial
  | reload =>
      simp only [ConfigEvent.exec] at hStep
      split at hStep
      · rename_i cfg hLoad
        cases hStep
        rw [safe_applied_iff (load_eq_ok_iff.mp hLoad).2
          hSafe]
        simp [NumbersFit, hLoad]
      · rename_i error hLoad
        cases hStep
        refine iff_of_true hSafe ?_
        intro cfg hOther
        rw [hLoad] at hOther
        cases hOther
  | put request =>
      simp only [ConfigEvent.exec] at hStep
      split at hStep
      · rename_i saved hSaved
        cases hStep
        rcases accepted_of_exec hSaved with
          ⟨patch, hAccepted⟩
        rw [safe_applied_iff
            (validatePaths_of_accepted hValid hAccepted)
            hSafe,
          numbersFit_of_accepted hAccepted
            ((Config.usable_iff
              (nodup_of_valid hValid)).mp hSafe.usable)]
        simp [NumbersFit, hSaved]
      · rename_i error hFailed
        cases hStep
        refine iff_of_true hSafe ?_
        intro saved hOther
        rw [hFailed] at hOther
        cases hOther
  | firstConnect path codec =>
      simp only [ConfigEvent.exec] at hStep
      split at hStep
      · cases hStep
      · cases hStep
        refine iff_of_true ⟨hSafe.usable, ?_⟩ trivial
        exact
          operational_busesFit.registerMount _
            hSafe.usable.ring hSafe.buses
  | forget path =>
      cases hStep
      exact iff_of_true ⟨hSafe.usable, hSafe.buses⟩ trivial

/-
  The server is safe throughout a run exactly if the numbers
  of every file that is loaded fit, and those of every save
  that no check looks at.
-/
theorem configs_usable_iff
    {document : Table}
    {cfg : Config}
    (hLoad : load document = .ok cfg)
    {events : List ConfigEvent}
    {s : RunningServer}
    (hRun :
      configMachine.run (.start document cfg) events =
        some s) :
    configMachine.Along Safe (.start document cfg) events ↔
      cfg.NumbersFit ∧
        configMachine.Admits NumbersFit
          (.start document cfg) events := by
  have hRest :
      (start document cfg).Safe →
        (configMachine.Along Safe (.start document cfg)
            events ↔
          configMachine.Admits NumbersFit
            (.start document cfg) events) := by
    intro hSafe
    refine
      Machine.along_iff_admits
        (I := fun t =>
          t.server.config.validatePaths = .ok ())
        ?_ ?_ ?_ hSafe hRun
    · intro s event t hValid hStep
      exact valid_of_exec hValid hStep
    · intro s event t hValid hNow hStep
      exact safe_step_iff hValid hNow hStep
    · show (bootstrap cfg).config.validatePaths = .ok ()
      rw [config_bootstrap]
      exact (load_eq_ok_iff.mp hLoad).2
  rw [← safe_start_iff hLoad]
  constructor
  · intro hAlong
    exact ⟨hAlong.head, (hRest hAlong.head).mp hAlong⟩
  · rintro ⟨hSafe, hAdmits⟩
    exact (hRest hSafe).mpr hAdmits

/- The body that saves the server section as it runs. -/
def savedLimits : ServerPutBody where
  server :=
    { streamBind := ⟨"0.0.0.0:8000", by decide⟩
      adminBind := ⟨"127.0.0.1:8001", by decide⟩
      hostname := "localhost" }
  logging := { level := "info", format := "json" }
  limits :=
    { maxListenersGlobal := 500
      ringSize := 64
      slowListenerGraceS := 2
      burstSize := 65536
      sourceMaxKbps := none }
  auth := none

/- The same with a maximum rate of nothing. -/
def zeroRate : PutRequest :=
  .server
    { savedLimits with
      limits :=
        { savedLimits.limits with sourceMaxKbps := some 0 } }

/- A file that gives the rings no room. -/
def zeroRing : Table :=
  standardState.document.insert "limits"
    (.table
      ⟨[("max_listeners_global", .integer 500),
        ("ring_size", .integer 0),
        ("slow_listener_grace_s", .integer 2)]⟩)

theorem configs_usable_iff_savedLimits :
    configMachine.Along Safe
        (.start standardState.document adminConfig)
        [.put (.server savedLimits), .reload,
          .firstConnect "/live" .MP3] ↔
      adminConfig.NumbersFit ∧
        configMachine.Admits NumbersFit
          (.start standardState.document adminConfig)
          [.put (.server savedLimits), .reload,
            .firstConnect "/live" .MP3] := by
  have hLoad :
      load standardState.document = .ok adminConfig := rfl
  have hRun :
      configMachine.run
          (.start standardState.document adminConfig)
          [.put (.server savedLimits), .reload,
            .firstConnect "/live" .MP3] =
        some _ := rfl
  exact configs_usable_iff hLoad hRun

/-
  A save sets the rate every source divides by to zero; a
  file is loaded whose rings panic with the next source.
-/
theorem zeroRate_unsafe :
    load standardState.document = .ok adminConfig ∧
      (∃ s,
        configMachine.run
            (.start standardState.document adminConfig)
            [.put zeroRate] = some s ∧
          0 ∈ s.server.config.ingestRates "/live") ∧
        ∃ s,
          configMachine.run
              (.start standardState.document adminConfig)
              [.edit zeroRing, .reload,
                .firstConnect "/live" .MP3] = some s ∧
            ¬ s.server.BusesFit := by
  refine ⟨rfl, ⟨_, rfl, ?_⟩, ⟨_, rfl, ?_⟩⟩
  · exact List.mem_cons_self
  · intro hFit
    exact
      absurd (hFit 0 Nat.zero_lt_one).1 (Nat.lt_irrefl 0)

end RunningServer

end RustyIce
