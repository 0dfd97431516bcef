import RustyIce.Ingest.Icecast
import RustyIce.Server.ConfigSafety
import RustyIce.Server.PathAgreement
import RustyIce.Server.StreamRouter

/-
  The transcode settings of a path wherever they are looked
  up: for the ingest of a live source and of a relay, for
  what a listener is told, and for the administrator's list
  of mounts, against the section that owns the path.

  Of a listed mount the uptime and the number of listeners
  are left out.

  Main declarations:
    * `buildIngestForMount`, `buildIngestForRelay`
    * `Admin.mountTranscode`, `Admin.mountStatus`
    * `Config.ownTranscode`, `OneDecision`
    * `oneDecision_iff`
-/

------------------------------------------------------------
-- Building An Ingest
------------------------------------------------------------

namespace RustyIce

/- The version of the workspace. -/
def CARGO_PKG_VERSION : String := "1.0.5"

/- The comments embedded by a Vorbis encoder. -/
def buildVorbisComments
    (metadata : MountMetadata) : List (String × String) :=
  (metadata.name.map fun s => ("TITLE", s)).toList ++
    (metadata.description.map fun s =>
        ("DESCRIPTION", s)).toList ++
      (metadata.genre.map fun s => ("GENRE", s)).toList ++
        (metadata.url.map fun s => ("LOCATION", s)).toList ++
          [("ENCODER", "rustyice/" ++ CARGO_PKG_VERSION)]

/- An ingest with the settings of its transcode. -/
structure IngestBuild where
  ingest : IcecastIngest
  transcode : Option TranscodeConfig
  transcodeComments : List (String × String)
deriving DecidableEq, Repr

/- What both builders make of their settings. -/
def buildIngest
    (maxRateBps : Option Nat)
    (transcode : Option TranscodeConfig)
    (metadata : MountMetadata) : IngestBuild where
  ingest :=
    { chunkSize := 4096
      maxRateBps := maxRateBps
      headerCaptureSink := true }
  transcode := transcode
  transcodeComments :=
    match transcode with
    | some _ => buildVorbisComments metadata
    | none => []

/- The ingest of a live source. -/
def buildIngestForMount
    (cfg : Config)
    (mountPath : String)
    (metadata : MountMetadata) : IngestBuild :=
  buildIngest (cfg.limits.sourceMaxKbps.map byteRate)
    (mountTranscode cfg mountPath) metadata

/- The ingest of a relay, which has no maximum rate. -/
def buildIngestForRelay
    (cfg : Config)
    (mountPath : String)
    (metadata : MountMetadata) : IngestBuild :=
  buildIngest none (mountTranscode cfg mountPath) metadata

end RustyIce

------------------------------------------------------------
-- The List Of Mounts
------------------------------------------------------------

namespace RustyIce

/- The station as listeners and the administrator see it. -/
structure EffectiveIdentity where
  name : Option String
  description : Option String
  genre : Option String
  url : Option String
  isPublic : Option Bool
  audioInfo : Option String
  bitrateKbps : Option Nat
deriving DecidableEq, Repr

def ActiveMount.effectiveIdentity
    (mount : ActiveMount)
    (transcode : Option TranscodeConfig) :
    EffectiveIdentity where
  name :=
    mount.sourceOverlay.bind (·.name) <|>
      mount.info.metadata.name
  description :=
    mount.sourceOverlay.bind (·.description) <|>
      mount.info.metadata.description
  genre :=
    mount.sourceOverlay.bind (·.genre) <|>
      mount.info.metadata.genre
  url :=
    mount.sourceOverlay.bind (·.url) <|>
      mount.info.metadata.url
  isPublic := mount.sourceOverlay.bind (·.isPublic)
  audioInfo :=
    match transcode with
    | some tc =>
        some
          ("samplerate=" ++ toString tc.sampleRate ++
            ";channels=2;bitrate=" ++
              toString tc.bitrateKbps)
    | none => mount.sourceOverlay.bind (·.audioInfo)
  bitrateKbps :=
    match transcode with
    | some tc => some tc.bitrateKbps
    | none => mount.sourceOverlay.bind (·.bitrateKbps)

namespace Admin

/- The administrator's copy of the lookup. -/
def mountTranscode
    (cfg : Config)
    (mountPath : String) : Option TranscodeConfig :=
  match cfg.mounts.find? fun m => m.path = mountPath with
  | some mc => cfg.effectiveTranscode mc
  | none => cfg.transcode

def resolveOutputCodec
    (sourceCodec : CodecId)
    (transcode : Option TranscodeConfig) : CodecId :=
  match transcode.map TranscodeConfig.format with
  | some .mp3 => .MP3
  | some .vorbis => .VORBIS
  | none => sourceCodec

def sourceKind (mount : ActiveMount) : String :=
  if ¬ mount.sourceConnected then
    "none"
  else
    match mount.sourceKind with
    | .autoDj => "autodj"
    | .relay => "relay"
    | .none => "live"
    | .live => "live"

structure MountStatus where
  path : String
  codec : String
  identity : EffectiveIdentity
  title : Option String
  sourceConnected : Bool
  sourceKind : String
deriving DecidableEq, Repr

/- One entry of `list_mounts`. -/
def mountStatus
    (cfg : Config)
    (mount : ActiveMount) : MountStatus :=
  let transcode := mountTranscode cfg mount.info.path
  { path := mount.info.path
    codec :=
      (resolveOutputCodec mount.info.codec transcode).name
    identity := mount.effectiveIdentity transcode
    title := mount.currentTitle
    sourceConnected := mount.sourceConnected
    sourceKind := sourceKind mount }

/- Both copies of the lookup are one function. -/
theorem mountTranscode_eq
    (cfg : Config)
    (path : String) :
    mountTranscode cfg path =
      RustyIce.mountTranscode cfg path :=
  rfl

theorem resolveOutputCodec_eq
    (codec : CodecId)
    (transcode : Option TranscodeConfig) :
    resolveOutputCodec codec transcode =
      outputCodec codec transcode := by
  cases transcode with
  | none => rfl
  | some tc =>
      simp only [resolveOutputCodec, outputCodec, codecSeed,
        Option.map_some]
      cases tc.format <;> rfl

end Admin

end RustyIce

------------------------------------------------------------
-- The Owner Of A Path
------------------------------------------------------------

namespace RustyIce

open Library

namespace Config

/-
  The setting of the section that owns a path. A rotation
  has a block of its own always.
-/
def ownTranscode
    (cfg : Config)
    (path : String) : Option TranscodeConfig :=
  match cfg.mounts.find? fun m => m.path = path with
  | some mc => mc.transcode <|> cfg.transcode
  | none =>
      match cfg.autodjs.find? fun a => a.mount = path with
      | some ac => some ac.transcode
      | none =>
          match cfg.relays.find? fun r => r.mount = path with
          | some rc => rc.transcode <|> cfg.transcode
          | none => cfg.transcode

variable {cfg : Config}

theorem ownTranscode_mount
    (hSections : cfg.Sections)
    {mc : MountConfig}
    (hMem : mc ∈ cfg.mounts) :
    cfg.ownTranscode mc.path =
      mountTranscode cfg mc.path := by
  unfold ownTranscode mountTranscode
  rw [Keyed.find?_key hSections.mounts hMem rfl]
  rfl

theorem ownTranscode_autodj
    (hSections : cfg.Sections)
    {ac : AutoDjConfig}
    (hMem : ac ∈ cfg.autodjs) :
    cfg.ownTranscode ac.mount = some ac.transcode ∧
      mountTranscode cfg ac.mount = cfg.transcode := by
  have hMount : ac.mount ∉ cfg.mountPaths := fun hListed =>
    hSections.mount_autodj _ hListed
      (List.mem_map_of_mem hMem)
  refine ⟨?_, mountTranscode_unlisted hMount⟩
  unfold ownTranscode
  rw [Keyed.find?_key_eq_none hMount,
    Keyed.find?_key hSections.autodjs hMem rfl]

theorem ownTranscode_relay
    (hSections : cfg.Sections)
    {rc : RelayConfig}
    (hMem : rc ∈ cfg.relays) :
    cfg.ownTranscode rc.mount =
        (rc.transcode <|> cfg.transcode) ∧
      mountTranscode cfg rc.mount = cfg.transcode := by
  have hListed : rc.mount ∈ cfg.relayPaths :=
    List.mem_map_of_mem hMem
  have hMount : rc.mount ∉ cfg.mountPaths := fun hOther =>
    hSections.mount_relay _ hOther hListed
  have hAutodj : rc.mount ∉ cfg.autodjPaths := fun hOther =>
    hSections.autodj_relay _ hOther hListed
  refine ⟨?_, mountTranscode_unlisted hMount⟩
  unfold ownTranscode
  rw [Keyed.find?_key_eq_none hMount,
    Keyed.find?_key_eq_none hAutodj,
    Keyed.find?_key hSections.relays hMem rfl]

/- A path in no section. -/
theorem ownTranscode_unlisted
    {path : String}
    (hNone : path ∉ cfg.allPaths) :
    cfg.ownTranscode path = mountTranscode cfg path := by
  simp only [mem_allPaths, not_or] at hNone
  rcases hNone with ⟨hMount, hAutodj, hRelay⟩
  rw [mountTranscode_unlisted hMount]
  unfold ownTranscode
  rw [Keyed.find?_key_eq_none hMount,
    Keyed.find?_key_eq_none hAutodj,
    Keyed.find?_key_eq_none hRelay]

/-
  The blocks of the path's rotation or relay, if it has one,
  say nothing that the global block does not.
-/
def NoOwnBlock (cfg : Config) (path : String) : Prop :=
  (∀ ac ∈ cfg.autodjs,
    ac.mount = path → cfg.transcode = some ac.transcode) ∧
    ∀ rc ∈ cfg.relays,
      rc.mount = path →
        ∀ tc, rc.transcode = some tc →
          cfg.transcode = some tc

end Config

/-
  Wherever the transcode settings of a path are looked up,
  they are those of the section that owns it.
-/
structure OneDecision
    (cfg : Config)
    (path : String) : Prop where
  router : mountTranscode cfg path = cfg.ownTranscode path
  live :
    ∀ metadata,
      (buildIngestForMount cfg path metadata).transcode =
        cfg.ownTranscode path
  relay :
    ∀ metadata,
      (buildIngestForRelay cfg path metadata).transcode =
        cfg.ownTranscode path
  listener :
    ∀ mount bus icyMetadata,
      Listener.step cfg path mount bus
          (.arrived icyMetadata) =
        some
          (.configured icyMetadata (cfg.ownTranscode path))
  status :
    ∀ mount : ActiveMount,
      mount.info.path = path →
        Admin.mountTranscode cfg path =
            cfg.ownTranscode path ∧
          (Admin.mountStatus cfg mount).codec =
            (outputCodec mount.info.codec
              (cfg.ownTranscode path)).name

/- Every consumer relies on one lookup. -/
theorem oneDecision_of_router
    {cfg : Config}
    {path : String}
    (hRouter :
      mountTranscode cfg path = cfg.ownTranscode path) :
    OneDecision cfg path where
  router := hRouter
  live := fun _ => hRouter
  relay := fun _ => hRouter
  listener := by
    intro mount bus icyMetadata
    rw [← hRouter]
    rfl
  status := by
    rintro mount rfl
    rw [← hRouter]
    refine ⟨rfl, ?_⟩
    rw [← Admin.resolveOutputCodec_eq]
    rfl

/-
  All lookups agree with the owner of a path exactly if it
  is not a rotation or relay with a block of its own that
  differs from the global one.
-/
theorem oneDecision_iff
    {cfg : Config}
    (hValid : cfg.validatePaths = .ok ())
    (path : String) :
    OneDecision cfg path ↔ cfg.NoOwnBlock path := by
  have hSections := Config.sections_of_valid hValid
  constructor
  · intro hOne
    have hRouter := hOne.router
    constructor
    · rintro ac hMem rfl
      obtain ⟨hOwn, hGlobal⟩ :=
        Config.ownTranscode_autodj hSections hMem
      rw [hOwn, hGlobal] at hRouter
      exact hRouter
    · rintro rc hMem rfl tc hBlock
      obtain ⟨hOwn, hGlobal⟩ :=
        Config.ownTranscode_relay hSections hMem
      rw [hOwn, hGlobal, hBlock] at hRouter
      exact hRouter
  · rintro ⟨hAutodj, hRelay⟩
    apply oneDecision_of_router
    by_cases hListed : path ∈ cfg.allPaths
    · rw [Config.mem_allPaths] at hListed
      rcases hListed with hMount | hRotation | hUpstream
      · rcases List.mem_map.mp hMount with ⟨mc, hMem, rfl⟩
        exact
          (Config.ownTranscode_mount hSections hMem).symm
      · rcases List.mem_map.mp hRotation with
          ⟨ac, hMem, rfl⟩
        obtain ⟨hOwn, hGlobal⟩ :=
          Config.ownTranscode_autodj hSections hMem
        rw [hOwn, hGlobal]
        exact hAutodj ac hMem rfl
      · rcases List.mem_map.mp hUpstream with
          ⟨rc, hMem, rfl⟩
        obtain ⟨hOwn, hGlobal⟩ :=
          Config.ownTranscode_relay hSections hMem
        rw [hOwn, hGlobal]
        cases hBlock : rc.transcode with
        | none => rfl
        | some tc => exact hRelay rc hMem rfl tc hBlock
    · exact (Config.ownTranscode_unlisted hListed).symm

/- A relay that is to be re-encoded, without a global block. -/
def reencodedRelay : Config :=
  { Config.bare with
    relays :=
      [{ RelayConfig.bare "/relay" with
         transcode := some (.bare .vorbis) }] }

theorem reencodedRelay_not_oneDecision :
    reencodedRelay.validatePaths = .ok () ∧
      ¬ OneDecision reencodedRelay "/relay" := by
  refine ⟨rfl, ?_⟩
  intro hOne
  have hIngest := hOne.relay .default
  exact absurd hIngest (by decide)

/- Beside it a mount with a block of its own. -/
def reencodedMount : Config :=
  { reencodedRelay with
    mounts :=
      [{ MountConfig.bare "/live" "hackme" with
         transcode := some (.bare .mp3) }] }

/- All lookups find the block of the mount. -/
theorem oneDecision_reencodedMount :
    OneDecision reencodedMount "/live" := by
  apply (oneDecision_iff rfl "/live").mpr
  constructor
  · exact List.forall_mem_nil _
  · intro rc hMem hPath
    rw [List.mem_singleton.mp hMem] at hPath
    exact absurd hPath (by decide)

end RustyIce
