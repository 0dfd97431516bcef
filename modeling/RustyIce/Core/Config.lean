import RustyIce.Core.Types
import Mathlib.Data.List.Nodup

/-
  The configuration record and the path check every loaded
  file and most saves go through.

  Unsigned machine integers are natural numbers here: no
  modelled function wraps them.

  Main declarations:
    * `Config` and its sections
    * `Config.effectiveTranscode`
    * `Config.validatePaths`
    * `Config.validatePaths_ok_iff`
-/

------------------------------------------------------------
-- Sections
------------------------------------------------------------

namespace RustyIce

/- A socket address, in the text form the file uses. -/
abbrev SocketAddr := String

structure ServerConfig where
  streamBind : SocketAddr
  adminBind : SocketAddr
  hostname : String
deriving DecidableEq, Repr

inductive LogFormat where
| json
| pretty
deriving DecidableEq, Repr

structure LoggingConfig where
  level : String
  format : LogFormat
deriving DecidableEq, Repr

inductive UserRole where
| admin
| operator
deriving DecidableEq, Repr

structure UserConfig where
  username : String
  passwordBcrypt : String
  role : UserRole
deriving DecidableEq, Repr

structure AuthConfig where
  users : List UserConfig
  sourcePassword : Option String
deriving DecidableEq, Repr

structure LimitsConfig where
  maxListenersGlobal : Nat
  ringSize : Nat
  slowListenerGraceS : Nat
  sourceMaxKbps : Option Nat
  burstSize : Nat
deriving DecidableEq, Repr

inductive TranscodeFormat where
| mp3
| vorbis
deriving DecidableEq, Repr

structure TranscodeConfig where
  format : TranscodeFormat
  sampleRate : Nat
  bitrateKbps : Nat
deriving DecidableEq, Repr

structure MountConfig where
  path : String
  sourcePassword : String
  maxListeners : Option Nat
  name : Option String
  description : Option String
  genre : Option String
  url : Option String
  transcode : Option TranscodeConfig
  burstSize : Option Nat
deriving DecidableEq, Repr

inductive Order where
| shuffle
| sequential
deriving DecidableEq, Repr

structure AutoDjConfig where
  mount : String
  folder : String
  name : Option String
  description : Option String
  genre : Option String
  url : Option String
  enabled : Bool
  loopPlaylist : Bool
  order : Order
  maxListeners : Option Nat
  burstSize : Option Nat
  transcode : TranscodeConfig
deriving DecidableEq, Repr

structure RelayConfig where
  mount : String
  upstream : String
  name : Option String
  description : Option String
  genre : Option String
  url : Option String
  enabled : Bool
  username : Option String
  password : Option String
  maxListeners : Option Nat
  burstSize : Option Nat
  transcode : Option TranscodeConfig
deriving DecidableEq, Repr

structure TlsConfig where
  acmeDomain : Option String
  certCacheDir : Option String
deriving DecidableEq, Repr

structure Config where
  server : ServerConfig
  logging : LoggingConfig
  auth : AuthConfig
  limits : LimitsConfig
  mounts : List MountConfig
  autodjs : List AutoDjConfig
  relays : List RelayConfig
  tls : Option TlsConfig
  transcode : Option TranscodeConfig
deriving DecidableEq, Repr

end RustyIce

------------------------------------------------------------
-- Effective Settings
------------------------------------------------------------

namespace RustyIce

namespace Config

/- The per-mount transcode block wins over the global one. -/
def effectiveTranscode
    (cfg : Config)
    (mount : MountConfig) : Option TranscodeConfig :=
  mount.transcode <|> cfg.transcode

/- The paths a configuration names, section by section. -/
def mountPaths (cfg : Config) : List String :=
  cfg.mounts.map (·.path)

def autodjPaths (cfg : Config) : List String :=
  cfg.autodjs.map (·.mount)

def relayPaths (cfg : Config) : List String :=
  cfg.relays.map (·.mount)

end Config

end RustyIce

------------------------------------------------------------
-- Path Validation
------------------------------------------------------------

namespace RustyIce

/- An upstream is an absolute HTTP URL. -/
def isHttpUrl (upstream : String) : Bool :=
  "http://".toList.isPrefixOf upstream.toList ||
    "https://".toList.isPrefixOf upstream.toList

/-
  The credential pair of a relay is complete or absent; the
  error names the missing half.
-/
def checkRelayCredentials
    (r : RelayConfig) : Except String Unit :=
  match r.username, r.password with
  | some _, none =>
      .error
        ("relay '" ++ r.mount ++
          "' has username but no password")
  | none, some _ =>
      .error
        ("relay '" ++ r.mount ++
          "' has password but no username")
  | some _, some _ => .ok ()
  | none, none => .ok ()

/- The checks on one relay entry other than uniqueness. -/
def checkRelay (r : RelayConfig) : Except String Unit :=
  if isHttpUrl r.upstream then
    checkRelayCredentials r
  else
    .error
      ("relay '" ++ r.mount ++
        "' upstream must be an http:// or https:// URL, " ++
        "got '" ++ r.upstream ++ "'")

/-
  One section of the scan. `seen` is the set of paths met so
  far, `path` the key of an entry, `duplicate` the text of
  the collision error and `check` what else the section
  asks of an entry. Returns the enlarged set.
-/
def scanSection {Entry : Type}
    (path : Entry → String)
    (duplicate : String)
    (check : Entry → Except String Unit) :
    List String → List Entry → Except String (List String)
| seen, [] => .ok seen
| seen, entry :: entries =>
    if path entry ∈ seen then
      .error (duplicate ++ path entry)
    else
      match check entry with
      | .error message => .error message
      | .ok () =>
          scanSection path duplicate check
            (path entry :: seen) entries

/-
  Every `[[mounts]].path`, `[[autodjs]].mount` and
  `[[relays]].mount` is unique, and relay entries are
  complete.
-/
def Config.validatePaths
    (cfg : Config) : Except String Unit := do
  let seen ←
    scanSection MountConfig.path
      "duplicate mount path: " (fun _ => .ok ())
      [] cfg.mounts
  let seen ←
    scanSection AutoDjConfig.mount
      "duplicate autodj mount path: " (fun _ => .ok ())
      seen cfg.autodjs
  let _ ←
    scanSection RelayConfig.mount
      "duplicate relay mount path: " checkRelay
      seen cfg.relays
  pure ()

/- What a successful section scan means. -/
theorem scanSection_ok_iff {Entry : Type}
    (path : Entry → String)
    (duplicate : String)
    (check : Entry → Except String Unit)
    (seen : List String)
    (entries : List Entry)
    (result : List String) :
    scanSection path duplicate check seen entries =
        .ok result ↔
      result = (entries.map path).reverse ++ seen ∧
        (entries.map path).Nodup ∧
        (∀ p ∈ entries.map path, p ∉ seen) ∧
        ∀ entry ∈ entries, check entry = .ok () := by
  induction entries generalizing seen with
  | nil =>
      simp [scanSection, eq_comm]
  | cons entry entries ih =>
      rw [scanSection]
      by_cases hSeen : path entry ∈ seen
      · simp [hSeen]
      · cases hCheck : check entry with
        | error message =>
            simp [hSeen, hCheck]
        | ok value =>
            simp only [hSeen, if_false, ih,
              List.map_cons, List.reverse_cons,
              List.append_assoc, List.singleton_append,
              List.nodup_cons, List.mem_cons,
              forall_eq_or_imp, hCheck, not_or]
            constructor
            · rintro ⟨hResult, hNodup, hFresh, hAll⟩
              refine ⟨hResult, ⟨?_, hNodup⟩, ⟨?_, ?_⟩, ?_⟩
              · intro hMem
                exact (hFresh _ hMem).1 rfl
              · simp
              · intro p hp
                exact (hFresh p hp).2
              · exact ⟨trivial, hAll⟩
            · rintro
                ⟨hResult, ⟨hNew, hNodup⟩, ⟨_, hFresh⟩, _, hAll⟩
              refine ⟨hResult, hNodup, ?_, hAll⟩
              intro p hp
              exact ⟨fun hEq => hNew (hEq ▸ hp), hFresh p hp⟩

/- The paths of all three sections, in scan order. -/
def Config.allPaths (cfg : Config) : List String :=
  cfg.mountPaths ++ cfg.autodjPaths ++ cfg.relayPaths

/- The check passes if its three scans do. -/
theorem Config.validatePaths_scans_iff (cfg : Config) :
    cfg.validatePaths = .ok () ↔
      ∃ seen more all,
        scanSection MountConfig.path
            "duplicate mount path: " (fun _ => .ok ())
            [] cfg.mounts = .ok seen ∧
          scanSection AutoDjConfig.mount
              "duplicate autodj mount path: "
              (fun _ => .ok ()) seen cfg.autodjs =
            .ok more ∧
            scanSection RelayConfig.mount
                "duplicate relay mount path: " checkRelay
                more cfg.relays =
              .ok all := by
  unfold validatePaths
  cases hFirst :
      scanSection MountConfig.path
        "duplicate mount path: " (fun _ => .ok ())
        [] cfg.mounts with
  | error message => simp [bind, Except.bind]
  | ok seen =>
      cases hSecond :
          scanSection AutoDjConfig.mount
            "duplicate autodj mount path: "
            (fun _ => .ok ()) seen cfg.autodjs with
      | error message => simp [bind, Except.bind, hSecond]
      | ok more =>
          cases hThird :
              scanSection RelayConfig.mount
                "duplicate relay mount path: " checkRelay
                more cfg.relays with
          | error message =>
              simp [bind, Except.bind, hSecond, hThird]
          | ok all =>
              simp [bind, Except.bind, pure, Except.pure,
                hSecond, hThird]

/- What it takes for a configuration to pass the check. -/
theorem Config.validatePaths_ok_iff (cfg : Config) :
    cfg.validatePaths = .ok () ↔
      cfg.allPaths.Nodup ∧
        ∀ r ∈ cfg.relays, checkRelay r = .ok () := by
  simp only [validatePaths_scans_iff, scanSection_ok_iff,
    allPaths, mountPaths, autodjPaths, relayPaths,
    List.nodup_append, List.mem_append]
  constructor
  · rintro
      ⟨_, _, _, ⟨rfl, hMounts, _⟩,
        ⟨rfl, hAutodjs, hFresh, _⟩,
        ⟨_, hRelays, hFresh', hCheck⟩⟩
    refine
      ⟨⟨⟨hMounts, hAutodjs, ?_⟩, hRelays, ?_⟩, hCheck⟩
    · intro p hp q hq hEq
      subst hEq
      apply hFresh p hq
      simpa using hp
    · intro p hp q hq hEq
      subst hEq
      apply hFresh' p hq
      simpa [or_comm] using hp
  · rintro
      ⟨⟨⟨hMounts, hAutodjs, hApart⟩, hRelays, hApart'⟩,
        hCheck⟩
    refine
      ⟨_, _, _, ⟨rfl, hMounts, by simp, by simp⟩,
        ⟨rfl, hAutodjs, ?_, by simp⟩,
        ⟨rfl, hRelays, ?_, hCheck⟩⟩
    · intro p hp hSeen
      exact hApart p (by simpa using hSeen) p hp rfl
    · intro p hp hSeen
      refine hApart' p ?_ p hp rfl
      simpa [or_comm] using hSeen

end RustyIce

------------------------------------------------------------
-- Bare Entries
------------------------------------------------------------

namespace RustyIce

/- A mount with a path, a password and nothing else. -/
def MountConfig.bare
    (path sourcePassword : String) : MountConfig where
  path := path
  sourcePassword := sourcePassword
  maxListeners := none
  name := none
  description := none
  genre := none
  url := none
  transcode := none
  burstSize := none

def TranscodeConfig.bare
    (format : TranscodeFormat) : TranscodeConfig where
  format := format
  sampleRate := 44100
  bitrateKbps := 128

/- A rotation with the defaults of the file format. -/
def AutoDjConfig.bare
    (mount : String)
    (format : TranscodeFormat) : AutoDjConfig where
  mount := mount
  folder := "/music"
  name := none
  description := none
  genre := none
  url := none
  enabled := true
  loopPlaylist := true
  order := .shuffle
  maxListeners := none
  burstSize := none
  transcode := .bare format

/- A relay without credentials. -/
def RelayConfig.bare (mount : String) : RelayConfig where
  mount := mount
  upstream := "http://upstream/stream"
  name := none
  description := none
  genre := none
  url := none
  enabled := true
  username := none
  password := none
  maxListeners := none
  burstSize := none
  transcode := none

/- A server without any mount. -/
def Config.bare : Config where
  server :=
    { streamBind := "0.0.0.0:8000"
      adminBind := "127.0.0.1:8001"
      hostname := "localhost" }
  logging := { level := "info", format := .json }
  auth := { users := [], sourcePassword := none }
  limits :=
    { maxListenersGlobal := 500
      ringSize := 64
      slowListenerGraceS := 2
      sourceMaxKbps := none
      burstSize := 65536 }
  mounts := []
  autodjs := []
  relays := []
  tls := none
  transcode := none

/- A server with one rotation. -/
def rotationConfig : Config :=
  { Config.bare with
    autodjs := [.bare "/radio" .mp3] }

/- The same path as a plain mount. -/
def plainConfig : Config :=
  { Config.bare with
    mounts := [.bare "/radio" "secret"] }

end RustyIce
