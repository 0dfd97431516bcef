import RustyIce.Core.Config
import RustyIce.Library.SocketText
import RustyIce.Library.Toml

/-
  Loading a configuration: each record with its field names,
  defaults and number ranges, and the path check on the
  whole.

  A document is taken as the tree its text stands for;
  unknown keys are ignored everywhere.

  Main declarations:
    * `parseSocketAddr`
    * the `read` function of every section
    * `Config.read`, `parseDocument` and `load`
    * `parseDocument_eq_some_iff`
-/

------------------------------------------------------------
-- Values
------------------------------------------------------------

namespace RustyIce

open Library.Toml

def u32Max : Nat := 4294967295
def u64Max : Nat := 18446744073709551615

/- The address a text is, in the text it is written as. -/
def parseSocketAddr (text : String) : Option SocketAddr :=
  (Library.SocketText.read text.toList).map fun address =>
    String.ofList address.write

def SocketAddr.read (item : Item) : Option SocketAddr :=
  item.readString.bind parseSocketAddr

def readU32 : Item → Option Nat :=
  Item.readUnsigned u32Max

/- `usize` is as wide as `u64`. -/
def readU64 : Item → Option Nat :=
  Item.readUnsigned u64Max

def logFormats : List (String × LogFormat) :=
  [("json", .json), ("pretty", .pretty)]

def userRoles : List (String × UserRole) :=
  [("admin", .admin), ("operator", .operator)]

def transcodeFormats : List (String × TranscodeFormat) :=
  [("mp3", .mp3), ("vorbis", .vorbis)]

def orders : List (String × Order) :=
  [("shuffle", .shuffle), ("sequential", .sequential)]

/- Accounts without a role predate roles. -/
def defaultUserRole : UserRole := .admin

def defaultOrder : Order := .shuffle

def defaultBurstSize : Nat := 65536

end RustyIce

------------------------------------------------------------
-- Records
------------------------------------------------------------

namespace RustyIce

open Library.Toml

def ServerConfig.read (item : Item) : Option ServerConfig := do
  let fields ←
    item.fields ["stream_bind", "admin_bind", "hostname"]
  let streamBind ←
    fields.required "stream_bind" SocketAddr.read
  let adminBind ←
    fields.required "admin_bind" SocketAddr.read
  let hostname ← fields.required "hostname" Item.readString
  pure
    { streamBind := streamBind
      adminBind := adminBind
      hostname := hostname }

def LoggingConfig.read
    (item : Item) : Option LoggingConfig := do
  let fields ← item.fields ["level", "format"]
  let level ← fields.required "level" Item.readString
  let format ←
    fields.required "format" (Item.readVariant logFormats)
  pure { level := level, format := format }

def UserConfig.read (item : Item) : Option UserConfig := do
  let fields ←
    item.fields ["username", "password_bcrypt", "role"]
  let username ← fields.required "username" Item.readString
  let passwordBcrypt ←
    fields.required "password_bcrypt" Item.readString
  let role ←
    fields.withDefault "role" (Item.readVariant userRoles)
      defaultUserRole
  pure
    { username := username
      passwordBcrypt := passwordBcrypt
      role := role }

def AuthConfig.read (item : Item) : Option AuthConfig := do
  let fields ← item.fields ["users", "source_password"]
  let users ←
    fields.withDefault "users"
      (Item.readList UserConfig.read) []
  let sourcePassword ←
    fields.optional "source_password" Item.readString
  pure { users := users, sourcePassword := sourcePassword }

def LimitsConfig.read (item : Item) : Option LimitsConfig := do
  let fields ←
    item.fields
      ["max_listeners_global", "ring_size",
        "slow_listener_grace_s", "source_max_kbps",
        "burst_size"]
  let maxListenersGlobal ←
    fields.required "max_listeners_global" readU32
  let ringSize ← fields.required "ring_size" readU64
  let slowListenerGraceS ←
    fields.required "slow_listener_grace_s" readU64
  let sourceMaxKbps ←
    fields.optional "source_max_kbps" readU32
  let burstSize ←
    fields.withDefault "burst_size" readU32 defaultBurstSize
  pure
    { maxListenersGlobal := maxListenersGlobal
      ringSize := ringSize
      slowListenerGraceS := slowListenerGraceS
      sourceMaxKbps := sourceMaxKbps
      burstSize := burstSize }

def TranscodeConfig.read
    (item : Item) : Option TranscodeConfig := do
  let fields ←
    item.fields ["format", "sample_rate", "bitrate_kbps"]
  let format ←
    fields.required "format"
      (Item.readVariant transcodeFormats)
  let sampleRate ← fields.required "sample_rate" readU32
  let bitrateKbps ← fields.required "bitrate_kbps" readU32
  pure
    { format := format
      sampleRate := sampleRate
      bitrateKbps := bitrateKbps }

def MountConfig.read (item : Item) : Option MountConfig := do
  let fields ←
    item.fields
      ["path", "source_password", "max_listeners", "name",
        "description", "genre", "url", "transcode",
        "burst_size"]
  let path ← fields.required "path" Item.readString
  let sourcePassword ←
    fields.required "source_password" Item.readString
  let maxListeners ← fields.optional "max_listeners" readU32
  let name ← fields.optional "name" Item.readString
  let description ←
    fields.optional "description" Item.readString
  let genre ← fields.optional "genre" Item.readString
  let url ← fields.optional "url" Item.readString
  let transcode ←
    fields.optional "transcode" TranscodeConfig.read
  let burstSize ← fields.optional "burst_size" readU32
  pure
    { path := path
      sourcePassword := sourcePassword
      maxListeners := maxListeners
      name := name
      description := description
      genre := genre
      url := url
      transcode := transcode
      burstSize := burstSize }

def AutoDjConfig.read (item : Item) : Option AutoDjConfig := do
  let fields ←
    item.fields
      ["mount", "folder", "name", "description", "genre",
        "url", "enabled", "loop", "order", "max_listeners",
        "burst_size", "transcode"]
  let mount ← fields.required "mount" Item.readString
  let folder ← fields.required "folder" Item.readString
  let name ← fields.optional "name" Item.readString
  let description ←
    fields.optional "description" Item.readString
  let genre ← fields.optional "genre" Item.readString
  let url ← fields.optional "url" Item.readString
  let enabled ←
    fields.withDefault "enabled" Item.readBoolean true
  let loopPlaylist ←
    fields.withDefault "loop" Item.readBoolean true
  let order ←
    fields.withDefault "order" (Item.readVariant orders)
      defaultOrder
  let maxListeners ← fields.optional "max_listeners" readU32
  let burstSize ← fields.optional "burst_size" readU32
  let transcode ←
    fields.required "transcode" TranscodeConfig.read
  pure
    { mount := mount
      folder := folder
      name := name
      description := description
      genre := genre
      url := url
      enabled := enabled
      loopPlaylist := loopPlaylist
      order := order
      maxListeners := maxListeners
      burstSize := burstSize
      transcode := transcode }

def RelayConfig.read (item : Item) : Option RelayConfig := do
  let fields ←
    item.fields
      ["mount", "upstream", "name", "description", "genre",
        "url", "enabled", "username", "password",
        "max_listeners", "burst_size", "transcode"]
  let mount ← fields.required "mount" Item.readString
  let upstream ← fields.required "upstream" Item.readString
  let name ← fields.optional "name" Item.readString
  let description ←
    fields.optional "description" Item.readString
  let genre ← fields.optional "genre" Item.readString
  let url ← fields.optional "url" Item.readString
  let enabled ←
    fields.withDefault "enabled" Item.readBoolean true
  let username ← fields.optional "username" Item.readString
  let password ← fields.optional "password" Item.readString
  let maxListeners ← fields.optional "max_listeners" readU32
  let burstSize ← fields.optional "burst_size" readU32
  let transcode ←
    fields.optional "transcode" TranscodeConfig.read
  pure
    { mount := mount
      upstream := upstream
      name := name
      description := description
      genre := genre
      url := url
      enabled := enabled
      username := username
      password := password
      maxListeners := maxListeners
      burstSize := burstSize
      transcode := transcode }

def TlsConfig.read (item : Item) : Option TlsConfig := do
  let fields ← item.fields ["acme_domain", "cert_cache_dir"]
  let acmeDomain ←
    fields.optional "acme_domain" Item.readString
  let certCacheDir ←
    fields.optional "cert_cache_dir" Item.readString
  pure
    { acmeDomain := acmeDomain
      certCacheDir := certCacheDir }

end RustyIce

------------------------------------------------------------
-- The Whole Document
------------------------------------------------------------

namespace RustyIce

open Library.Toml

def Config.read (fields : Fields) : Option Config := do
  let server ← fields.required "server" ServerConfig.read
  let logging ← fields.required "logging" LoggingConfig.read
  let auth ← fields.required "auth" AuthConfig.read
  let limits ← fields.required "limits" LimitsConfig.read
  let mounts ←
    fields.withDefault "mounts"
      (Item.readList MountConfig.read) []
  let autodjs ←
    fields.withDefault "autodjs"
      (Item.readList AutoDjConfig.read) []
  let relays ←
    fields.withDefault "relays"
      (Item.readList RelayConfig.read) []
  let tls ← fields.optional "tls" TlsConfig.read
  let transcode ←
    fields.optional "transcode" TranscodeConfig.read
  pure
    { server := server
      logging := logging
      auth := auth
      limits := limits
      mounts := mounts
      autodjs := autodjs
      relays := relays
      tls := tls
      transcode := transcode }

def parseDocument (document : Table) : Option Config :=
  Config.read document.get

/- What loading a file can fail with, once it was read. -/
inductive ConfigError where
| parse
| invalid (message : String)
deriving DecidableEq, Repr

def load (document : Table) : Except ConfigError Config :=
  match parseDocument document with
  | none => .error .parse
  | some cfg =>
      match cfg.validatePaths with
      | .error message => .error (.invalid message)
      | .ok () => .ok cfg

/- A document is accepted if it parses and has good paths. -/
theorem load_eq_ok_iff
    {document : Table}
    {cfg : Config} :
    load document = .ok cfg ↔
      parseDocument document = some cfg ∧
        cfg.validatePaths = .ok () := by
  unfold load
  cases hParse : parseDocument document with
  | none => simp
  | some parsed =>
      cases hPaths : parsed.validatePaths with
      | error message =>
          constructor
          · intro hLoad
            simp [hPaths] at hLoad
          · rintro ⟨hEq, hValid⟩
            cases hEq
            rw [hPaths] at hValid
            cases hValid
      | ok value =>
          constructor
          · intro hLoad
            simp only [hPaths, Except.ok.injEq] at hLoad
            subst hLoad
            exact ⟨rfl, hPaths⟩
          · rintro ⟨hEq, _⟩
            cases hEq
            simp [hPaths]

/- Each section is read from its own key. -/
structure ParsesTo
    (fields : Fields)
    (cfg : Config) : Prop where
  server :
    fields.required "server" ServerConfig.read =
      some cfg.server
  logging :
    fields.required "logging" LoggingConfig.read =
      some cfg.logging
  auth :
    fields.required "auth" AuthConfig.read = some cfg.auth
  limits :
    fields.required "limits" LimitsConfig.read =
      some cfg.limits
  mounts :
    fields.withDefault "mounts"
      (Item.readList MountConfig.read) [] = some cfg.mounts
  autodjs :
    fields.withDefault "autodjs"
      (Item.readList AutoDjConfig.read) [] =
        some cfg.autodjs
  relays :
    fields.withDefault "relays"
      (Item.readList RelayConfig.read) [] = some cfg.relays
  tls :
    fields.optional "tls" TlsConfig.read = some cfg.tls
  transcode :
    fields.optional "transcode" TranscodeConfig.read =
      some cfg.transcode

theorem parseDocument_eq_some_iff
    {document : Table}
    {cfg : Config} :
    parseDocument document = some cfg ↔
      ParsesTo document.get cfg := by
  unfold parseDocument Config.read
  simp only [Option.bind_eq_bind, Option.bind_eq_some_iff,
    Option.pure_def, Option.some.injEq]
  constructor
  · rintro
      ⟨server, hServer, logging, hLogging, auth, hAuth,
        limits, hLimits, mounts, hMounts, autodjs, hAutodjs,
        relays, hRelays, tls, hTls, transcode, hTranscode,
        rfl⟩
    exact
      ⟨hServer, hLogging, hAuth, hLimits, hMounts, hAutodjs,
        hRelays, hTls, hTranscode⟩
  · rintro
      ⟨hServer, hLogging, hAuth, hLimits, hMounts, hAutodjs,
        hRelays, hTls, hTranscode⟩
    exact
      ⟨_, hServer, _, hLogging, _, hAuth, _, hLimits,
        _, hMounts, _, hAutodjs, _, hRelays, _, hTls,
        _, hTranscode, rfl⟩

end RustyIce
