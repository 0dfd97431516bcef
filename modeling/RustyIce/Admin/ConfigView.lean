import RustyIce.Admin.ConfigPut
import RustyIce.Library.Json

/-
  What the configuration endpoints show of a configuration:
  the secrets replaced by the sentinel, the sections an
  operator may not see left out, and the JSON of the rest.

  Main declarations:
    * `redact`, `ConfigResponse`, `buildConfigResponse`
    * the `json` function of every record
    * the `read` function of every request body
    * `PutRequest.read`
-/

------------------------------------------------------------
-- Responses
------------------------------------------------------------

namespace RustyIce

/- Shown in place of a secret. -/
def redacted : String := "***"

def redact (cfg : Config) : Config :=
  { cfg with
    auth :=
      { users :=
          cfg.auth.users.map fun u =>
            { u with passwordBcrypt := redacted }
        sourcePassword :=
          cfg.auth.sourcePassword.map fun _ => redacted }
    mounts :=
      cfg.mounts.map fun m =>
        { m with sourcePassword := redacted }
    relays :=
      cfg.relays.map fun r =>
        { r with password := r.password.map fun _ => redacted } }

/- Sections only an admin sees are absent for an operator. -/
structure ConfigResponse where
  server : Option ServerConfig
  logging : Option LoggingConfig
  auth : AuthConfig
  limits : Option LimitsConfig
  mounts : List MountConfig
  autodjs : List AutoDjConfig
  relays : List RelayConfig
  tls : Option TlsConfig
  transcode : Option TranscodeConfig
  path : Option String
  source : String
deriving DecidableEq, Repr

def buildConfigResponse
    (cfg : Config)
    (configPath : Option String)
    (isAdmin : Bool) : ConfigResponse :=
  let shown := redact cfg
  let source :=
    if configPath.isSome then "file" else "defaults"
  if isAdmin then
    { server := some shown.server
      logging := some shown.logging
      auth := shown.auth
      limits := some shown.limits
      mounts := shown.mounts
      autodjs := shown.autodjs
      relays := shown.relays
      tls := shown.tls
      transcode := shown.transcode
      path := configPath
      source := source }
  else
    { server := none
      logging := none
      auth := { users := [], sourcePassword := none }
      limits := none
      mounts := shown.mounts
      autodjs := shown.autodjs
      relays := shown.relays
      tls := none
      transcode := none
      path := configPath
      source := source }

end RustyIce

------------------------------------------------------------
-- Writing
------------------------------------------------------------

namespace RustyIce

open Library

def natJson (n : Nat) : Json :=
  .number n

/- An enumeration is written as its name in small letters. -/
def LogFormat.name : LogFormat → String
| .json => "json"
| .pretty => "pretty"

def UserRole.name : UserRole → String
| .admin => "admin"
| .operator => "operator"

def TranscodeFormat.name : TranscodeFormat → String
| .mp3 => "mp3"
| .vorbis => "vorbis"

def Order.name : Order → String
| .shuffle => "shuffle"
| .sequential => "sequential"

def ServerConfig.spec
    (c : ServerConfig) : List (String × Option Json) :=
  [("stream_bind", some (.string c.streamBind)),
    ("admin_bind", some (.string c.adminBind)),
    ("hostname", some (.string c.hostname))]

def ServerConfig.json (c : ServerConfig) : Json :=
  .record c.spec

def LoggingConfig.spec
    (c : LoggingConfig) : List (String × Option Json) :=
  [("level", some (.string c.level)),
    ("format", some (.string c.format.name))]

def LoggingConfig.json (c : LoggingConfig) : Json :=
  .record c.spec

def UserConfig.spec
    (u : UserConfig) : List (String × Option Json) :=
  [("username", some (.string u.username)),
    ("password_bcrypt", some (.string u.passwordBcrypt)),
    ("role", some (.string u.role.name))]

def UserConfig.json (u : UserConfig) : Json :=
  .record u.spec

def AuthConfig.spec
    (a : AuthConfig) : List (String × Option Json) :=
  [("users", some (.array (a.users.map UserConfig.json))),
    ("source_password", a.sourcePassword.map .string)]

def AuthConfig.json (a : AuthConfig) : Json :=
  .record a.spec

def LimitsConfig.spec
    (l : LimitsConfig) : List (String × Option Json) :=
  [("max_listeners_global",
      some (natJson l.maxListenersGlobal)),
    ("ring_size", some (natJson l.ringSize)),
    ("slow_listener_grace_s",
      some (natJson l.slowListenerGraceS)),
    ("source_max_kbps", l.sourceMaxKbps.map natJson),
    ("burst_size", some (natJson l.burstSize))]

def LimitsConfig.json (l : LimitsConfig) : Json :=
  .record l.spec

def TranscodeConfig.spec
    (t : TranscodeConfig) : List (String × Option Json) :=
  [("format", some (.string t.format.name)),
    ("sample_rate", some (natJson t.sampleRate)),
    ("bitrate_kbps", some (natJson t.bitrateKbps))]

def TranscodeConfig.json (t : TranscodeConfig) : Json :=
  .record t.spec

def MountConfig.spec
    (m : MountConfig) : List (String × Option Json) :=
  [("path", some (.string m.path)),
    ("source_password", some (.string m.sourcePassword)),
    ("max_listeners", m.maxListeners.map natJson),
    ("name", m.name.map .string),
    ("description", m.description.map .string),
    ("genre", m.genre.map .string),
    ("url", m.url.map .string),
    ("transcode", m.transcode.map TranscodeConfig.json),
    ("burst_size", m.burstSize.map natJson)]

def MountConfig.json (m : MountConfig) : Json :=
  .record m.spec

def AutoDjConfig.spec
    (a : AutoDjConfig) : List (String × Option Json) :=
  [("mount", some (.string a.mount)),
    ("folder", some (.string a.folder)),
    ("name", a.name.map .string),
    ("description", a.description.map .string),
    ("genre", a.genre.map .string),
    ("url", a.url.map .string),
    ("enabled", some (.bool a.enabled)),
    ("loop", some (.bool a.loopPlaylist)),
    ("order", some (.string a.order.name)),
    ("max_listeners", a.maxListeners.map natJson),
    ("burst_size", a.burstSize.map natJson),
    ("transcode", some a.transcode.json)]

def AutoDjConfig.json (a : AutoDjConfig) : Json :=
  .record a.spec

def RelayConfig.spec
    (r : RelayConfig) : List (String × Option Json) :=
  [("mount", some (.string r.mount)),
    ("upstream", some (.string r.upstream)),
    ("name", r.name.map .string),
    ("description", r.description.map .string),
    ("genre", r.genre.map .string),
    ("url", r.url.map .string),
    ("enabled", some (.bool r.enabled)),
    ("username", r.username.map .string),
    ("password", r.password.map .string),
    ("max_listeners", r.maxListeners.map natJson),
    ("burst_size", r.burstSize.map natJson),
    ("transcode", r.transcode.map TranscodeConfig.json)]

def RelayConfig.json (r : RelayConfig) : Json :=
  .record r.spec

def TlsConfig.spec
    (t : TlsConfig) : List (String × Option Json) :=
  [("acme_domain", t.acmeDomain.map .string),
    ("cert_cache_dir", t.certCacheDir.map .string)]

def TlsConfig.json (t : TlsConfig) : Json :=
  .record t.spec

/- The fields of a response, none of them skipped. -/
def ConfigResponse.spec
    (r : ConfigResponse) : List (String × Option Json) :=
  [("server",
      some (.orNull (r.server.map ServerConfig.json))),
    ("logging",
      some (.orNull (r.logging.map LoggingConfig.json))),
    ("auth", some r.auth.json),
    ("limits",
      some (.orNull (r.limits.map LimitsConfig.json))),
    ("mounts", some (.array (r.mounts.map MountConfig.json))),
    ("autodjs",
      some (.array (r.autodjs.map AutoDjConfig.json))),
    ("relays", some (.array (r.relays.map RelayConfig.json))),
    ("tls", some (.orNull (r.tls.map TlsConfig.json))),
    ("transcode",
      some (.orNull (r.transcode.map TranscodeConfig.json))),
    ("path", some (.orNull (r.path.map .string))),
    ("source", some (.string r.source))]

def ConfigResponse.json (r : ConfigResponse) : Json :=
  .record r.spec

end RustyIce

------------------------------------------------------------
-- Request Bodies
------------------------------------------------------------

namespace RustyIce

namespace ConfigPut

open ConfigWrite Library Library.Json

def bodyU32 : Json → Option UInt32
| .number value =>
    if 0 ≤ value ∧ value ≤ u32Max then
      some (.ofNat value.toNat)
    else
      none
| _ => none

def bodyU64 : Json → Option UInt64
| .number value =>
    if 0 ≤ value ∧ value ≤ u64Max then
      some (.ofNat value.toNat)
    else
      none
| _ => none

/- The address a text is; the test holds of every address. -/
def bodyAddr : Json → Option BindAddr
| .string text => do
    let addr ← parseSocketAddr text
    if hAddr : parseSocketAddr addr = some addr then
      pure ⟨addr, hAddr⟩
    else
      none
| _ => none

def ServerSubBody.read
    (body : Json) : Option ServerSubPatch := do
  let fields ←
    body.fields ["stream_bind", "admin_bind", "hostname"]
  let streamBind ← fields.required "stream_bind" bodyAddr
  let adminBind ← fields.required "admin_bind" bodyAddr
  let hostname ← fields.required "hostname" readString
  pure
    { streamBind := streamBind
      adminBind := adminBind
      hostname := hostname }

def LoggingSubBody.read
    (body : Json) : Option LoggingSubPatch := do
  let fields ← body.fields ["level", "format"]
  let level ← fields.required "level" readString
  let format ← fields.required "format" readString
  pure { level := level, format := format }

def LimitsSubBody.read
    (body : Json) : Option LimitsSubPatch := do
  let fields ←
    body.fields
      ["max_listeners_global", "ring_size",
        "slow_listener_grace_s", "burst_size",
        "source_max_kbps"]
  let maxListenersGlobal ←
    fields.required "max_listeners_global" bodyU32
  let ringSize ← fields.required "ring_size" bodyU64
  let slowListenerGraceS ←
    fields.required "slow_listener_grace_s" bodyU64
  let burstSize ← fields.required "burst_size" bodyU32
  let sourceMaxKbps ←
    fields.optional "source_max_kbps" bodyU32
  pure
    { maxListenersGlobal := maxListenersGlobal
      ringSize := ringSize
      slowListenerGraceS := slowListenerGraceS
      burstSize := burstSize
      sourceMaxKbps := sourceMaxKbps }

def AuthSubBody.read (body : Json) : Option AuthSubBody := do
  let fields ← body.fields ["source_password"]
  let sourcePassword ←
    fields.optional "source_password" readString
  pure ⟨sourcePassword⟩

def ServerPutBody.read
    (body : Json) : Option ServerPutBody := do
  let fields ←
    body.fields ["server", "logging", "limits", "auth"]
  let server ← fields.required "server" ServerSubBody.read
  let logging ← fields.required "logging" LoggingSubBody.read
  let limits ← fields.required "limits" LimitsSubBody.read
  let auth ← fields.optional "auth" AuthSubBody.read
  pure
    { server := server
      logging := logging
      limits := limits
      auth := auth }

def TranscodeSubBody.read
    (body : Json) : Option TranscodeSubPatch := do
  let fields ←
    body.fields ["format", "sample_rate", "bitrate_kbps"]
  let format ← fields.required "format" readString
  let sampleRate ← fields.required "sample_rate" bodyU32
  let bitrateKbps ← fields.required "bitrate_kbps" bodyU32
  pure
    { format := format
      sampleRate := sampleRate
      bitrateKbps := bitrateKbps }

def TranscodePutBody.read
    (body : Json) : Option TranscodePatch := do
  let fields ← body.fields ["transcode"]
  let transcode ←
    fields.optional "transcode" TranscodeSubBody.read
  pure ⟨transcode⟩

def MountSubBody.read
    (body : Json) : Option MountSubBody := do
  let fields ←
    body.fields
      ["path", "source_password", "max_listeners", "name",
        "description", "genre", "url", "burst_size",
        "transcode"]
  let path ← fields.required "path" readString
  let sourcePassword ←
    fields.optional "source_password" readString
  let maxListeners ← fields.optional "max_listeners" bodyU32
  let name ← fields.optional "name" readString
  let description ← fields.optional "description" readString
  let genre ← fields.optional "genre" readString
  let url ← fields.optional "url" readString
  let burstSize ← fields.optional "burst_size" bodyU32
  let transcode ←
    fields.optional "transcode" TranscodeSubBody.read
  pure
    { path := path
      sourcePassword := sourcePassword
      maxListeners := maxListeners
      name := name
      description := description
      genre := genre
      url := url
      burstSize := burstSize
      transcode := transcode }

def MountsPutBody.read
    (body : Json) : Option (List MountSubBody) := do
  let fields ← body.fields ["mounts"]
  fields.required "mounts" (readList MountSubBody.read)

def UserSubBody.read
    (body : Json) : Option UserSubBody := do
  let fields ← body.fields ["username", "password", "role"]
  let username ← fields.required "username" readString
  let password ← fields.optional "password" readString
  let role ← fields.required "role" readString
  pure
    { username := username
      password := password
      role := role }

def UsersPutBody.read
    (body : Json) : Option (List UserSubBody) := do
  let fields ← body.fields ["users"]
  fields.required "users" (readList UserSubBody.read)

def AutoDjSubBody.read
    (body : Json) : Option AutoDjSubPatch := do
  let fields ←
    body.fields
      ["mount", "folder", "enabled", "loop", "order", "name",
        "description", "genre", "url", "max_listeners",
        "burst_size", "transcode"]
  let mount ← fields.required "mount" readString
  let folder ← fields.required "folder" readString
  let enabled ← fields.withDefault "enabled" readBool true
  let loopPlaylist ← fields.withDefault "loop" readBool true
  let order ←
    fields.withDefault "order" readString "shuffle"
  let name ← fields.optional "name" readString
  let description ← fields.optional "description" readString
  let genre ← fields.optional "genre" readString
  let url ← fields.optional "url" readString
  let maxListeners ← fields.optional "max_listeners" bodyU32
  let burstSize ← fields.optional "burst_size" bodyU32
  let transcode ←
    fields.required "transcode" TranscodeSubBody.read
  pure
    { mount := mount
      folder := folder
      enabled := enabled
      loopPlaylist := loopPlaylist
      order := order
      name := name
      description := description
      genre := genre
      url := url
      maxListeners := maxListeners
      burstSize := burstSize
      transcode := transcode }

def AutoDjsPutBody.read
    (body : Json) : Option AutoDjsPatch := do
  let fields ← body.fields ["autodjs"]
  let autodjs ←
    fields.required "autodjs" (readList AutoDjSubBody.read)
  pure ⟨autodjs⟩

def RelaySubBody.read
    (body : Json) : Option RelaySubPatch := do
  let fields ←
    body.fields
      ["mount", "upstream", "enabled", "name", "description",
        "genre", "url", "username", "password",
        "max_listeners", "burst_size", "transcode"]
  let mount ← fields.required "mount" readString
  let upstream ← fields.required "upstream" readString
  let enabled ← fields.withDefault "enabled" readBool true
  let name ← fields.optional "name" readString
  let description ← fields.optional "description" readString
  let genre ← fields.optional "genre" readString
  let url ← fields.optional "url" readString
  let username ← fields.optional "username" readString
  let password ← fields.optional "password" readString
  let maxListeners ← fields.optional "max_listeners" bodyU32
  let burstSize ← fields.optional "burst_size" bodyU32
  let transcode ←
    fields.optional "transcode" TranscodeSubBody.read
  pure
    { mount := mount
      upstream := upstream
      enabled := enabled
      name := name
      description := description
      genre := genre
      url := url
      username := username
      password := password
      maxListeners := maxListeners
      burstSize := burstSize
      transcode := transcode }

def RelaysPutBody.read
    (body : Json) : Option RelaysPatch := do
  let fields ← body.fields ["relays"]
  let relays ←
    fields.required "relays" (readList RelaySubBody.read)
  pure ⟨relays⟩

/-
  The request an endpoint makes of a body. The session gives
  the requester, and `hash` is hashing as `resolvePassword`
  takes it.
-/
def PutRequest.read
    (requester : String)
    (hash : Nat → String → Except String String)
    (body : Json) : ConfigSection → Option PutRequest
| .server => (ServerPutBody.read body).map .server
| .transcode => (TranscodePutBody.read body).map .transcode
| .mounts => (MountsPutBody.read body).map .mounts
| .users =>
    (UsersPutBody.read body).map (.users requester hash)
| .autodjs => (AutoDjsPutBody.read body).map .autodjs
| .relays => (RelaysPutBody.read body).map .relays

end ConfigPut

end RustyIce
