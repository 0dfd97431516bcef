import RustyIce.Admin.ConfigEndpoints

/-
  A section taken from what an admin is shown, and saved as
  it is: every field comes back as it was, and every secret
  is resolved to the one behind its sentinel.

  Main declarations:
    * `Config.Typed`, `Config.patch`
    * `sectionBody`
    * `read_sectionBody`, `resolve_echo`, `accepted_echo`
    * `echo_identity`
-/

------------------------------------------------------------
-- Ranges
------------------------------------------------------------

namespace RustyIce

/- A number that is set fits in 32 bits. -/
def FitsU32 (n : Option Nat) : Prop :=
  ∀ m ∈ n, m ≤ u32Max

/-
  The ranges of the source's own types, and addresses in the
  text they are written as.
-/
structure ServerConfig.Typed (c : ServerConfig) : Prop where
  streamBind : parseSocketAddr c.streamBind = some c.streamBind
  adminBind : parseSocketAddr c.adminBind = some c.adminBind

structure LimitsConfig.Typed (l : LimitsConfig) : Prop where
  maxListenersGlobal : l.maxListenersGlobal ≤ u32Max
  ringSize : l.ringSize ≤ u64Max
  slowListenerGraceS : l.slowListenerGraceS ≤ u64Max
  sourceMaxKbps : FitsU32 l.sourceMaxKbps
  burstSize : l.burstSize ≤ u32Max

structure TranscodeConfig.Typed
    (t : TranscodeConfig) : Prop where
  sampleRate : t.sampleRate ≤ u32Max
  bitrateKbps : t.bitrateKbps ≤ u32Max

structure MountConfig.Typed (m : MountConfig) : Prop where
  maxListeners : FitsU32 m.maxListeners
  burstSize : FitsU32 m.burstSize
  transcode : ∀ t ∈ m.transcode, t.Typed

structure AutoDjConfig.Typed (a : AutoDjConfig) : Prop where
  maxListeners : FitsU32 a.maxListeners
  burstSize : FitsU32 a.burstSize
  transcode : a.transcode.Typed

structure RelayConfig.Typed (r : RelayConfig) : Prop where
  maxListeners : FitsU32 r.maxListeners
  burstSize : FitsU32 r.burstSize
  transcode : ∀ t ∈ r.transcode, t.Typed

structure Config.Typed (cfg : Config) : Prop where
  server : cfg.server.Typed
  limits : cfg.limits.Typed
  transcode : ∀ t ∈ cfg.transcode, t.Typed
  mounts : ∀ m ∈ cfg.mounts, m.Typed
  autodjs : ∀ a ∈ cfg.autodjs, a.Typed
  relays : ∀ r ∈ cfg.relays, r.Typed

end RustyIce

------------------------------------------------------------
-- The Patch Of A Section
------------------------------------------------------------

namespace RustyIce

open ConfigPut ConfigWrite

def TranscodeConfig.patch
    (t : TranscodeConfig) : TranscodeSubPatch where
  format := t.format.name
  sampleRate := .ofNat t.sampleRate
  bitrateKbps := .ofNat t.bitrateKbps

def MountConfig.patch (m : MountConfig) : MountSubPatch where
  path := m.path
  sourcePassword := m.sourcePassword
  maxListeners := m.maxListeners.map .ofNat
  name := m.name
  description := m.description
  genre := m.genre
  url := m.url
  burstSize := m.burstSize.map .ofNat
  transcode := m.transcode.map TranscodeConfig.patch

def UserConfig.patch (u : UserConfig) : UserSubPatch where
  username := u.username
  passwordBcrypt := u.passwordBcrypt
  role := u.role.name

def AutoDjConfig.patch (a : AutoDjConfig) : AutoDjSubPatch where
  mount := a.mount
  folder := a.folder
  enabled := a.enabled
  loopPlaylist := a.loopPlaylist
  order := a.order.name
  name := a.name
  description := a.description
  genre := a.genre
  url := a.url
  maxListeners := a.maxListeners.map .ofNat
  burstSize := a.burstSize.map .ofNat
  transcode := a.transcode.patch

def RelayConfig.patch (r : RelayConfig) : RelaySubPatch where
  mount := r.mount
  upstream := r.upstream
  enabled := r.enabled
  name := r.name
  description := r.description
  genre := r.genre
  url := r.url
  username := r.username
  password := r.password
  maxListeners := r.maxListeners.map .ofNat
  burstSize := r.burstSize.map .ofNat
  transcode := r.transcode.map TranscodeConfig.patch

def Config.limitsPatch (cfg : Config) : LimitsSubPatch where
  maxListenersGlobal := .ofNat cfg.limits.maxListenersGlobal
  ringSize := .ofNat cfg.limits.ringSize
  slowListenerGraceS := .ofNat cfg.limits.slowListenerGraceS
  burstSize := .ofNat cfg.limits.burstSize
  sourceMaxKbps := cfg.limits.sourceMaxKbps.map .ofNat

def Config.serverPatch
    (cfg : Config)
    (hTyped : cfg.Typed) : WritePatch where
  server :=
    { streamBind :=
        ⟨cfg.server.streamBind, hTyped.server.streamBind⟩
      adminBind :=
        ⟨cfg.server.adminBind, hTyped.server.adminBind⟩
      hostname := cfg.server.hostname }
  logging :=
    { level := cfg.logging.level
      format := cfg.logging.format.name }
  limits := cfg.limitsPatch
  auth := none

/- What the validator of a section looks at. -/
def Config.patch
    (cfg : Config)
    (hTyped : cfg.Typed) : ConfigSection → Patch
| .server => .server (cfg.serverPatch hTyped)
| .transcode =>
    .transcode ⟨cfg.transcode.map TranscodeConfig.patch⟩
| .mounts => .mounts ⟨cfg.mounts.map MountConfig.patch⟩
| .users => .users ⟨cfg.auth.users.map UserConfig.patch⟩
| .autodjs => .autodjs ⟨cfg.autodjs.map AutoDjConfig.patch⟩
| .relays => .relays ⟨cfg.relays.map RelayConfig.patch⟩

/-
  The body a client makes of the section it was shown, with
  nothing in it changed.
-/
def sectionBody
    (response : Library.Json) :
    ConfigSection → Option Library.Json
| .server => do
    let server ← response.get "server"
    let logging ← response.get "logging"
    let limits ← response.get "limits"
    let auth ← response.get "auth"
    pure
      (.record
        [("server", some server), ("logging", some logging),
          ("limits", some limits), ("auth", some auth)])
| .transcode => do
    let transcode ← response.get "transcode"
    pure (.record [("transcode", some transcode)])
| .mounts => do
    let mounts ← response.get "mounts"
    pure (.record [("mounts", some mounts)])
| .users => do
    let auth ← response.get "auth"
    let users ← auth.get "users"
    pure (.record [("users", some users)])
| .autodjs => do
    let autodjs ← response.get "autodjs"
    pure (.record [("autodjs", some autodjs)])
| .relays => do
    let relays ← response.get "relays"
    pure (.record [("relays", some relays)])

end RustyIce

------------------------------------------------------------
-- Reading What Was Shown
------------------------------------------------------------

namespace RustyIce

open ConfigPut ConfigWrite Library Library.Json

theorem bodyU32_natJson
    {n : Nat}
    (hFits : n ≤ u32Max) :
    bodyU32 (natJson n) = some (.ofNat n) := by
  have hRange : (0 : Int) ≤ n ∧ (n : Int) ≤ u32Max := by
    omega
  simp [bodyU32, natJson, hRange]

theorem bodyU64_natJson
    {n : Nat}
    (hFits : n ≤ u64Max) :
    bodyU64 (natJson n) = some (.ofNat n) := by
  have hRange : (0 : Int) ≤ n ∧ (n : Int) ≤ u64Max := by
    omega
  simp [bodyU64, natJson, hRange]

theorem bodyAddr_string
    {addr : SocketAddr}
    (hAddr : parseSocketAddr addr = some addr) :
    bodyAddr (.string addr) = some ⟨addr, hAddr⟩ := by
  simp [bodyAddr, hAddr]

theorem natJson_ne_null (n : Nat) :
    natJson n ≠ .null := by
  intro hNull
  cases hNull

theorem string_ne_null (text : String) :
    Json.string text ≠ .null := by
  intro hNull
  cases hNull

theorem record_ne_null (spec : List (String × Option Json)) :
    Json.record spec ≠ .null := by
  intro hNull
  cases hNull

theorem optional_natJson
    {fields : Fields}
    {name : String}
    {n : Option Nat}
    (hField : fields name = n.map natJson)
    (hFits : FitsU32 n) :
    fields.optional name bodyU32 =
      some (n.map UInt32.ofNat) :=
  Fields.optional_of_map hField natJson_ne_null
    fun m hMem => bodyU32_natJson (hFits m hMem)

theorem optional_string
    {fields : Fields}
    {name : String}
    (text : Option String)
    (hField : fields name = text.map .string) :
    fields.optional name readString = some text := by
  have hEach :
      ∀ t ∈ text, readString (.string t) = some (id t) :=
    fun _ _ => rfl
  rw [Fields.optional_of_map hField string_ne_null hEach,
    Option.map_id_fun, id]

theorem required_string
    {fields : Fields}
    {name : String}
    (text : String)
    (hField : fields name = some (.string text)) :
    fields.required name readString = some text :=
  Fields.required_of_read (readString_string text) hField

theorem required_natJson
    {fields : Fields}
    {name : String}
    {n : Nat}
    (hField : fields name = some (natJson n))
    (hFits : n ≤ u32Max) :
    fields.required name bodyU32 = some (.ofNat n) :=
  Fields.required_of_read (bodyU32_natJson hFits) hField

theorem withDefault_bool
    {fields : Fields}
    {name : String}
    (value default : Bool)
    (hField : fields name = some (.bool value)) :
    fields.withDefault name readBool default = some value :=
  Fields.withDefault_of_read (readBool_bool value) default
    hField

theorem withDefault_string
    {fields : Fields}
    {name : String}
    (text default : String)
    (hField : fields name = some (.string text)) :
    fields.withDefault name readString default = some text :=
  Fields.withDefault_of_read (readString_string text) default
    hField

theorem read_transcode
    {t : TranscodeConfig}
    (hTyped : t.Typed) :
    TranscodeSubBody.read t.json = some t.patch := by
  unfold TranscodeSubBody.read TranscodeConfig.json
  rcases fields_record
      ["format", "sample_rate", "bitrate_kbps"] t.spec
      (by simp [TranscodeConfig.spec]) with
    ⟨found, hRead, hField, _⟩
  unfold TranscodeConfig.spec at hField
  have hFormat :=
    required_string t.format.name
      (hField "format" (by simp))
  have hRate :=
    required_natJson (hField "sample_rate" (by simp))
      hTyped.sampleRate
  have hKbps :=
    required_natJson (hField "bitrate_kbps" (by simp))
      hTyped.bitrateKbps
  simp [hRead, hFormat, hRate, hKbps, TranscodeConfig.patch]

theorem required_transcode
    {fields : Fields}
    {name : String}
    {t : TranscodeConfig}
    (hField : fields name = some t.json)
    (hTyped : t.Typed) :
    fields.required name TranscodeSubBody.read =
      some t.patch :=
  Fields.required_of_read (read_transcode hTyped) hField

theorem optional_transcode
    {fields : Fields}
    {name : String}
    {t : Option TranscodeConfig}
    (hField : fields name = t.map TranscodeConfig.json)
    (hTyped : ∀ c ∈ t, c.Typed) :
    fields.optional name TranscodeSubBody.read =
      some (t.map TranscodeConfig.patch) :=
  Fields.optional_of_map hField
    (fun _ => record_ne_null _)
    fun c hMem => read_transcode (hTyped c hMem)

/- The body of a mount shown without its password. -/
def MountConfig.echo (m : MountConfig) : MountSubBody where
  path := m.path
  sourcePassword := some redacted
  maxListeners := m.maxListeners.map .ofNat
  name := m.name
  description := m.description
  genre := m.genre
  url := m.url
  burstSize := m.burstSize.map .ofNat
  transcode := m.transcode.map TranscodeConfig.patch

def UserConfig.echo (u : UserConfig) : UserSubBody where
  username := u.username
  password := none
  role := u.role.name

def RelayConfig.echo (r : RelayConfig) : RelaySubPatch :=
  { r.patch with password := r.password.map fun _ => redacted }

theorem read_mount
    {m : MountConfig}
    (hTyped : m.Typed) :
    MountSubBody.read
        { m with sourcePassword := redacted }.json =
      some m.echo := by
  unfold MountSubBody.read MountConfig.json
  rcases fields_record
      ["path", "source_password", "max_listeners", "name",
        "description", "genre", "url", "burst_size",
        "transcode"]
      { m with sourcePassword := redacted }.spec
      (by simp [MountConfig.spec]) with
    ⟨found, hRead, hField, _⟩
  unfold MountConfig.spec at hField
  have hPath :=
    required_string m.path (hField "path" (by simp))
  have hPassword :=
    optional_string (some redacted)
      (hField "source_password" (by simp))
  have hMax :=
    optional_natJson (hField "max_listeners" (by simp))
      hTyped.maxListeners
  have hName :=
    optional_string m.name (hField "name" (by simp))
  have hDescription :=
    optional_string m.description
      (hField "description" (by simp))
  have hGenre :=
    optional_string m.genre (hField "genre" (by simp))
  have hUrl :=
    optional_string m.url (hField "url" (by simp))
  have hBurst :=
    optional_natJson (hField "burst_size" (by simp))
      hTyped.burstSize
  have hTranscode :=
    optional_transcode (hField "transcode" (by simp))
      hTyped.transcode
  rw [bind_of_some hRead, bind_of_some hPath,
    bind_of_some hPassword, bind_of_some hMax,
    bind_of_some hName, bind_of_some hDescription,
    bind_of_some hGenre, bind_of_some hUrl,
    bind_of_some hBurst, bind_of_some hTranscode]
  rfl

/- The hash that is shown is not a field of the body. -/
theorem read_user (u : UserConfig) :
    UserSubBody.read
        { u with passwordBcrypt := redacted }.json =
      some u.echo := by
  unfold UserSubBody.read UserConfig.json
  rcases fields_record
      ["username", "password", "role"]
      { u with passwordBcrypt := redacted }.spec
      (by simp [UserConfig.spec]) with
    ⟨found, hRead, hField, hAbsent⟩
  unfold UserConfig.spec at hField hAbsent
  have hUsername :=
    required_string u.username (hField "username" (by simp))
  have hPassword :=
    optional_string none (hAbsent "password" (by simp))
  have hRole :=
    required_string u.role.name (hField "role" (by simp))
  rw [bind_of_some hRead, bind_of_some hUsername,
    bind_of_some hPassword, bind_of_some hRole]
  rfl

theorem read_autodj
    {a : AutoDjConfig}
    (hTyped : a.Typed) :
    AutoDjSubBody.read a.json = some a.patch := by
  unfold AutoDjSubBody.read AutoDjConfig.json
  rcases fields_record
      ["mount", "folder", "enabled", "loop", "order", "name",
        "description", "genre", "url", "max_listeners",
        "burst_size", "transcode"]
      a.spec (by simp [AutoDjConfig.spec]) with
    ⟨found, hRead, hField, _⟩
  unfold AutoDjConfig.spec at hField
  have hMount :=
    required_string a.mount (hField "mount" (by simp))
  have hFolder :=
    required_string a.folder (hField "folder" (by simp))
  have hEnabled :=
    withDefault_bool a.enabled true
      (hField "enabled" (by simp))
  have hLoop :=
    withDefault_bool a.loopPlaylist true
      (hField "loop" (by simp))
  have hOrder :=
    withDefault_string a.order.name "shuffle"
      (hField "order" (by simp))
  have hName :=
    optional_string a.name (hField "name" (by simp))
  have hDescription :=
    optional_string a.description
      (hField "description" (by simp))
  have hGenre :=
    optional_string a.genre (hField "genre" (by simp))
  have hUrl :=
    optional_string a.url (hField "url" (by simp))
  have hMax :=
    optional_natJson (hField "max_listeners" (by simp))
      hTyped.maxListeners
  have hBurst :=
    optional_natJson (hField "burst_size" (by simp))
      hTyped.burstSize
  have hTranscode :=
    required_transcode (hField "transcode" (by simp))
      hTyped.transcode
  rw [bind_of_some hRead, bind_of_some hMount,
    bind_of_some hFolder, bind_of_some hEnabled,
    bind_of_some hLoop, bind_of_some hOrder,
    bind_of_some hName, bind_of_some hDescription,
    bind_of_some hGenre, bind_of_some hUrl, bind_of_some hMax,
    bind_of_some hBurst, bind_of_some hTranscode]
  rfl

theorem read_relay
    {r : RelayConfig}
    (hTyped : r.Typed) :
    RelaySubBody.read
        { r with
          password := r.password.map fun _ => redacted }.json =
      some r.echo := by
  unfold RelaySubBody.read RelayConfig.json
  rcases fields_record
      ["mount", "upstream", "enabled", "name", "description",
        "genre", "url", "username", "password",
        "max_listeners", "burst_size", "transcode"]
      { r with
        password := r.password.map fun _ => redacted }.spec
      (by simp [RelayConfig.spec]) with
    ⟨found, hRead, hField, _⟩
  unfold RelayConfig.spec at hField
  have hMount :=
    required_string r.mount (hField "mount" (by simp))
  have hUpstream :=
    required_string r.upstream (hField "upstream" (by simp))
  have hEnabled :=
    withDefault_bool r.enabled true
      (hField "enabled" (by simp))
  have hName :=
    optional_string r.name (hField "name" (by simp))
  have hDescription :=
    optional_string r.description
      (hField "description" (by simp))
  have hGenre :=
    optional_string r.genre (hField "genre" (by simp))
  have hUrl :=
    optional_string r.url (hField "url" (by simp))
  have hUsername :=
    optional_string r.username (hField "username" (by simp))
  have hPassword :=
    optional_string (r.password.map fun _ => redacted)
      (hField "password" (by simp))
  have hMax :=
    optional_natJson (hField "max_listeners" (by simp))
      hTyped.maxListeners
  have hBurst :=
    optional_natJson (hField "burst_size" (by simp))
      hTyped.burstSize
  have hTranscode :=
    optional_transcode (hField "transcode" (by simp))
      hTyped.transcode
  rw [bind_of_some hRead, bind_of_some hMount,
    bind_of_some hUpstream, bind_of_some hEnabled,
    bind_of_some hName, bind_of_some hDescription,
    bind_of_some hGenre, bind_of_some hUrl,
    bind_of_some hUsername, bind_of_some hPassword,
    bind_of_some hMax, bind_of_some hBurst,
    bind_of_some hTranscode]
  rfl

theorem read_server
    {c : ServerConfig}
    (hTyped : c.Typed) :
    ServerSubBody.read c.json =
      some
        { streamBind := ⟨c.streamBind, hTyped.streamBind⟩
          adminBind := ⟨c.adminBind, hTyped.adminBind⟩
          hostname := c.hostname } := by
  unfold ServerSubBody.read ServerConfig.json
  rcases fields_record
      ["stream_bind", "admin_bind", "hostname"] c.spec
      (by simp [ServerConfig.spec]) with
    ⟨found, hRead, hField, _⟩
  unfold ServerConfig.spec at hField
  have hStream :=
    Fields.required_of_read
      (bodyAddr_string hTyped.streamBind)
      (hField "stream_bind" (by simp))
  have hAdmin :=
    Fields.required_of_read
      (bodyAddr_string hTyped.adminBind)
      (hField "admin_bind" (by simp))
  have hHostname :=
    required_string c.hostname (hField "hostname" (by simp))
  rw [bind_of_some hRead, bind_of_some hStream,
    bind_of_some hAdmin, bind_of_some hHostname]
  rfl

theorem read_logging (c : LoggingConfig) :
    LoggingSubBody.read c.json =
      some { level := c.level, format := c.format.name } := by
  unfold LoggingSubBody.read LoggingConfig.json
  rcases fields_record ["level", "format"] c.spec
      (by simp [LoggingConfig.spec]) with
    ⟨found, hRead, hField, _⟩
  unfold LoggingConfig.spec at hField
  have hLevel :=
    required_string c.level (hField "level" (by simp))
  have hFormat :=
    required_string c.format.name (hField "format" (by simp))
  rw [bind_of_some hRead, bind_of_some hLevel,
    bind_of_some hFormat]
  rfl

theorem read_limits
    {cfg : Config}
    (hTyped : cfg.limits.Typed) :
    LimitsSubBody.read cfg.limits.json =
      some cfg.limitsPatch := by
  unfold LimitsSubBody.read LimitsConfig.json
  rcases fields_record
      ["max_listeners_global", "ring_size",
        "slow_listener_grace_s", "burst_size",
        "source_max_kbps"]
      cfg.limits.spec (by simp [LimitsConfig.spec]) with
    ⟨found, hRead, hField, _⟩
  unfold LimitsConfig.spec at hField
  have hMax :=
    required_natJson (hField "max_listeners_global" (by simp))
      hTyped.maxListenersGlobal
  have hRing :=
    Fields.required_of_read (bodyU64_natJson hTyped.ringSize)
      (hField "ring_size" (by simp))
  have hGrace :=
    Fields.required_of_read
      (bodyU64_natJson hTyped.slowListenerGraceS)
      (hField "slow_listener_grace_s" (by simp))
  have hRate :=
    optional_natJson (hField "source_max_kbps" (by simp))
      hTyped.sourceMaxKbps
  have hBurst :=
    required_natJson (hField "burst_size" (by simp))
      hTyped.burstSize
  simp [hRead, hMax, hRing, hGrace, hRate, hBurst,
    Config.limitsPatch]

/- Of the accounts nothing is read here. -/
theorem read_auth (a : AuthConfig) :
    AuthSubBody.read a.json = some ⟨a.sourcePassword⟩ := by
  unfold AuthSubBody.read AuthConfig.json
  rcases fields_record ["source_password"] a.spec
      (by simp [AuthConfig.spec]) with
    ⟨found, hRead, hField, _⟩
  unfold AuthConfig.spec at hField
  have hPassword :=
    optional_string a.sourcePassword
      (hField "source_password" (by simp))
  simp [hRead, hPassword]

end RustyIce

------------------------------------------------------------
-- The Request Of A Section
------------------------------------------------------------

namespace RustyIce

open ConfigPut ConfigWrite Library Library.Json

/- What is sent for a section that was shown. -/
def Config.echo
    (cfg : Config)
    (hTyped : cfg.Typed)
    (requester : String)
    (hash : Nat → String → Except String String) :
    ConfigSection → PutRequest
| .server =>
    .server
      { server := (cfg.serverPatch hTyped).server
        logging := (cfg.serverPatch hTyped).logging
        limits := cfg.limitsPatch
        auth := some ⟨(redact cfg).auth.sourcePassword⟩ }
| .transcode =>
    .transcode ⟨cfg.transcode.map TranscodeConfig.patch⟩
| .mounts => .mounts (cfg.mounts.map MountConfig.echo)
| .users =>
    .users requester hash (cfg.auth.users.map UserConfig.echo)
| .autodjs => .autodjs ⟨cfg.autodjs.map AutoDjConfig.patch⟩
| .relays => .relays ⟨cfg.relays.map RelayConfig.echo⟩

/- A section of one field that holds a list. -/
theorem read_listBody
    (name : String)
    {Entry Value : Type}
    {write : Entry → Json}
    {read : Json → Option Value}
    {value : Entry → Value}
    {entries : List Entry}
    (hEach :
      ∀ entry ∈ entries,
        read (write entry) = some (value entry)) :
    ∃ found,
      (record
          [(name, some (.array (entries.map write)))]).fields
          [name] = some found ∧
        found.required name (readList read) =
          some (entries.map value) := by
  rcases fields_record [name]
      [(name, some (.array (entries.map write)))]
      (by simp) with ⟨found, hRead, hField, _⟩
  refine ⟨found, hRead, ?_⟩
  exact
    Fields.required_of_read (readList_array hEach)
      (hField name (by simp))

/- A field that is shown. -/
theorem get_response
    {r : ConfigResponse}
    {name : String}
    {value : Json}
    (hMem : (name, some value) ∈ r.spec) :
    r.json.get name = some value := by
  apply get_of_mem _ hMem
  simp [ConfigResponse.spec]

section

variable {cfg : Config}
variable (hTyped : cfg.Typed)
variable (requester : String)
variable (hash : Nat → String → Except String String)
variable (configPath : Option String)

theorem read_serverSection :
    ∃ body,
      sectionBody
          (buildConfigResponse cfg configPath true).json
          .server = some body ∧
        PutRequest.read requester hash body .server =
          some (cfg.echo hTyped requester hash .server) := by
  have hServer :
      (buildConfigResponse cfg configPath true).json.get
          "server" = some cfg.server.json := by
    apply get_response
    simp [ConfigResponse.spec, buildConfigResponse, redact,
      orNull]
  have hLogging :
      (buildConfigResponse cfg configPath true).json.get
          "logging" = some cfg.logging.json := by
    apply get_response
    simp [ConfigResponse.spec, buildConfigResponse, redact,
      orNull]
  have hLimits :
      (buildConfigResponse cfg configPath true).json.get
          "limits" = some cfg.limits.json := by
    apply get_response
    simp [ConfigResponse.spec, buildConfigResponse, redact,
      orNull]
  have hAuth :
      (buildConfigResponse cfg configPath true).json.get
          "auth" = some (redact cfg).auth.json := by
    apply get_response
    simp [ConfigResponse.spec, buildConfigResponse]
  refine
    ⟨.record
        [("server", some cfg.server.json),
          ("logging", some cfg.logging.json),
          ("limits", some cfg.limits.json),
          ("auth", some (redact cfg).auth.json)],
      ?_, ?_⟩
  · simp [sectionBody, hServer, hLogging, hLimits, hAuth]
  · rcases fields_record
        ["server", "logging", "limits", "auth"]
        [("server", some cfg.server.json),
          ("logging", some cfg.logging.json),
          ("limits", some cfg.limits.json),
          ("auth", some (redact cfg).auth.json)]
        (by simp) with
      ⟨found, hRead, hField, _⟩
    have hServer :=
      Fields.required_of_read (read_server hTyped.server)
        (hField "server" (by simp))
    have hLogging :=
      Fields.required_of_read (read_logging cfg.logging)
        (hField "logging" (by simp))
    have hLimits :=
      Fields.required_of_read (read_limits hTyped.limits)
        (hField "limits" (by simp))
    have hAuthField :
        found "auth" =
          (some (redact cfg).auth).map AuthConfig.json :=
      hField "auth" (by simp)
    have hAuth :=
      Fields.optional_of_map hAuthField
        (fun a => record_ne_null a.spec)
        fun a _ => read_auth a
    simp [PutRequest.read, ServerPutBody.read, hRead,
      hServer, hLogging, hLimits, hAuth, Config.echo,
      Config.serverPatch]

theorem read_transcodeSection :
    ∃ body,
      sectionBody
          (buildConfigResponse cfg configPath true).json
          .transcode = some body ∧
        PutRequest.read requester hash body .transcode =
          some (cfg.echo hTyped requester hash .transcode) := by
  have hShown :
      (buildConfigResponse cfg configPath true).json.get
          "transcode" =
        some
          (.orNull
            (cfg.transcode.map TranscodeConfig.json)) := by
    apply get_response
    simp [ConfigResponse.spec, buildConfigResponse, redact]
  refine
    ⟨.record
        [("transcode",
          some
            (.orNull
              (cfg.transcode.map
                TranscodeConfig.json)))],
      ?_, ?_⟩
  · simp [sectionBody, hShown]
  · rcases fields_record ["transcode"]
        [("transcode",
          some
            (.orNull
              (cfg.transcode.map
                TranscodeConfig.json)))]
        (by simp) with
      ⟨found, hRead, hField, _⟩
    have hShownField :
        found "transcode" =
          some
            (.orNull
              (cfg.transcode.map
                TranscodeConfig.json)) :=
      hField "transcode" (by simp)
    have hTranscode :=
      Fields.optional_of_orNull hShownField
        (fun t => record_ne_null t.spec)
        fun t hMem =>
          read_transcode (hTyped.transcode t hMem)
    simp [PutRequest.read, TranscodePutBody.read, hRead,
      hTranscode, Config.echo]

theorem read_mountsSection :
    ∃ body,
      sectionBody
          (buildConfigResponse cfg configPath true).json
          .mounts = some body ∧
        PutRequest.read requester hash body .mounts =
          some (cfg.echo hTyped requester hash .mounts) := by
  have hShown :
      (buildConfigResponse cfg configPath true).json.get
          "mounts" =
        some
          (.array
            (cfg.mounts.map fun m =>
              { m with
                sourcePassword := redacted }.json)) := by
    apply get_response
    simp [ConfigResponse.spec, buildConfigResponse, redact]
  rcases read_listBody "mounts" fun m hMem =>
      read_mount (hTyped.mounts m hMem) with
    ⟨found, hRead, hList⟩
  refine ⟨_, by rw [sectionBody, hShown]; rfl, ?_⟩
  simp [PutRequest.read, MountsPutBody.read, hRead, hList,
    Config.echo]

theorem read_usersSection :
    ∃ body,
      sectionBody
          (buildConfigResponse cfg configPath true).json
          .users = some body ∧
        PutRequest.read requester hash body .users =
          some (cfg.echo hTyped requester hash .users) := by
  have hAuth :
      (buildConfigResponse cfg configPath true).json.get
          "auth" = some (redact cfg).auth.json := by
    apply get_response
    simp [ConfigResponse.spec, buildConfigResponse]
  have hShown :
      (redact cfg).auth.json.get "users" =
        some
          (.array
            (cfg.auth.users.map fun u =>
              { u with
                passwordBcrypt := redacted }.json)) := by
    apply get_of_mem
    · simp [AuthConfig.spec]
    · simp [AuthConfig.spec, redact]
  have hEach :
      ∀ u ∈ cfg.auth.users,
        UserSubBody.read
            { u with passwordBcrypt := redacted }.json =
          some u.echo :=
    fun u _ => read_user u
  rcases read_listBody "users" hEach with
    ⟨found, hRead, hList⟩
  refine ⟨_, by simp [sectionBody, hAuth, hShown]; rfl, ?_⟩
  simp [PutRequest.read, UsersPutBody.read, hRead, hList,
    Config.echo]

theorem read_autodjsSection :
    ∃ body,
      sectionBody
          (buildConfigResponse cfg configPath true).json
          .autodjs = some body ∧
        PutRequest.read requester hash body .autodjs =
          some (cfg.echo hTyped requester hash .autodjs) := by
  have hShown :
      (buildConfigResponse cfg configPath true).json.get
          "autodjs" =
        some
          (.array
            (cfg.autodjs.map AutoDjConfig.json)) := by
    apply get_response
    simp [ConfigResponse.spec, buildConfigResponse, redact]
  rcases read_listBody "autodjs" fun a hMem =>
      read_autodj (hTyped.autodjs a hMem) with
    ⟨found, hRead, hList⟩
  refine ⟨_, by rw [sectionBody, hShown]; rfl, ?_⟩
  simp [PutRequest.read, AutoDjsPutBody.read, hRead,
    hList, Config.echo]

theorem read_relaysSection :
    ∃ body,
      sectionBody
          (buildConfigResponse cfg configPath true).json
          .relays = some body ∧
        PutRequest.read requester hash body .relays =
          some (cfg.echo hTyped requester hash .relays) := by
  have hShown :
      (buildConfigResponse cfg configPath true).json.get
          "relays" =
        some
          (.array
            (cfg.relays.map fun r =>
              { r with
                password :=
                  r.password.map
                    fun _ => redacted }.json)) := by
    apply get_response
    simp [ConfigResponse.spec, buildConfigResponse, redact]
  rcases read_listBody "relays" fun r hMem =>
      read_relay (hTyped.relays r hMem) with
    ⟨found, hRead, hList⟩
  refine ⟨_, by rw [sectionBody, hShown]; rfl, ?_⟩
  simp [PutRequest.read, RelaysPutBody.read, hRead, hList,
    Config.echo]

theorem read_sectionBody (target : ConfigSection) :
    ∃ body,
      sectionBody
          (buildConfigResponse cfg configPath true).json
          target = some body ∧
        PutRequest.read requester hash body target =
          some (cfg.echo hTyped requester hash target) := by
  cases target with
  | server =>
      exact read_serverSection hTyped requester hash configPath
  | transcode =>
      exact
        read_transcodeSection hTyped requester hash configPath
  | mounts =>
      exact read_mountsSection hTyped requester hash configPath
  | users =>
      exact read_usersSection hTyped requester hash configPath
  | autodjs =>
      exact read_autodjsSection hTyped requester hash configPath
  | relays =>
      exact read_relaysSection hTyped requester hash configPath

end

end RustyIce

------------------------------------------------------------
-- Resolving The Secrets
------------------------------------------------------------

namespace RustyIce

open ConfigPut ConfigWrite Library

/- The sentinel is no secret that is sent. -/
theorem supplied_redacted :
    supplied (some redacted) = none := rfl

theorem resolve_mount
    {cfg : Config}
    (hNodup : cfg.mountPaths.Nodup)
    {m : MountConfig}
    (hMem : m ∈ cfg.mounts)
    (index : Nat) :
    resolveMount cfg (m.echo, index) = .ok m.patch := by
  have hStored :
      collectMap MountConfig.path MountConfig.sourcePassword
          cfg.mounts m.path = some m.sourcePassword :=
    (collectMap_eq_some_iff hNodup _ _).mpr
      ⟨m, hMem, rfl, rfl⟩
  simp only [resolveMount, MountConfig.echo,
    supplied_redacted, hStored]
  rfl

theorem resolve_user
    {cfg : Config}
    (hNodup : (cfg.auth.users.map UserConfig.username).Nodup)
    (hash : Nat → String → Except String String)
    {u : UserConfig}
    (hMem : u ∈ cfg.auth.users)
    (hTrimmed : trimmed u.username = u.username)
    (hName : u.username.isEmpty = false)
    (index : Nat) :
    resolveUser cfg hash (u.echo, index) = .ok u.patch := by
  have hStored :
      collectMap UserConfig.username
          UserConfig.passwordBcrypt cfg.auth.users
          u.username = some u.passwordBcrypt :=
    (collectMap_eq_some_iff hNodup _ _).mpr
      ⟨u, hMem, rfl, rfl⟩
  have hPassword :
      resolvePassword cfg hash index u.username none =
        .ok u.passwordBcrypt := by
    simp only [resolvePassword, hStored]
    rfl
  simp only [resolveUser, UserConfig.echo, hTrimmed, hName,
    Bool.false_eq_true, if_false, hPassword]
  rfl

/- A relay without a password has none to be found. -/
theorem resolve_relay
    {cfg : Config}
    (hNodup : (cfg.relays.map RelayConfig.mount).Nodup)
    {r : RelayConfig}
    (hMem : r ∈ cfg.relays) :
    resolveRelay cfg r.echo = r.patch := by
  have hSent : supplied r.echo.password = none := by
    simp only [RelayConfig.echo]
    cases r.password with
    | none => rfl
    | some p => rfl
  have hSame :
      ∀ other ∈ cfg.relays, other.mount = r.mount →
        other = r := by
    intro other hOther hMount
    exact
      List.inj_on_of_nodup_map hNodup hOther hMem hMount
  have hStored :
      collectMap Prod.fst Prod.snd
          (cfg.relays.filterMap fun r =>
            r.password.map fun p => (r.mount, p))
          r.mount = r.password := by
    cases hPassword : r.password with
    | none =>
        rw [collectMap_eq_none_iff]
        simp only [List.mem_map, List.mem_filterMap,
          Option.map_eq_some_iff]
        rintro ⟨_, ⟨other, hOther, p, hSome, rfl⟩, hMount⟩
        rw [hSame other hOther hMount, hPassword] at hSome
        cases hSome
    | some p =>
        apply collectMap_of_agree
        · simp only [List.mem_map, List.mem_filterMap,
            Option.map_eq_some_iff]
          exact
            ⟨_, ⟨r, hMem, p, hPassword, rfl⟩, rfl⟩
        · simp only [List.mem_filterMap,
            Option.map_eq_some_iff]
          rintro _ ⟨other, hOther, q, hSome, rfl⟩ hMount
          rw [hSame other hOther hMount, hPassword] at hSome
          exact (Option.some.inj hSome).symm
  unfold resolveRelay
  rw [hSent]
  show
    { r.echo with
      password :=
        collectMap Prod.fst Prod.snd
          (cfg.relays.filterMap fun r =>
            r.password.map fun p => (r.mount, p))
          r.mount } = r.patch
  rw [hStored]
  rfl

end RustyIce

------------------------------------------------------------
-- The Candidate
------------------------------------------------------------

namespace RustyIce

open ConfigPut ConfigWrite Library

theorem toNat_ofNat_u32
    {n : Nat}
    (hFits : n ≤ u32Max) :
    (UInt32.ofNat n).toNat = n := by
  rw [UInt32.toNat_ofNat']
  unfold u32Max at hFits
  omega

theorem toNat_ofNat_u64
    {n : Nat}
    (hFits : n ≤ u64Max) :
    (UInt64.ofNat n).toNat = n := by
  rw [UInt64.toNat_ofNat']
  unfold u64Max at hFits
  omega

theorem map_toNat_ofNat
    {n : Option Nat}
    (hFits : FitsU32 n) :
    (n.map UInt32.ofNat).map UInt32.toNat = n := by
  cases n with
  | none => rfl
  | some m =>
      rw [Option.map_some, Option.map_some,
        toNat_ofNat_u32 (hFits m rfl)]

theorem logFormat_name (format : LogFormat) :
    logFormat format.name = .ok format := by
  cases format <;> rfl

theorem transcodeConfig_patch
    {t : TranscodeConfig}
    (hTyped : t.Typed) :
    transcodeConfig t.patch = .ok t := by
  have hFormat :
      transcodeFormat t.format.name = .ok t.format := by
    cases t.format <;> rfl
  simp only [transcodeConfig, TranscodeConfig.patch, hFormat,
    toNat_ofNat_u32 hTyped.sampleRate,
    toNat_ofNat_u32 hTyped.bitrateKbps]
  rfl

theorem optionalTranscodeConfig_patch
    {t : Option TranscodeConfig}
    (hTyped : ∀ c ∈ t, c.Typed) :
    optionalTranscodeConfig (t.map TranscodeConfig.patch) =
      .ok t := by
  cases t with
  | none => rfl
  | some c =>
      rw [Option.map_some, optionalTranscodeConfig,
        transcodeConfig_patch (hTyped c rfl)]
      rfl

theorem mountConfig_patch
    {m : MountConfig}
    (hTyped : m.Typed) :
    mountConfig m.patch = .ok m := by
  simp only [mountConfig, MountConfig.patch,
    optionalTranscodeConfig_patch hTyped.transcode,
    map_toNat_ofNat hTyped.maxListeners,
    map_toNat_ofNat hTyped.burstSize]
  rfl

theorem userConfig_patch (u : UserConfig) :
    userConfig u.patch = u := by
  rcases u with ⟨username, passwordBcrypt, role⟩
  cases role <;> rfl

theorem autodjConfig_patch
    {a : AutoDjConfig}
    (hTyped : a.Typed) :
    autodjConfig a.patch = .ok a := by
  have hOrder : order a.order.name = a.order := by
    cases a.order <;> rfl
  simp only [autodjConfig, AutoDjConfig.patch, hOrder,
    transcodeConfig_patch hTyped.transcode,
    map_toNat_ofNat hTyped.maxListeners,
    map_toNat_ofNat hTyped.burstSize]
  rfl

theorem relayConfig_patch
    {r : RelayConfig}
    (hTyped : r.Typed) :
    relayConfig r.patch = .ok r := by
  simp only [relayConfig, RelayConfig.patch,
    optionalTranscodeConfig_patch hTyped.transcode,
    map_toNat_ofNat hTyped.maxListeners,
    map_toNat_ofNat hTyped.burstSize]
  rfl

/- The patch of a section builds what there is. -/
theorem candidate_patch
    {cfg : Config}
    (hTyped : cfg.Typed)
    (target : ConfigSection) :
    (cfg.patch hTyped target).candidate cfg = .ok cfg := by
  cases target with
  | server =>
      simp only [Config.patch, Patch.candidate,
        serverCandidate, Config.serverPatch,
        Config.limitsPatch, logFormat_name,
        toNat_ofNat_u32 hTyped.limits.maxListenersGlobal,
        toNat_ofNat_u64 hTyped.limits.ringSize,
        toNat_ofNat_u64 hTyped.limits.slowListenerGraceS,
        toNat_ofNat_u32 hTyped.limits.burstSize,
        map_toNat_ofNat hTyped.limits.sourceMaxKbps]
      rfl
  | transcode =>
      simp only [Config.patch, Patch.candidate,
        transcodeCandidate,
        optionalTranscodeConfig_patch hTyped.transcode]
      rfl
  | mounts =>
      have hMounts :
          (cfg.mounts.map MountConfig.patch).mapM
              mountConfig = .ok cfg.mounts :=
        mapM_map_eq_ok fun m hMem =>
          mountConfig_patch (hTyped.mounts m hMem)
      simp only [Config.patch, Patch.candidate,
        mountsCandidate, hMounts]
      rfl
  | users =>
      have hUsers :
          (cfg.auth.users.map UserConfig.patch).map
              userConfig = cfg.auth.users := by
        rw [List.map_map]
        conv_rhs => rw [← List.map_id cfg.auth.users]
        apply List.map_congr_left
        intro u _
        exact userConfig_patch u
      simp only [Config.patch, Patch.candidate,
        usersCandidate, hUsers]
      rfl
  | autodjs =>
      have hAutodjs :
          (cfg.autodjs.map AutoDjConfig.patch).mapM
              autodjConfig = .ok cfg.autodjs :=
        mapM_map_eq_ok fun a hMem =>
          autodjConfig_patch (hTyped.autodjs a hMem)
      simp only [Config.patch, Patch.candidate,
        autodjsCandidate, hAutodjs]
      rfl
  | relays =>
      have hRelays :
          (cfg.relays.map RelayConfig.patch).mapM
              relayConfig = .ok cfg.relays :=
        mapM_map_eq_ok fun r hMem =>
          relayConfig_patch (hTyped.relays r hMem)
      simp only [Config.patch, Patch.candidate,
        relaysCandidate, hRelays]
      rfl

end RustyIce

------------------------------------------------------------
-- Saving What Was Shown
------------------------------------------------------------

namespace RustyIce

open ConfigPut ConfigWrite Library

theorem resolveServer_echo
    (cfg : Config)
    (hTyped : cfg.Typed) :
    resolveServer
        { server := (cfg.serverPatch hTyped).server
          logging := (cfg.serverPatch hTyped).logging
          limits := cfg.limitsPatch
          auth := some ⟨(redact cfg).auth.sourcePassword⟩ } =
      cfg.serverPatch hTyped := by
  have hSent :
      supplied (redact cfg).auth.sourcePassword = none := by
    simp only [redact]
    cases cfg.auth.sourcePassword with
    | none => rfl
    | some p => rfl
  simp only [resolveServer, Option.bind_some, hSent]
  rfl

theorem resolveMounts_echo
    {cfg : Config}
    (hNodup : cfg.mountPaths.Nodup) :
    resolveMounts cfg (cfg.mounts.map MountConfig.echo) =
      .ok ⟨cfg.mounts.map MountConfig.patch⟩ := by
  have hEach :=
    mapM_zipIdx_map_eq_ok (f := resolveMount cfg)
      (g := MountConfig.echo) (h := MountConfig.patch)
      (fun _ hMem => resolve_mount hNodup hMem) 0
  rw [resolveMounts, hEach]
  rfl

/- The user is in the list, as an admin. -/
def AdminAmong
    (users : List UserConfig)
    (user : String) : Prop :=
  ∃ u ∈ users, u.username = user ∧ u.role = .admin

/- The list still has the admin who sends it. -/
theorem keepsRequester_echo
    {users : List UserConfig}
    {requester : String}
    (hTrimmed :
      ∀ u ∈ users, trimmed u.username = u.username)
    (hAdmin : AdminAmong users requester) :
    keepsRequester requester (users.map UserConfig.echo) =
      true := by
  rcases hAdmin with ⟨u, hMem, hName, hRole⟩
  have hSame := hTrimmed u hMem
  rw [hName] at hSame
  have hEntry :
      (trimmed u.echo.username = requester &&
        u.echo.role = "admin") = true := by
    simp [UserConfig.echo, hName, hSame, hRole,
      UserRole.name]
  have hAny :
      ((users.map UserConfig.echo).any fun u =>
        trimmed u.username = requester &&
          u.role = "admin") = true :=
    List.any_eq_true.mpr
      ⟨u.echo, List.mem_map_of_mem hMem, hEntry⟩
  rw [keepsRequester, hAny, Bool.or_true]

/- Names that pass the check are set and differ. -/
theorem usernames_of_valid
    {users : List UserConfig}
    (hValid :
      validateUsersPatch ⟨users.map UserConfig.patch⟩ =
        .ok ()) :
    (users.map UserConfig.username).Nodup ∧
      ∀ u ∈ users, u.username.isEmpty = false := by
  rw [validateUsersPatch, bind_eq_ok_iff] at hValid
  rcases hValid with ⟨_, hEach, _⟩
  constructor
  · have hFresh :
        ∀ entry seen u,
          validateUser entry seen u = .ok () →
            u.username ∉ seen := by
      intro entry seen u hCheck
      simp only [validateUser, bind_eq_ok_iff] at hCheck
      rcases hCheck with ⟨_, _, _, hFresh, _⟩
      simpa using require_ok_iff.mp hFresh
    have hNodup := (nodup_of_validateEach hFresh hEach).1
    rwa [List.map_map] at hNodup
  · intro u hMem
    rcases
        check_of_validateEach hEach u.patch
          (List.mem_map_of_mem hMem) with
      ⟨entry, seen, hCheck⟩
    simp only [validateUser, bind_eq_ok_iff] at hCheck
    rcases hCheck with ⟨_, hName, _⟩
    have hSet := require_ok_iff.mp hName
    cases hEmpty : u.username.isEmpty with
    | false => rfl
    | true =>
        rw [String.isEmpty_iff] at hEmpty
        simp [UserConfig.patch, hEmpty, isBlank, trimText]
          at hSet

theorem resolveUsers_echo
    {cfg : Config}
    (hValid :
      validateUsersPatch
          ⟨cfg.auth.users.map UserConfig.patch⟩ = .ok ())
    (hTrimmed :
      ∀ u ∈ cfg.auth.users,
        trimmed u.username = u.username)
    {requester : String}
    (hAdmin : AdminAmong cfg.auth.users requester)
    (hash : Nat → String → Except String String) :
    resolveUsers cfg requester hash
        (cfg.auth.users.map UserConfig.echo) =
      .ok ⟨cfg.auth.users.map UserConfig.patch⟩ := by
  rcases usernames_of_valid hValid with ⟨hNodup, hSet⟩
  have hEach :=
    mapM_zipIdx_map_eq_ok (f := resolveUser cfg hash)
      (g := UserConfig.echo) (h := UserConfig.patch)
      (fun u hMem =>
        resolve_user hNodup hash hMem (hTrimmed u hMem)
          (hSet u hMem)) 0
  rw [resolveUsers, keepsRequester_echo hTrimmed hAdmin,
    if_pos rfl, hEach]
  rfl

theorem resolveRelays_echo
    {cfg : Config}
    (hNodup : cfg.relayPaths.Nodup) :
    resolveRelays cfg ⟨cfg.relays.map RelayConfig.echo⟩ =
      ⟨cfg.relays.map RelayConfig.patch⟩ := by
  have hEach :
      (cfg.relays.map RelayConfig.echo).map
          (resolveRelay cfg) =
        cfg.relays.map RelayConfig.patch := by
    rw [List.map_map]
    apply List.map_congr_left
    intro r hMem
    exact resolve_relay hNodup hMem
  rw [resolveRelays, hEach]

theorem resolve_echo
    {cfg : Config}
    (hTyped : cfg.Typed)
    (hPaths : cfg.validatePaths = .ok ())
    {target : ConfigSection}
    (hValid : (cfg.patch hTyped target).validate = .ok ())
    (hTrimmed :
      ∀ u ∈ cfg.auth.users,
        trimmed u.username = u.username)
    {requester : String}
    (hAdmin : AdminAmong cfg.auth.users requester)
    (hash : Nat → String → Except String String) :
    (cfg.echo hTyped requester hash target).resolve cfg =
      .ok (cfg.patch hTyped target) := by
  have hNodup := (cfg.validatePaths_ok_iff.mp hPaths).1
  rw [Config.allPaths, List.nodup_append] at hNodup
  rcases hNodup with ⟨hFirst, hRelays, _⟩
  have hMounts := (List.nodup_append.mp hFirst).1
  cases target with
  | server =>
      simp only [Config.echo, PutRequest.resolve,
        resolveServer_echo]
      rfl
  | transcode => rfl
  | mounts =>
      simp only [Config.echo, PutRequest.resolve,
        resolveMounts_echo hMounts]
      rfl
  | users =>
      simp only [Config.echo, PutRequest.resolve,
        resolveUsers_echo hValid hTrimmed hAdmin]
      rfl
  | autodjs => rfl
  | relays =>
      simp only [Config.echo, PutRequest.resolve,
        resolveRelays_echo hRelays]
      rfl

/- With names that differ, the list decides the role. -/
theorem isAdmin_of_among
    {cfg : Config}
    (hNodup : (cfg.auth.users.map UserConfig.username).Nodup)
    {user : String}
    (hAdmin : AdminAmong cfg.auth.users user) :
    isAdmin cfg user = true := by
  rcases hAdmin with ⟨u, hMem, hName, hRole⟩
  cases hFind :
      cfg.auth.users.find? (·.username = user) with
  | none =>
      rw [List.find?_eq_none] at hFind
      exact absurd (decide_eq_true hName) (hFind u hMem)
  | some found =>
      have hFound := List.mem_of_find?_eq_some hFind
      have hSame : found.username = user := by
        simpa using List.find?_some hFind
      have hEq : found = u :=
        List.inj_on_of_nodup_map hNodup hFound hMem
          (hSame.trans hName.symm)
      simp [isAdmin, roleOf, hFind, hEq, hRole]

theorem accepted_echo
    {cfg : Config}
    (hTyped : cfg.Typed)
    (hPaths : cfg.validatePaths = .ok ())
    {target : ConfigSection}
    (hValid : (cfg.patch hTyped target).validate = .ok ())
    (hTrimmed :
      ∀ u ∈ cfg.auth.users,
        trimmed u.username = u.username)
    {requester : String}
    (hAdmin : AdminAmong cfg.auth.users requester)
    (hash : Nat → String → Except String String) :
    Accepted cfg (cfg.echo hTyped requester hash target)
      (cfg.patch hTyped target) cfg where
  resolved :=
    resolve_echo hTyped hPaths hValid hTrimmed hAdmin hash
  checked := by
    rw [checkPatch, hValid]
  built := candidate_patch hTyped target
  paths := by
    have hCheck :
        (cfg.patch hTyped target).checkPaths cfg = .ok () := by
      cases target with
      | users => rfl
      | server => exact hPaths
      | transcode => exact hPaths
      | mounts => exact hPaths
      | autodjs => exact hPaths
      | relays => exact hPaths
    rw [checkCandidate, hCheck]

/-
  What an admin is shown of a section can be sent back by any
  admin of the list: it is let through, read and accepted,
  and what is then saved is the configuration that runs.
-/
theorem echo_identity
    {s : EndpointState}
    (hTyped : s.config.Typed)
    (hPaths : s.config.validatePaths = .ok ())
    (hUsers :
      (s.config.patch hTyped .users).validate = .ok ())
    {target : ConfigSection}
    (hValid :
      (s.config.patch hTyped target).validate = .ok ())
    (hTrimmed :
      ∀ u ∈ s.config.auth.users,
        trimmed u.username = u.username)
    {reader requester : String}
    (hReader : AdminAmong s.config.auth.users reader)
    (hRequester : AdminAmong s.config.auth.users requester)
    (hash : Nat → String → Except String String)
    (outcome : SaveOutcome) :
    ∃ shown body put patch,
      s.answer hash outcome (some reader) .get =
          (.shown shown, s) ∧
        sectionBody shown target = some body ∧
        PutRequest.read requester hash body target =
          some put ∧
        Accepted s.config put patch s.config ∧
        s.answer hash outcome (some requester)
            (.put target body) =
          s.persistAndApply s.config true outcome := by
  have hNodup := (usernames_of_valid hUsers).1
  rcases
      read_sectionBody hTyped requester hash s.configPath
        target with
    ⟨body, hBody, hRead⟩
  have hAccepted :=
    accepted_echo hTyped hPaths hValid hTrimmed hRequester hash
  refine
    ⟨_, body, _, _, ?_, hBody, hRead, hAccepted, ?_⟩
  · simp only [EndpointState.answer,
      isAdmin_of_among hNodup hReader]
  · simp only [EndpointState.answer,
      isAdmin_of_among hNodup hRequester, Bool.not_true,
      Bool.and_false, Bool.false_eq_true, if_false, hRead,
      EndpointState.save,
      PutRequest.prepare_of_accepted hAccepted, Bool.or_true]

/- A server with a secret of every kind. -/
def secretsState : EndpointState where
  config :=
    { adminConfig with
      auth :=
        { adminConfig.auth with sourcePassword := some "any" }
      mounts := [.bare "/live" "secret"]
      relays :=
        [{ RelayConfig.bare "/news" with
           username := some "relay"
           password := some "hidden" }] }
  configPath := some "config.toml"

theorem secretsState_typed : secretsState.config.Typed where
  server := ⟨by decide, by decide⟩
  limits :=
    ⟨by decide, by decide, by decide, nofun, by decide⟩
  transcode := nofun
  mounts := by
    intro m hMem
    rw [List.mem_singleton.mp hMem]
    exact ⟨nofun, nofun, nofun⟩
  autodjs := by
    intro a hMem
    exact absurd hMem List.not_mem_nil
  relays := by
    intro r hMem
    rw [List.mem_singleton.mp hMem]
    exact ⟨nofun, nofun, nofun⟩

/- The password of the relay survives. -/
theorem echo_identity_relays :
    ∃ shown body put patch,
      secretsState.answer (fun _ plain => .ok plain)
          ⟨.written, .ok []⟩ (some "admin") .get =
          (.shown shown, secretsState) ∧
        sectionBody shown .relays = some body ∧
        PutRequest.read "admin" (fun _ plain => .ok plain)
          body .relays = some put ∧
        Accepted secretsState.config put patch
          secretsState.config ∧
        secretsState.answer (fun _ plain => .ok plain)
            ⟨.written, .ok []⟩ (some "admin")
            (.put .relays body) =
          secretsState.persistAndApply secretsState.config
            true ⟨.written, .ok []⟩ := by
  have hAdmin :
      AdminAmong secretsState.config.auth.users "admin" :=
    ⟨_, List.mem_singleton.mpr rfl, rfl, rfl⟩
  refine
    echo_identity secretsState_typed (by decide) (by decide)
      (by decide) ?_ hAdmin hAdmin (fun _ plain => .ok plain)
      ⟨.written, .ok []⟩
  intro u hMem
  rw [List.mem_singleton.mp hMem]
  decide

end RustyIce
