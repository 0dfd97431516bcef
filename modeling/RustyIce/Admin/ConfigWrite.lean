import RustyIce.Core.ConfigFile
import Mathlib.Tactic.Common

/-
  The writer of the configuration file: the patch of each
  section, the checks beyond types it has to pass, and the
  edits it makes to the document.

  An edit ends with the document it leaves, or with the text
  of a panic.

  Main declarations:
    * `ConfigWrite.ServerPatch` and its siblings
    * the validators, such as `validateMountsPatch`
    * the edits, such as `applyMountsPatch`
-/

------------------------------------------------------------
-- Patches
------------------------------------------------------------

namespace RustyIce

namespace ConfigWrite

/- An address is held in the text that reads as itself. -/
abbrev BindAddr :=
  { text : SocketAddr // parseSocketAddr text = some text }

structure ServerSubPatch where
  streamBind : BindAddr
  adminBind : BindAddr
  hostname : String
deriving DecidableEq, Repr

structure LoggingSubPatch where
  level : String
  format : String
deriving DecidableEq, Repr

structure LimitsSubPatch where
  maxListenersGlobal : UInt32
  ringSize : UInt64
  slowListenerGraceS : UInt64
  burstSize : UInt32
  sourceMaxKbps : Option UInt32
deriving DecidableEq, Repr

/- An absent password asks for the key to be removed. -/
structure AuthSubPatch where
  sourcePassword : Option String
deriving DecidableEq, Repr

/- An absent `auth` leaves that table alone. -/
structure ServerPatch where
  server : ServerSubPatch
  logging : LoggingSubPatch
  limits : LimitsSubPatch
  auth : Option AuthSubPatch
deriving DecidableEq, Repr

structure TranscodeSubPatch where
  format : String
  sampleRate : UInt32
  bitrateKbps : UInt32
deriving DecidableEq, Repr

structure TranscodePatch where
  transcode : Option TranscodeSubPatch
deriving DecidableEq, Repr

structure MountSubPatch where
  path : String
  sourcePassword : String
  maxListeners : Option UInt32
  name : Option String
  description : Option String
  genre : Option String
  url : Option String
  burstSize : Option UInt32
  transcode : Option TranscodeSubPatch
deriving DecidableEq, Repr

structure MountsPatch where
  mounts : List MountSubPatch
deriving DecidableEq, Repr

structure UserSubPatch where
  username : String
  passwordBcrypt : String
  role : String
deriving DecidableEq, Repr

structure UsersPatch where
  users : List UserSubPatch
deriving DecidableEq, Repr

structure AutoDjSubPatch where
  mount : String
  folder : String
  enabled : Bool
  loopPlaylist : Bool
  order : String
  name : Option String
  description : Option String
  genre : Option String
  url : Option String
  maxListeners : Option UInt32
  burstSize : Option UInt32
  transcode : TranscodeSubPatch
deriving DecidableEq, Repr

structure AutoDjsPatch where
  autodjs : List AutoDjSubPatch
deriving DecidableEq, Repr

structure RelaySubPatch where
  mount : String
  upstream : String
  enabled : Bool
  name : Option String
  description : Option String
  genre : Option String
  url : Option String
  username : Option String
  password : Option String
  maxListeners : Option UInt32
  burstSize : Option UInt32
  transcode : Option TranscodeSubPatch
deriving DecidableEq, Repr

structure RelaysPatch where
  relays : List RelaySubPatch
deriving DecidableEq, Repr

end ConfigWrite

end RustyIce

------------------------------------------------------------
-- Checks
------------------------------------------------------------

namespace RustyIce

namespace ConfigWrite

/- A check that failed: the field it names and the text. -/
structure WriteError where
  field : String
  message : String
deriving DecidableEq, Repr

def require
    (ok : Bool)
    (field message : String) : Except WriteError Unit :=
  if ok then .ok () else .error ⟨field, message⟩

/- Nothing but white space. -/
def isBlank (text : String) : Bool :=
  (trimText text.toList).isEmpty

def startsWith
    (start text : String) : Bool :=
  start.toList.isPrefixOf text.toList

def maxBurst : Nat := 16 * 1024 * 1024

def maxBurstMessage : String :=
  "must be <= 16777216 bytes (16 MiB)"

def validateServerPatch
    (p : ServerPatch) : Except WriteError Unit := do
  require (p.limits.ringSize ≠ 0)
    "limits.ring_size" "must be greater than 0"
  require (p.limits.maxListenersGlobal ≠ 0)
    "limits.max_listeners_global" "must be greater than 0"
  require (p.limits.burstSize.toNat ≤ maxBurst)
    "limits.burst_size" maxBurstMessage
  require
    (p.logging.format = "pretty" || p.logging.format = "json")
    "logging.format" "must be \"pretty\" or \"json\""
  require (!isBlank p.server.hostname)
    "server.hostname" "must be non-empty"
  require (!isBlank p.logging.level)
    "logging.level" "must be non-empty"

def validateTranscodePatch
    (p : TranscodePatch) : Except WriteError Unit :=
  match p.transcode with
  | none => .ok ()
  | some sub => do
      require (sub.format = "mp3" || sub.format = "vorbis")
        "transcode.format" "must be \"mp3\" or \"vorbis\""
      require (sub.sampleRate ≠ 0)
        "transcode.sample_rate" "must be greater than 0"
      require (sub.sampleRate ≤ 192000)
        "transcode.sample_rate" "must be <= 192000 Hz"
      require (sub.bitrateKbps ≠ 0)
        "transcode.bitrate_kbps" "must be greater than 0"
      require (sub.bitrateKbps ≤ 512)
        "transcode.bitrate_kbps" "must be <= 512 kbps"

/- `field` without `transcode.` in front of it, if it is. -/
def stripTranscode (field : String) : String :=
  if startsWith "transcode." field then
    String.ofList (field.toList.drop "transcode.".length)
  else field

/-
  The check of the global transcode block, its error pointed
  at the entry the block belongs to.
-/
def validateEntryTranscode
    (entry : String)
    (transcode : TranscodeSubPatch) :
    Except WriteError Unit :=
  match validateTranscodePatch ⟨some transcode⟩ with
  | .ok () => .ok ()
  | .error e =>
      .error
        ⟨entry ++ ".transcode." ++ stripTranscode e.field,
          e.message⟩

def validateOptionalTranscode
    (entry : String) :
    Option TranscodeSubPatch → Except WriteError Unit
| none => .ok ()
| some transcode => validateEntryTranscode entry transcode

/- The path checks shared by mounts, rotations and relays. -/
def validatePath
    (field duplicate : String)
    (seen : List String)
    (path : String) : Except WriteError Unit := do
  require (!isBlank path) field "must be non-empty"
  require (startsWith "/" path)
    field "must start with \"/\""
  require (path ∉ seen) field (duplicate ++ path)

/- The limits shared by mounts, rotations and relays. -/
def validateLimits
    (entry : String)
    (maxListeners burstSize : Option UInt32) :
    Except WriteError Unit := do
  require (maxListeners ≠ some 0)
    (entry ++ ".max_listeners")
    "must be greater than 0 when set"
  require (burstSize.all fun b => b.toNat ≤ maxBurst)
    (entry ++ ".burst_size") maxBurstMessage

/- One entry after the other, with the keys seen before. -/
def validateEach {Entry : Type}
    (name : String)
    (key : Entry → String)
    (check :
      String → List String → Entry → Except WriteError Unit) :
    List String → Nat → List Entry → Except WriteError Unit
| _, _, [] => .ok ()
| seen, index, entry :: entries => do
    check (name ++ "[" ++ toString index ++ "]") seen entry
    validateEach name key check (key entry :: seen)
      (index + 1) entries

def validateMount
    (entry : String)
    (seen : List String)
    (m : MountSubPatch) : Except WriteError Unit := do
  validatePath (entry ++ ".path") "duplicate mount path: "
    seen m.path
  require (!isBlank m.sourcePassword)
    (entry ++ ".source_password") "must be non-empty"
  validateLimits entry m.maxListeners m.burstSize
  validateOptionalTranscode entry m.transcode

def validateMountsPatch
    (p : MountsPatch) : Except WriteError Unit :=
  validateEach "mounts" MountSubPatch.path validateMount
    [] 0 p.mounts

def validateUser
    (entry : String)
    (seen : List String)
    (u : UserSubPatch) : Except WriteError Unit := do
  require (!isBlank u.username)
    (entry ++ ".username") "must be non-empty"
  require (u.username ∉ seen)
    (entry ++ ".username") ("duplicate username: " ++ u.username)
  require (!u.passwordBcrypt.isEmpty)
    (entry ++ ".password") "must be set when creating a user"
  require (u.role = "admin" || u.role = "operator")
    (entry ++ ".role") "must be \"admin\" or \"operator\""

def validateUsersPatch
    (p : UsersPatch) : Except WriteError Unit := do
  validateEach "users" UserSubPatch.username validateUser
    [] 0 p.users
  require (p.users.any fun u => u.role = "admin")
    "users" "at least one user must have the admin role"

def validateAutoDj
    (entry : String)
    (seen : List String)
    (a : AutoDjSubPatch) : Except WriteError Unit := do
  validatePath (entry ++ ".mount")
    "duplicate autodj mount path: " seen a.mount
  require (!isBlank a.folder)
    (entry ++ ".folder") "must be non-empty"
  require (a.order = "shuffle" || a.order = "sequential")
    (entry ++ ".order")
    "must be \"shuffle\" or \"sequential\""
  validateLimits entry a.maxListeners a.burstSize
  validateEntryTranscode entry a.transcode

def validateAutodjsPatch
    (p : AutoDjsPatch) : Except WriteError Unit :=
  validateEach "autodjs" AutoDjSubPatch.mount validateAutoDj
    [] 0 p.autodjs

/- A credential next to none must be empty. -/
def validateRelayCredentials
    (entry : String)
    (username password : Option String) :
    Except WriteError Unit :=
  match username, password with
  | some u, none =>
      require u.isEmpty (entry ++ ".password")
        "must be set when username is set"
  | none, some p =>
      require p.isEmpty (entry ++ ".username")
        "must be set when password is set"
  | _, _ => .ok ()

def validateRelay
    (entry : String)
    (seen : List String)
    (r : RelaySubPatch) : Except WriteError Unit := do
  validatePath (entry ++ ".mount")
    "duplicate relay mount path: " seen r.mount
  require
    (startsWith "http://" r.upstream ||
      startsWith "https://" r.upstream)
    (entry ++ ".upstream")
    "must be an http:// or https:// URL"
  validateRelayCredentials entry r.username r.password
  validateLimits entry r.maxListeners r.burstSize
  validateOptionalTranscode entry r.transcode

def validateRelaysPatch
    (p : RelaysPatch) : Except WriteError Unit :=
  validateEach "relays" RelaySubPatch.mount validateRelay
    [] 0 p.relays

theorem require_ok_iff
    {ok : Bool}
    {field message : String} :
    require ok field message = .ok () ↔ ok = true := by
  cases ok <;> simp [require]

/- Every entry of a list that passes has passed its check. -/
theorem check_of_validateEach
    {Entry : Type}
    {name : String}
    {key : Entry → String}
    {check :
      String → List String → Entry → Except WriteError Unit}
    {seen : List String}
    {index : Nat}
    {entries : List Entry}
    (hValid :
      validateEach name key check seen index entries =
        .ok ()) :
    ∀ e ∈ entries,
      ∃ entry seen', check entry seen' e = .ok () := by
  induction entries generalizing seen index with
  | nil =>
      intro e hMem
      cases hMem
  | cons head entries ih =>
      rw [validateEach, Library.bind_eq_ok_iff] at hValid
      rcases hValid with ⟨_, hHead, hRest⟩
      intro e hMem
      rcases List.mem_cons.mp hMem with rfl | hTail
      · exact ⟨_, _, hHead⟩
      · exact ih hRest e hTail

/- A check against the keys seen before keeps them apart. -/
theorem nodup_of_validateEach
    {Entry : Type}
    {name : String}
    {key : Entry → String}
    {check :
      String → List String → Entry → Except WriteError Unit}
    (hCheck :
      ∀ entry seen e,
        check entry seen e = .ok () → key e ∉ seen)
    {seen : List String}
    {index : Nat}
    {entries : List Entry}
    (hValid :
      validateEach name key check seen index entries =
        .ok ()) :
    (entries.map key).Nodup ∧
      ∀ k ∈ entries.map key, k ∉ seen := by
  induction entries generalizing seen index with
  | nil =>
      refine ⟨List.nodup_nil, ?_⟩
      intro k hMem
      cases hMem
  | cons head entries ih =>
      rw [validateEach, Library.bind_eq_ok_iff] at hValid
      rcases hValid with ⟨_, hHead, hRest⟩
      rcases ih hRest with ⟨hNodup, hFresh⟩
      constructor
      · apply List.nodup_cons.mpr
        refine ⟨?_, hNodup⟩
        intro hMem
        exact hFresh _ hMem List.mem_cons_self
      · intro k hMem
        rcases List.mem_cons.mp hMem with rfl | hTail
        · exact hCheck _ _ _ hHead
        · intro hSeen
          exact
            hFresh k hTail (List.mem_cons_of_mem _ hSeen)

theorem format_of_validateTranscode
    {t : TranscodeSubPatch}
    (hValid : validateTranscodePatch ⟨some t⟩ = .ok ()) :
    t.format = "mp3" ∨ t.format = "vorbis" := by
  rw [validateTranscodePatch, Library.bind_eq_ok_iff]
    at hValid
  rcases hValid with ⟨_, hFormat, _⟩
  simpa using require_ok_iff.mp hFormat

theorem format_of_validateEntry
    {entry : String}
    {t : TranscodeSubPatch}
    (hValid : validateEntryTranscode entry t = .ok ()) :
    t.format = "mp3" ∨ t.format = "vorbis" := by
  apply format_of_validateTranscode
  unfold validateEntryTranscode at hValid
  split at hValid
  · assumption
  · cases hValid

theorem format_of_validateOptional
    {entry : String}
    {source : Option TranscodeSubPatch}
    (hValid :
      validateOptionalTranscode entry source = .ok ()) :
    ∀ t ∈ source, t.format = "mp3" ∨ t.format = "vorbis" := by
  intro t hSome
  rw [Option.mem_def] at hSome
  subst hSome
  exact format_of_validateEntry hValid

/- What is used later of each check that was passed. -/
theorem format_of_validateMount
    {entry : String}
    {seen : List String}
    {m : MountSubPatch}
    (hValid : validateMount entry seen m = .ok ()) :
    ∀ t ∈ m.transcode,
      t.format = "mp3" ∨ t.format = "vorbis" := by
  simp only [validateMount, Library.bind_eq_ok_iff] at hValid
  rcases hValid with ⟨_, _, _, _, _, _, hTranscode⟩
  exact format_of_validateOptional hTranscode

theorem format_of_validateRelay
    {entry : String}
    {seen : List String}
    {r : RelaySubPatch}
    (hValid : validateRelay entry seen r = .ok ()) :
    ∀ t ∈ r.transcode,
      t.format = "mp3" ∨ t.format = "vorbis" := by
  simp only [validateRelay, Library.bind_eq_ok_iff] at hValid
  rcases hValid with ⟨_, _, _, _, _, _, _, _, hTranscode⟩
  exact format_of_validateOptional hTranscode

theorem order_of_validateAutoDj
    {entry : String}
    {seen : List String}
    {a : AutoDjSubPatch}
    (hValid : validateAutoDj entry seen a = .ok ()) :
    (a.order = "shuffle" ∨ a.order = "sequential") ∧
      (a.transcode.format = "mp3" ∨
        a.transcode.format = "vorbis") := by
  simp only [validateAutoDj, Library.bind_eq_ok_iff] at hValid
  rcases hValid with
    ⟨_, _, _, _, _, hOrder, _, _, hTranscode⟩
  constructor
  · simpa using require_ok_iff.mp hOrder
  · exact format_of_validateEntry hTranscode

theorem role_of_validateUser
    {entry : String}
    {seen : List String}
    {u : UserSubPatch}
    (hValid : validateUser entry seen u = .ok ()) :
    u.role = "admin" ∨ u.role = "operator" := by
  simp only [validateUser, Library.bind_eq_ok_iff] at hValid
  rcases hValid with ⟨_, _, _, _, _, _, hRole⟩
  simpa using require_ok_iff.mp hRole

theorem format_of_validateServer
    {p : ServerPatch}
    (hValid : validateServerPatch p = .ok ()) :
    p.logging.format = "pretty" ∨
      p.logging.format = "json" := by
  simp only [validateServerPatch, Library.bind_eq_ok_iff]
    at hValid
  rcases hValid with ⟨_, _, _, _, _, _, _, hFormat, _⟩
  simpa using require_ok_iff.mp hFormat

end ConfigWrite

end RustyIce

------------------------------------------------------------
-- Edits
------------------------------------------------------------

namespace RustyIce

namespace ConfigWrite

open Library Library.Toml

def i64Max : Nat := 9223372036854775807

/- `i64::try_from(n).unwrap_or(i64::MAX)`. -/
def ofU64 (n : UInt64) : Item :=
  .integer (min n.toNat i64Max : Nat)

def ofU32 (n : UInt32) : Item :=
  .integer n.toNat

/-
  Edit the item of a key in place, an empty table if there
  is none: `ensure_table` and what is done to its result.
-/
def editTable
    (doc : Table)
    (name : String)
    (edit : Item → Except String Item) :
    Except String Table := do
  let item ← edit ((doc.get name).getD (.table .empty))
  pure (doc.insert name item)

/- The edits of the tables the server section consists of. -/
def setServer
    (p : ServerSubPatch)
    (server : Item) : Except String Item := do
  let server ←
    server.setKey "stream_bind" (.string p.streamBind.val)
  let server ←
    server.setKey "admin_bind" (.string p.adminBind.val)
  server.setKey "hostname" (.string p.hostname)

def setLogging
    (p : LoggingSubPatch)
    (logging : Item) : Except String Item := do
  let logging ← logging.setKey "level" (.string p.level)
  logging.setKey "format" (.string p.format)

def setLimits
    (p : LimitsSubPatch)
    (limits : Item) : Except String Item := do
  let limits ←
    limits.setKey "max_listeners_global"
      (ofU32 p.maxListenersGlobal)
  let limits ← limits.setKey "ring_size" (ofU64 p.ringSize)
  let limits ←
    limits.setKey "slow_listener_grace_s"
      (ofU64 p.slowListenerGraceS)
  let limits ←
    limits.setKey "burst_size" (ofU32 p.burstSize)
  match p.sourceMaxKbps with
  | some n => limits.setKey "source_max_kbps" (ofU32 n)
  | none => pure (limits.removeKey "source_max_kbps")

def setAuth
    (p : AuthSubPatch)
    (auth : Item) : Except String Item :=
  match p.sourcePassword with
  | some s => auth.setKey "source_password" (.string s)
  | none => pure (auth.removeKey "source_password")

def applyServerPatch
    (doc : Table)
    (p : ServerPatch) : Except String Table := do
  let doc ← editTable doc "server" (setServer p.server)
  let doc ← editTable doc "logging" (setLogging p.logging)
  let doc ← editTable doc "limits" (setLimits p.limits)
  match p.auth with
  | none => pure doc
  | some authPatch => editTable doc "auth" (setAuth authPatch)

def setTranscode
    (sub : TranscodeSubPatch)
    (table : Item) : Except String Item := do
  let table ← table.setKey "format" (.string sub.format)
  let table ←
    table.setKey "sample_rate" (ofU32 sub.sampleRate)
  table.setKey "bitrate_kbps" (ofU32 sub.bitrateKbps)

def applyTranscodePatch
    (doc : Table)
    (p : TranscodePatch) : Except String Table :=
  match p.transcode with
  | some sub => editTable doc "transcode" (setTranscode sub)
  | none => pure (doc.remove "transcode")

/-
  Replace an array of tables; without entries the key goes.
-/
def replaceTables {Entry : Type}
    (doc : Table)
    (name : String)
    (write : Entry → Table)
    (entries : List Entry) : Table :=
  if entries.isEmpty then doc.remove name
  else doc.insert name (.arrayOfTables (entries.map write))

def userTable (u : UserSubPatch) : Table :=
  IndexMap.empty
    |>.insert "username" (.string u.username)
    |>.insert "password_bcrypt" (.string u.passwordBcrypt)
    |>.insert "role" (.string u.role)

def setUsers
    (p : UsersPatch)
    (auth : Item) : Except String Item :=
  match auth.asTable with
  | none => .error "ensure_table returned non-table"
  | some authTable =>
      pure
        (.table
          (replaceTables authTable "users" userTable p.users))

def applyUsersPatch
    (doc : Table)
    (p : UsersPatch) : Except String Table :=
  editTable doc "auth" (setUsers p)

def transcodeTable (t : TranscodeSubPatch) : Table :=
  IndexMap.empty
    |>.insert "format" (.string t.format)
    |>.insert "sample_rate" (ofU32 t.sampleRate)
    |>.insert "bitrate_kbps" (ofU32 t.bitrateKbps)

/- A flag is written only if it is off. -/
def offFlag (flag : Bool) : Option Item :=
  if flag then none else some (.boolean false)

def autodjTable (a : AutoDjSubPatch) : Table :=
  IndexMap.empty
    |>.insert "mount" (.string a.mount)
    |>.insert "folder" (.string a.folder)
    |>.insertSome "enabled" (offFlag a.enabled)
    |>.insertSome "loop" (offFlag a.loopPlaylist)
    |>.insert "order" (.string a.order)
    |>.insertSome "name" (a.name.map .string)
    |>.insertSome "description" (a.description.map .string)
    |>.insertSome "genre" (a.genre.map .string)
    |>.insertSome "url" (a.url.map .string)
    |>.insertSome "max_listeners" (a.maxListeners.map ofU32)
    |>.insertSome "burst_size" (a.burstSize.map ofU32)
    |>.insert "transcode"
      (.table (transcodeTable a.transcode))

def applyAutodjsPatch
    (doc : Table)
    (p : AutoDjsPatch) : Except String Table :=
  pure (replaceTables doc "autodjs" autodjTable p.autodjs)

def relayTable (r : RelaySubPatch) : Table :=
  IndexMap.empty
    |>.insert "mount" (.string r.mount)
    |>.insert "upstream" (.string r.upstream)
    |>.insertSome "enabled" (offFlag r.enabled)
    |>.insertSome "name" (r.name.map .string)
    |>.insertSome "description" (r.description.map .string)
    |>.insertSome "genre" (r.genre.map .string)
    |>.insertSome "url" (r.url.map .string)
    |>.insertSome "username" (r.username.map .string)
    |>.insertSome "password" (r.password.map .string)
    |>.insertSome "max_listeners" (r.maxListeners.map ofU32)
    |>.insertSome "burst_size" (r.burstSize.map ofU32)
    |>.insertSome "transcode"
      (r.transcode.map fun t => .table (transcodeTable t))

def applyRelaysPatch
    (doc : Table)
    (p : RelaysPatch) : Except String Table :=
  pure (replaceTables doc "relays" relayTable p.relays)

def mountTable (m : MountSubPatch) : Table :=
  IndexMap.empty
    |>.insert "path" (.string m.path)
    |>.insert "source_password" (.string m.sourcePassword)
    |>.insertSome "max_listeners" (m.maxListeners.map ofU32)
    |>.insertSome "name" (m.name.map .string)
    |>.insertSome "description" (m.description.map .string)
    |>.insertSome "genre" (m.genre.map .string)
    |>.insertSome "url" (m.url.map .string)
    |>.insertSome "burst_size" (m.burstSize.map ofU32)
    |>.insertSome "transcode"
      (m.transcode.map fun t => .table (transcodeTable t))

def applyMountsPatch
    (doc : Table)
    (p : MountsPatch) : Except String Table :=
  pure (replaceTables doc "mounts" mountTable p.mounts)

end ConfigWrite

end RustyIce
