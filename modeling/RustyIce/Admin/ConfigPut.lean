import RustyIce.Admin.ConfigApi
import RustyIce.Admin.ConfigWrite
import RustyIce.Auth.TomlBcrypt

/-
  The configuration endpoints from the request body to the
  file: the secrets a body leaves out are filled in, the
  patch is checked, the candidate is built from the running
  configuration, and the document is edited and stored.

  The file exists and is readable and writable. Hashing a
  password is a parameter of a request. Who may call an
  endpoint, and what the response shows of the
  configuration, are left out.

  Main declarations:
    * the bodies, such as `ServerPutBody`
    * the candidates, such as `mountsCandidate`
    * the handlers, such as `putMounts`
    * `PutRequest.exec`
-/

------------------------------------------------------------
-- Candidates
------------------------------------------------------------

namespace RustyIce

namespace ConfigPut

open ConfigWrite

/- The patch of the server section as written. -/
abbrev WritePatch := ConfigWrite.ServerPatch

/- The panic of a match arm that validation rules out. -/
def validatedAbove : String :=
  "internal error: entered unreachable code: validated above"

def logFormat (text : String) : Except String LogFormat :=
  if text = "pretty" then .ok .pretty
  else if text = "json" then .ok .json
  else .error validatedAbove

def transcodeFormat
    (text : String) : Except String TranscodeFormat :=
  if text = "mp3" then .ok .mp3
  else if text = "vorbis" then .ok .vorbis
  else .error validatedAbove

def userRole (text : String) : UserRole :=
  if text = "admin" then .admin else .operator

def order (text : String) : Order :=
  if text = "sequential" then .sequential else .shuffle

def transcodeConfig
    (t : TranscodeSubPatch) :
    Except String TranscodeConfig := do
  let format ← transcodeFormat t.format
  pure
    { format := format
      sampleRate := t.sampleRate.toNat
      bitrateKbps := t.bitrateKbps.toNat }

def optionalTranscodeConfig :
    Option TranscodeSubPatch →
      Except String (Option TranscodeConfig)
| none => pure none
| some t => do
    let config ← transcodeConfig t
    pure (some config)

def mountConfig
    (m : MountSubPatch) : Except String MountConfig := do
  let transcode ← optionalTranscodeConfig m.transcode
  pure
    { path := m.path
      sourcePassword := m.sourcePassword
      maxListeners := m.maxListeners.map UInt32.toNat
      name := m.name
      description := m.description
      genre := m.genre
      url := m.url
      transcode := transcode
      burstSize := m.burstSize.map UInt32.toNat }

def userConfig (u : UserSubPatch) : UserConfig where
  username := u.username
  passwordBcrypt := u.passwordBcrypt
  role := userRole u.role

def autodjConfig
    (a : AutoDjSubPatch) : Except String AutoDjConfig := do
  let transcode ← transcodeConfig a.transcode
  pure
    { mount := a.mount
      folder := a.folder
      name := a.name
      description := a.description
      genre := a.genre
      url := a.url
      enabled := a.enabled
      loopPlaylist := a.loopPlaylist
      order := order a.order
      maxListeners := a.maxListeners.map UInt32.toNat
      burstSize := a.burstSize.map UInt32.toNat
      transcode := transcode }

def relayConfig
    (r : RelaySubPatch) : Except String RelayConfig := do
  let transcode ← optionalTranscodeConfig r.transcode
  pure
    { mount := r.mount
      upstream := r.upstream
      name := r.name
      description := r.description
      genre := r.genre
      url := r.url
      enabled := r.enabled
      username := r.username
      password := r.password
      maxListeners := r.maxListeners.map UInt32.toNat
      burstSize := r.burstSize.map UInt32.toNat
      transcode := transcode }

def serverCandidate
    (current : Config)
    (p : WritePatch) : Except String Config := do
  let format ← logFormat p.logging.format
  pure
    { current with
      server :=
        { streamBind := p.server.streamBind.val
          adminBind := p.server.adminBind.val
          hostname := p.server.hostname }
      logging := { level := p.logging.level, format := format }
      limits :=
        { maxListenersGlobal :=
            p.limits.maxListenersGlobal.toNat
          ringSize := p.limits.ringSize.toNat
          slowListenerGraceS :=
            p.limits.slowListenerGraceS.toNat
          sourceMaxKbps :=
            p.limits.sourceMaxKbps.map UInt32.toNat
          burstSize := p.limits.burstSize.toNat }
      auth :=
        match p.auth with
        | none => current.auth
        | some authPatch =>
            { current.auth with
              sourcePassword := authPatch.sourcePassword } }

def transcodeCandidate
    (current : Config)
    (p : TranscodePatch) : Except String Config := do
  let transcode ← optionalTranscodeConfig p.transcode
  pure { current with transcode := transcode }

def mountsCandidate
    (current : Config)
    (p : MountsPatch) : Except String Config := do
  let mounts ← p.mounts.mapM mountConfig
  pure { current with mounts := mounts }

def usersCandidate
    (current : Config)
    (p : UsersPatch) : Except String Config :=
  pure
    { current with
      auth :=
        { current.auth with
          users := p.users.map userConfig } }

def autodjsCandidate
    (current : Config)
    (p : AutoDjsPatch) : Except String Config := do
  let autodjs ← p.autodjs.mapM autodjConfig
  pure { current with autodjs := autodjs }

def relaysCandidate
    (current : Config)
    (p : RelaysPatch) : Except String Config := do
  let relays ← p.relays.mapM relayConfig
  pure { current with relays := relays }

end ConfigPut

end RustyIce

------------------------------------------------------------
-- Saving A Section
------------------------------------------------------------

namespace RustyIce

namespace ConfigPut

open ConfigWrite Library.Toml

/- The running configuration and the document of its file. -/
structure FileState where
  document : Table
  running : Config

structure PutError where
  error : String
  field : Option String
  diskWritten : Bool
deriving DecidableEq, Repr

/- How a request ends that does not save. -/
inductive PutFailure where
| rejected (error : PutError)
| panicked (message : String)
deriving DecidableEq, Repr

/- A request turned down before anything was written. -/
def refusal
    (error : String)
    (field : Option String) : PutError where
  error := error
  field := field
  diskWritten := false

def orReject {Value : Type} :
    Except PutError Value → Except PutFailure Value
| .ok value => .ok value
| .error error => .error (.rejected error)

def orPanic {Value : Type} :
    Except String Value → Except PutFailure Value
| .ok value => .ok value
| .error message => .error (.panicked message)

inductive Patch where
| server (patch : WritePatch)
| transcode (patch : TranscodePatch)
| mounts (patch : MountsPatch)
| users (patch : UsersPatch)
| autodjs (patch : AutoDjsPatch)
| relays (patch : RelaysPatch)
deriving DecidableEq, Repr

namespace Patch

def target : Patch → ConfigSection
| .server _ => .server
| .transcode _ => .transcode
| .mounts _ => .mounts
| .users _ => .users
| .autodjs _ => .autodjs
| .relays _ => .relays

def validate : Patch → Except WriteError Unit
| .server p => validateServerPatch p
| .transcode p => validateTranscodePatch p
| .mounts p => validateMountsPatch p
| .users p => validateUsersPatch p
| .autodjs p => validateAutodjsPatch p
| .relays p => validateRelaysPatch p

def candidate
    (current : Config) : Patch → Except String Config
| .server p => serverCandidate current p
| .transcode p => transcodeCandidate current p
| .mounts p => mountsCandidate current p
| .users p => usersCandidate current p
| .autodjs p => autodjsCandidate current p
| .relays p => relaysCandidate current p

/- Only the users are saved without the path check. -/
def checkPaths
    (candidate : Config) : Patch → Except String Unit
| .users _ => .ok ()
| _ => candidate.validatePaths

def apply
    (doc : Table) : Patch → Except String Table
| .server p => applyServerPatch doc p
| .transcode p => applyTranscodePatch doc p
| .mounts p => applyMountsPatch doc p
| .users p => applyUsersPatch doc p
| .autodjs p => applyAutodjsPatch doc p
| .relays p => applyRelaysPatch doc p

end Patch

/-
  Edit the document as it is on disk, write it, and make the
  candidate the running configuration.
-/
def persistAndApply
    (s : FileState)
    (candidate : Config)
    (patchDoc : Table → Except String Table) :
    Except PutFailure FileState := do
  let document ← orPanic (patchDoc s.document)
  pure { document := document, running := candidate }

/- A failed check names its field, the path check none. -/
def checkPatch (patch : Patch) : Except PutError Unit :=
  match patch.validate with
  | .ok () => .ok ()
  | .error e => .error (refusal e.message (some e.field))

def checkCandidate
    (patch : Patch)
    (candidate : Config) : Except PutError Unit :=
  match patch.checkPaths candidate with
  | .ok () => .ok ()
  | .error message => .error (refusal message none)

/- What the handlers have in common. -/
def saveSection
    (s : FileState)
    (patch : Patch) : Except PutFailure FileState := do
  orReject (checkPatch patch)
  let candidate ← orPanic (patch.candidate s.running)
  orReject (checkCandidate patch candidate)
  persistAndApply s candidate fun doc => patch.apply doc

end ConfigPut

end RustyIce

------------------------------------------------------------
-- Handlers
------------------------------------------------------------

namespace RustyIce

namespace ConfigPut

open ConfigWrite

structure AuthSubBody where
  sourcePassword : Option String
deriving DecidableEq, Repr

structure ServerPutBody where
  server : ServerSubPatch
  logging : LoggingSubPatch
  limits : LimitsSubPatch
  auth : Option AuthSubBody
deriving DecidableEq, Repr

structure MountSubBody where
  path : String
  sourcePassword : Option String
  maxListeners : Option UInt32
  name : Option String
  description : Option String
  genre : Option String
  url : Option String
  burstSize : Option UInt32
  transcode : Option TranscodeSubPatch
deriving DecidableEq, Repr

structure UserSubBody where
  username : String
  password : Option String
  role : String
deriving DecidableEq, Repr

/-
  A secret that is really sent: neither empty nor the
  sentinel shown in place of one.
-/
def supplied (secret : Option String) : Option String :=
  secret.filter fun p => !p.isEmpty && p ≠ "***"

def resolveServer (body : ServerPutBody) : WritePatch where
  server := body.server
  logging := body.logging
  limits := body.limits
  auth :=
    (supplied (body.auth.bind (·.sourcePassword))).map
      fun p => ⟨some p⟩

def putServer
    (s : FileState)
    (body : ServerPutBody) : Except PutFailure FileState :=
  saveSection s (.server (resolveServer body))

def putTranscode
    (s : FileState)
    (body : TranscodePatch) : Except PutFailure FileState :=
  saveSection s (.transcode body)

/-
  The password sent, the one the mount has, or the global
  one, in this order.
-/
def resolveMount
    (current : Config)
    (entry : MountSubBody × Nat) :
    Except PutError MountSubPatch :=
  let (m, index) := entry
  match
    supplied m.sourcePassword <|>
      collectMap MountConfig.path MountConfig.sourcePassword
        current.mounts m.path <|>
      current.auth.sourcePassword
  with
  | none =>
      .error
        (refusal
          ("new mount requires source_password (no global " ++
            "[auth].source_password is set to fall back on)")
          (some
            ("mounts[" ++ toString index ++
              "].source_password")))
  | some password =>
      .ok
        { path := m.path
          sourcePassword := password
          maxListeners := m.maxListeners
          name := m.name
          description := m.description
          genre := m.genre
          url := m.url
          burstSize := m.burstSize
          transcode := m.transcode }

def resolveMounts
    (current : Config)
    (body : List MountSubBody) :
    Except PutError MountsPatch := do
  let mounts ← body.zipIdx.mapM (resolveMount current)
  pure ⟨mounts⟩

def putMounts
    (s : FileState)
    (body : List MountSubBody) :
    Except PutFailure FileState := do
  let patch ← orReject (resolveMounts s.running body)
  saveSection s (.mounts patch)

def trimmed (text : String) : String :=
  String.ofList (trimText text.toList)

/-
  A password that is sent is hashed; without one the user
  keeps the hash there is. `hash` is what hashing the
  password at a position gives, or the text of its failure.
-/
def resolvePassword
    (current : Config)
    (hash : Nat → String → Except String String)
    (index : Nat)
    (username : String)
    (password : Option String) : Except PutError String :=
  match supplied password with
  | some plain =>
      match hash index plain with
      | .ok hashed => .ok hashed
      | .error message => .error (refusal message none)
  | none =>
      match
        collectMap UserConfig.username
          UserConfig.passwordBcrypt current.auth.users username
      with
      | some hashed => .ok hashed
      | none =>
          .error
            (refusal "new user requires a password"
              (some
                ("users[" ++ toString index ++ "].password")))

def resolveUser
    (current : Config)
    (hash : Nat → String → Except String String)
    (entry : UserSubBody × Nat) :
    Except PutError UserSubPatch := do
  let (u, index) := entry
  let username := trimmed u.username
  if username.isEmpty then
    .error
      (refusal "must be non-empty"
        (some ("users[" ++ toString index ++ "].username")))
  else
    let passwordBcrypt ←
      resolvePassword current hash index username u.password
    pure
      { username := username
        passwordBcrypt := passwordBcrypt
        role := u.role }

/- The account of the session stays, and stays an admin. -/
def keepsRequester
    (requester : String)
    (body : List UserSubBody) : Bool :=
  requester.isEmpty ||
    body.any fun u =>
      trimmed u.username = requester && u.role = "admin"

def resolveUsers
    (current : Config)
    (requester : String)
    (hash : Nat → String → Except String String)
    (body : List UserSubBody) :
    Except PutError UsersPatch :=
  if keepsRequester requester body then do
    let users ← body.zipIdx.mapM (resolveUser current hash)
    pure ⟨users⟩
  else
    .error
      (refusal
        ("cannot remove or demote your own account (" ++
          requester ++ ") — have another admin do it")
        none)

def putUsers
    (s : FileState)
    (requester : String)
    (hash : Nat → String → Except String String)
    (body : List UserSubBody) :
    Except PutFailure FileState := do
  let patch ←
    orReject (resolveUsers s.running requester hash body)
  saveSection s (.users patch)

def putAutodjs
    (s : FileState)
    (body : AutoDjsPatch) : Except PutFailure FileState :=
  saveSection s (.autodjs body)

/- A relay keeps the password of its mount if none is sent. -/
def resolveRelay
    (current : Config)
    (r : RelaySubPatch) : RelaySubPatch :=
  { r with
    password :=
      supplied r.password <|>
        collectMap Prod.fst Prod.snd
          (current.relays.filterMap fun r =>
            r.password.map fun p => (r.mount, p))
          r.mount }

def resolveRelays
    (current : Config)
    (body : RelaysPatch) : RelaysPatch where
  relays := body.relays.map (resolveRelay current)

def putRelays
    (s : FileState)
    (body : RelaysPatch) : Except PutFailure FileState :=
  saveSection s (.relays (resolveRelays s.running body))

inductive PutRequest where
| server (body : ServerPutBody)
| transcode (body : TranscodePatch)
| mounts (body : List MountSubBody)
| users
    (requester : String)
    (hash : Nat → String → Except String String)
    (body : List UserSubBody)
| autodjs (body : AutoDjsPatch)
| relays (body : RelaysPatch)

def PutRequest.exec
    (s : FileState) :
    PutRequest → Except PutFailure FileState
| .server body => putServer s body
| .transcode body => putTranscode s body
| .mounts body => putMounts s body
| .users requester hash body =>
    putUsers s requester hash body
| .autodjs body => putAutodjs s body
| .relays body => putRelays s body

end ConfigPut

end RustyIce
