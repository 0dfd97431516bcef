import RustyIce.Admin.ConfigView
import RustyIce.Admin.FileAgreement
import RustyIce.Admin.Sessions

/-
  The configuration endpoints from the session to the reply:
  who is let through, what a request is answered, and the
  configuration that runs afterwards.

  What becomes of the file and what applying a candidate
  says are the outcome of a request. The status numbers and
  the text of a body that cannot be read are left out.

  Main declarations:
    * `PutRequest.prepare`
    * `SaveOutcome`, `EndpointState`, `Reply`
    * `EndpointState.answer`
-/

------------------------------------------------------------
-- Up To The Candidate
------------------------------------------------------------

namespace RustyIce

namespace ConfigPut

open Library

/- What a handler does before it touches the file. -/
def PutRequest.prepare
    (current : Config)
    (put : PutRequest) :
    Except PutFailure (Patch × Config) := do
  let patch ← orReject (put.resolve current)
  orReject (checkPatch patch)
  let candidate ← orPanic (patch.candidate current)
  orReject (checkCandidate patch candidate)
  pure (patch, candidate)

theorem PutRequest.prepare_of_accepted
    {current candidate : Config}
    {put : PutRequest}
    {patch : Patch}
    (hAccepted : Accepted current put patch candidate) :
    put.prepare current = .ok (patch, candidate) := by
  have hPatch :
      orReject (put.resolve current) = .ok patch := by
    rw [hAccepted.resolved]
    rfl
  have hChecked : orReject (checkPatch patch) = .ok () := by
    rw [hAccepted.checked]
    rfl
  have hBuilt :
      orPanic (patch.candidate current) = .ok candidate := by
    rw [hAccepted.built]
    rfl
  have hPaths :
      orReject (checkCandidate patch candidate) =
        .ok () := by
    rw [hAccepted.paths]
    rfl
  simp only [prepare, bind_eq_ok_iff]
  exact ⟨_, hPatch, _, hChecked, _, hBuilt, _, hPaths, rfl⟩

theorem PutRequest.accepted_of_prepare
    {current candidate : Config}
    {put : PutRequest}
    {patch : Patch}
    (hPrepared :
      put.prepare current = .ok (patch, candidate)) :
    Accepted current put patch candidate := by
  simp only [prepare, bind_eq_ok_iff] at hPrepared
  rcases hPrepared with
    ⟨found, hPatch, ⟨⟩, hChecked, built, hBuilt, ⟨⟩, hPaths,
      hSame⟩
  cases hSame
  exact
    { resolved := orReject_eq_ok_iff.mp hPatch
      checked := orReject_eq_ok_iff.mp hChecked
      built := orPanic_eq_ok_iff.mp hBuilt
      paths := orReject_eq_ok_iff.mp hPaths }

end ConfigPut

end RustyIce

------------------------------------------------------------
-- Replies
------------------------------------------------------------

namespace RustyIce

open ConfigPut Library

/- Sections behind `require_admin`. -/
def ConfigSection.adminOnly : ConfigSection → Bool
| .server => true
| .transcode => true
| .users => true
| .mounts => false
| .autodjs => false
| .relays => false

/- A user who is gone counts as an operator. -/
def isAdmin
    (cfg : Config)
    (user : String) : Bool :=
  (roleOf cfg user).getD .operator = .admin

/- How reading, editing and writing the file ends. -/
inductive DiskOutcome where
| written
| failed (error : String)
| panicked (message : String)
deriving DecidableEq, Repr

/- Applying ends with its warnings or with an error. -/
structure SaveOutcome where
  disk : DiskOutcome
  applied : Except String (List String)

/- `configPath` is the file that backs the configuration. -/
structure EndpointState where
  config : Config
  configPath : Option String
deriving DecidableEq, Repr

inductive ConfigRequest where
| get
| put (target : ConfigSection) (body : Json)

/-
  `shown` is a success; `unreadable` depends on the body of
  the request alone.
-/
inductive Reply where
| shown (body : Json)
| refused (body : Json)
| unauthorized
| forbidden
| unreadable
| panicked (message : String)

def ConfigPut.PutError.json (e : PutError) : Json :=
  .record
    [("error", some (.string e.error)),
      ("field", some (.orNull (e.field.map .string))),
      ("disk_written", some (.bool e.diskWritten))]

/- `PutSuccess`: the warnings next to the configuration. -/
def putSuccess
    (response : ConfigResponse)
    (warnings : List String) : Json :=
  .record
    (response.spec ++
      [("applied_warnings",
        some (.array (warnings.map .string)))])

namespace EndpointState

/-
  Save the candidate and make it the configuration that
  runs. A save without a file creates one.
-/
def persistAndApply
    (s : EndpointState)
    (candidate : Config)
    (showAll : Bool)
    (outcome : SaveOutcome) : Reply × EndpointState :=
  match outcome.disk with
  | .failed error => (.refused (refusal error none).json, s)
  | .panicked message => (.panicked message, s)
  | .written =>
      match outcome.applied with
      | .error error =>
          (.refused
            (PutError.json
              { error := error
                field := none
                diskWritten := true }), s)
      | .ok warnings =>
          let configPath := s.configPath <|> some "config.toml"
          (.shown
              (putSuccess
                (buildConfigResponse candidate configPath
                  showAll)
                warnings),
            { config := candidate, configPath := configPath })

/- A request that was read, with the role of its session. -/
def save
    (s : EndpointState)
    (put : PutRequest)
    (showAll : Bool)
    (outcome : SaveOutcome) : Reply × EndpointState :=
  match put.prepare s.config with
  | .ok (_, candidate) =>
      s.persistAndApply candidate showAll outcome
  | .error (.rejected error) => (.refused error.json, s)
  | .error (.panicked message) => (.panicked message, s)

/- `session` is the user of a valid session. -/
def answer
    (s : EndpointState)
    (hash : Nat → String → Except String String)
    (outcome : SaveOutcome)
    (session : Option String)
    (request : ConfigRequest) : Reply × EndpointState :=
  match session with
  | none => (.unauthorized, s)
  | some user =>
      let admin := isAdmin s.config user
      match request with
      | .get =>
          (.shown
            (buildConfigResponse s.config s.configPath
              admin).json, s)
      | .put target body =>
          if target.adminOnly && !admin then
            (.forbidden, s)
          else
            match PutRequest.read user hash body target with
            | none => (.unreadable, s)
            | some put =>
                s.save put (target.adminOnly || admin) outcome

end EndpointState

end RustyIce
