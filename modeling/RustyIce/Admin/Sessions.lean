import RustyIce.Library.Machine
import RustyIce.Auth.TomlBcrypt

/-
  Sessions of the admin interface: logins, the two
  middlewares, logout, and changes of the configuration in
  between.

  The check of a password against a hash is a parameter. A
  touch reads the clock once.

  Main declarations:
    * `sessionToken`, `SessionStore`
    * `AdminRequest`, `AdminSystem`, `adminMachine`
    * `AccessLost`, `AccessOk`
    * `access_lost`
-/

------------------------------------------------------------
-- Tokens
------------------------------------------------------------

namespace RustyIce

/- The text of a header or a token, by characters. -/
abbrev HeaderText := List Char

def cookieName : HeaderText :=
  ['r', 'u', 's', 't', 'y', 'i', 'c', 'e', '_', 's', 'e',
    's', 's', 'i', 'o', 'n']

/- What stands before and after the first `mark`. -/
def splitOnce
    (mark : Char)
    (text : HeaderText) : Option (HeaderText × HeaderText) :=
  match text.dropWhile (· ≠ mark) with
  | [] => none
  | _ :: value => some (text.takeWhile (· ≠ mark), value)

/- The session cookie among the cookies of a request. -/
def sessionToken
    (cookies : Option HeaderText) : Option HeaderText :=
  cookies.bind fun text =>
    (text.splitOn ';').findSome? fun pair =>
      match splitOnce '=' (trimText pair) with
      | none => none
      | some (name, value) =>
          if name = cookieName then some value else none

end RustyIce

------------------------------------------------------------
-- The Session Store
------------------------------------------------------------

namespace RustyIce

structure SessionEntry where
  token : HeaderText
  user : String
  expiresAt : Nat
deriving DecidableEq, Repr

/- One entry a token. -/
structure SessionStore where
  entries : List SessionEntry
  ttl : Nat
deriving DecidableEq, Repr

namespace SessionStore

def new (ttl : Nat) : SessionStore where
  entries := []
  ttl := ttl

def revoke
    (store : SessionStore)
    (token : HeaderText) : SessionStore :=
  { store with
    entries := store.entries.filter (·.token ≠ token) }

/- An entry takes the place of the one for its token. -/
def insert
    (store : SessionStore)
    (entry : SessionEntry) : SessionStore :=
  { store with
    entries := (store.revoke entry.token).entries ++ [entry] }

def create
    (store : SessionStore)
    (now : Nat)
    (token : HeaderText)
    (user : String) : SessionStore :=
  store.insert
    { token := token
      user := user
      expiresAt := now + store.ttl }

/-
  The user of a valid token, whose expiry moves with its use;
  an expired one is dropped.
-/
def touch
    (store : SessionStore)
    (now : Nat)
    (token : HeaderText) : Option String × SessionStore :=
  match store.entries.find? (·.token = token) with
  | none => (none, store)
  | some entry =>
      if entry.expiresAt < now then
        (none, store.revoke token)
      else
        (some entry.user,
          store.insert
            { entry with expiresAt := now + store.ttl })

end SessionStore

/- The role of the first user of that name. -/
def roleOf
    (cfg : Config)
    (user : String) : Option UserRole :=
  (cfg.auth.users.find? (·.username = user)).map
    UserConfig.role

/- The configuration lists the user. -/
def ListsUser
    (cfg : Config)
    (user : String) : Prop :=
  ∃ u ∈ cfg.auth.users, u.username = user

instance
    (cfg : Config)
    (user : String) :
    Decidable (ListsUser cfg user) := by
  unfold ListsUser
  infer_instance

end RustyIce

------------------------------------------------------------
-- Requests
------------------------------------------------------------

namespace RustyIce

/-
  A login, a request behind `require_session` (a logout is
  one), a request behind `require_admin`, and one whose
  handler asks for `session_role` itself.
-/
inductive AdminRequestKind where
| login (username password : String)
| session
| logout
| admin
| role
deriving DecidableEq, Repr

/- Where a request is, one access at a time. -/
inductive AdminPhase where
| loadUsers
| verifying (hash : String)
| create
| reply (token : HeaderText)
| touch
| loadConfig (user : String)
| passed (user : String)
| resolved (user : String) (role : UserRole)
| answered (status : Nat)
deriving DecidableEq, Repr

/- The user whose role the request is about to look up. -/
def AdminPhase.reading : AdminPhase → Option String
| .loadConfig user => some user
| _ => none

structure AdminRequest where
  kind : AdminRequestKind
  cookies : Option HeaderText
  phase : AdminPhase
deriving DecidableEq, Repr

/- A change of the configuration on its way. -/
inductive ChangePhase where
| reloadUsers
| storeConfig
| done
deriving DecidableEq, Repr

structure ConfigChange where
  cfg : Config
  phase : ChangePhase
deriving DecidableEq, Repr

structure AdminSystem where
  now : Nat
  sessions : SessionStore
  auth : TomlBcryptAuth
  config : Config
  requests : List AdminRequest
  changes : List ConfigChange

inductive AdminLabel where
| arrive
    (kind : AdminRequestKind)
    (cookies : Option HeaderText)
| request (i : Nat) (uuid : HeaderText)
| change (cfg : Config)
| store (i : Nat)
| tick (elapsed : Nat)

namespace AdminRequest

/- The user who is about to get a session. -/
def creating (r : AdminRequest) : Option String :=
  match r.phase, r.kind with
  | .create, .login username _ => some username
  | _, _ => none

/- The first access of a request. -/
def begin
    (kind : AdminRequestKind)
    (cookies : Option HeaderText) : AdminRequest where
  kind := kind
  cookies := cookies
  phase :=
    match kind with
    | .login _ _ => .loadUsers
    | _ => .touch

/-
  The middlewares and handlers, access by access. `uuid` is
  the token a login draws.
-/
def step
    (verify : String → String → Option Bool)
    (s : AdminSystem)
    (uuid : HeaderText)
    (r : AdminRequest) :
    Option (AdminPhase × SessionStore) :=
  match r.phase with
  | .loadUsers =>
      match r.kind with
      | .login username _ =>
          match s.auth.users username with
          | none => some (.answered 401, s.sessions)
          | some hash => some (.verifying hash, s.sessions)
      | _ => none
  | .verifying hash =>
      match r.kind with
      | .login _ password =>
          match verify password hash with
          | some true => some (.create, s.sessions)
          | some false => some (.answered 401, s.sessions)
          | none => some (.answered 500, s.sessions)
      | _ => none
  | .create =>
      match r.kind with
      | .login username _ =>
          some
            (.reply uuid,
              s.sessions.create s.now uuid username)
      | _ => none
  | .reply _ => some (.answered 200, s.sessions)
  | .touch =>
      match sessionToken r.cookies with
      | none => some (.answered 401, s.sessions)
      | some token =>
          match s.sessions.touch s.now token with
          | (none, sessions) => some (.answered 401, sessions)
          | (some user, sessions) =>
              match r.kind with
              | .session => some (.passed user, sessions)
              | .logout => some (.passed user, sessions)
              | .admin => some (.loadConfig user, sessions)
              | .role => some (.loadConfig user, sessions)
              | .login _ _ => none
  | .loadConfig user =>
      -- A user who is gone counts as an operator.
      let role := (roleOf s.config user).getD .operator
      match r.kind with
      | .admin =>
          if role = .admin then
            some (.passed user, s.sessions)
          else
            some (.answered 403, s.sessions)
      | _ => some (.resolved user role, s.sessions)
  | .passed _ =>
      match r.kind with
      | .logout =>
          match sessionToken r.cookies with
          | none => some (.answered 204, s.sessions)
          | some token =>
              some (.answered 204, s.sessions.revoke token)
      | _ => none
  | .resolved _ _ => none
  | .answered _ => none

end AdminRequest

namespace AdminSystem

def step
    (verify : String → String → Option Bool)
    (s : AdminSystem) : AdminLabel → Option AdminSystem
| .arrive kind cookies =>
    some
      { s with
        requests := s.requests ++ [.begin kind cookies] }
| .request i uuid =>
    match s.requests[i]? with
    | none => none
    | some r =>
        match r.step verify s uuid with
        | none => none
        | some (phase, sessions) =>
            some
              { s with
                sessions := sessions
                requests :=
                  s.requests.set i { r with phase := phase } }
| .change cfg =>
    some
      { s with
        changes :=
          s.changes ++ [{ cfg := cfg, phase := .reloadUsers }] }
| .store i =>
    match s.changes[i]? with
    | none => none
    | some c =>
        match c.phase with
        | .reloadUsers =>
            some
              { s with
                auth := { s.auth with users := userMap c.cfg }
                changes :=
                  s.changes.set i
                    { c with phase := .storeConfig } }
        | .storeConfig =>
            some
              { s with
                config := c.cfg
                changes :=
                  s.changes.set i { c with phase := .done } }
        | .done => none
| .tick elapsed => some { s with now := s.now + elapsed }

/- A server that has just started. -/
def start
    (cfg : Config)
    (ttl : Nat) : AdminSystem where
  now := 0
  sessions := .new ttl
  auth := .new cfg
  config := cfg
  requests := []
  changes := []

end AdminSystem

def adminMachine
    (verify : String → String → Option Bool)
    (cfg : Config)
    (ttl : Nat) :
    Library.Machine AdminSystem AdminLabel where
  init := fun s => s = .start cfg ttl
  step := AdminSystem.step verify

end RustyIce

------------------------------------------------------------
-- The Property
------------------------------------------------------------

namespace RustyIce

/-
  Who passes a middleware is in the running configuration at
  that time, as an administrator for `require_admin`, and
  `session_role` answers for nobody else.
-/
structure AccessLost
    (verify : String → String → Option Bool)
    (s : AdminSystem) : Prop where
  passes :
    ∀ i uuid t r user,
      s.step verify (.request i uuid) = some t →
        t.requests[i]? = some r →
          r.phase = .passed user →
            ListsUser s.config user ∧
              (r.kind = .admin →
                roleOf s.config user = some .admin)
  role :
    ∀ i uuid t r user,
      s.requests[i]? = some r →
        r.phase = .loadConfig user →
          s.step verify (.request i uuid) = some t →
            ListsUser s.config user

namespace AdminSystem

/-
  `cfg` lists every user with a session that has not expired,
  and everyone whose role is being looked up.
-/
structure Keeps
    (s : AdminSystem)
    (cfg : Config) : Prop where
  sessions :
    ∀ entry ∈ s.sessions.entries,
      s.now ≤ entry.expiresAt → ListsUser cfg entry.user
  lookups :
    ∀ r ∈ s.requests,
      ∀ user ∈ r.phase.reading, ListsUser cfg user

instance
    (s : AdminSystem)
    (cfg : Config) :
    Decidable (s.Keeps cfg) :=
  decidable_of_iff
    ((∀ entry ∈ s.sessions.entries,
        s.now ≤ entry.expiresAt → ListsUser cfg entry.user) ∧
      ∀ r ∈ s.requests,
        ∀ user ∈ r.phase.reading, ListsUser cfg user)
    ⟨fun h => ⟨h.1, h.2⟩, fun h => ⟨h.sessions, h.lookups⟩⟩

end AdminSystem

/-
  A configuration that becomes the running one keeps whoever
  has a session, and a session is given only to a user of the
  running one.
-/
def AccessOk (s : AdminSystem) : AdminLabel → Prop
| .store i =>
    ∀ c ∈ s.changes[i]?,
      c.phase = .storeConfig → s.Keeps c.cfg
| .request i _ =>
    ∀ r ∈ s.requests[i]?,
      ∀ username ∈ r.creating, ListsUser s.config username
| .arrive _ _ => True
| .change _ => True
| .tick _ => True

instance
    (s : AdminSystem)
    (label : AdminLabel) :
    Decidable (AccessOk s label) :=
  match label with
  | .store i =>
      inferInstanceAs
        (Decidable
          (∀ c ∈ s.changes[i]?,
            c.phase = .storeConfig → s.Keeps c.cfg))
  | .request i _ =>
      inferInstanceAs
        (Decidable
          (∀ r ∈ s.requests[i]?,
            ∀ username ∈ r.creating,
              ListsUser s.config username))
  | .arrive _ _ => inferInstanceAs (Decidable True)
  | .change _ => inferInstanceAs (Decidable True)
  | .tick _ => inferInstanceAs (Decidable True)

end RustyIce

------------------------------------------------------------
-- Sessions Of Listed Users
------------------------------------------------------------

namespace RustyIce

variable {cfg : Config}
variable {store : SessionStore}
variable {now : Nat}

/- Every session that has not expired is a listed user's. -/
def SessionStore.Listed
    (store : SessionStore)
    (now : Nat)
    (cfg : Config) : Prop :=
  ∀ entry ∈ store.entries,
    now ≤ entry.expiresAt → ListsUser cfg entry.user

theorem listed_revoke
    (hListed : store.Listed now cfg)
    (token : HeaderText) :
    (store.revoke token).Listed now cfg := by
  intro entry hEntry
  exact hListed entry (List.mem_filter.mp hEntry).1

theorem listed_insert
    (hListed : store.Listed now cfg)
    {entry : SessionEntry}
    (hUser : ListsUser cfg entry.user) :
    (store.insert entry).Listed now cfg := by
  intro other hOther hAlive
  rcases List.mem_append.mp hOther with hOld | hNew
  · exact listed_revoke hListed entry.token other hOld hAlive
  · rw [List.mem_singleton.mp hNew]
    exact hUser

/- A touch hands out a listed user, and keeps it so. -/
theorem listed_touch
    (hListed : store.Listed now cfg)
    (token : HeaderText) :
    (store.touch now token).2.Listed now cfg ∧
      ∀ user ∈ (store.touch now token).1,
        ListsUser cfg user := by
  unfold SessionStore.touch
  split
  · refine ⟨hListed, ?_⟩
    intro user hUser
    cases hUser
  · rename_i entry hFind
    have hEntry := List.mem_of_find?_eq_some hFind
    split
    · refine ⟨listed_revoke hListed token, ?_⟩
      intro user hUser
      cases hUser
    · rename_i hAlive
      have hLists := hListed entry hEntry (by omega)
      refine ⟨listed_insert hListed hLists, ?_⟩
      intro user hUser
      cases hUser
      exact hLists

end RustyIce

------------------------------------------------------------
-- Steps
------------------------------------------------------------

namespace RustyIce

variable {verify : String → String → Option Bool}
variable {s t : AdminSystem}

/-
  `require_admin` passes administrators of the running
  configuration only, whatever happened before.
-/
theorem AdminRequest.admin_of_step
    {r : AdminRequest}
    {uuid : HeaderText}
    {user : String}
    {sessions : SessionStore}
    (hKind : r.kind = .admin)
    (hStep :
      r.step verify s uuid = some (.passed user, sessions)) :
    roleOf s.config user = some .admin := by
  unfold step at hStep
  rw [hKind] at hStep
  cases hPhase : r.phase with
  | loadConfig other =>
      rw [hPhase] at hStep
      simp only at hStep
      split at hStep
      · rename_i hRole
        cases hStep
        cases hLookup : roleOf s.config user with
        | none =>
            rw [hLookup] at hRole
            cases hRole
        | some role =>
            rw [hLookup] at hRole
            exact congrArg some hRole
      · cases hStep
  | touch =>
      rw [hPhase] at hStep
      simp only at hStep
      split at hStep
      · cases hStep
      · split at hStep <;> cases hStep
  | _ =>
      rw [hPhase] at hStep
      cases hStep

/- What a step of a request leaves. -/
theorem AdminRequest.listed_of_step
    {r : AdminRequest}
    {uuid : HeaderText}
    {phase : AdminPhase}
    {sessions : SessionStore}
    (hListed : s.sessions.Listed s.now s.config)
    (hReading :
      ∀ user ∈ r.phase.reading, ListsUser s.config user)
    (hStep : r.step verify s uuid = some (phase, sessions)) :
    ((∀ username password,
          r.phase = .create →
            r.kind = .login username password →
              ListsUser s.config username) →
        sessions.Listed s.now s.config) ∧
      (∀ user ∈ phase.reading, ListsUser s.config user) ∧
        ∀ user,
          phase = .passed user → ListsUser s.config user := by
  unfold step at hStep
  cases hPhase : r.phase with
  | create =>
      rw [hPhase] at hStep
      simp only at hStep
      split at hStep
      · rename_i username password hKind
        cases hStep
        refine ⟨?_, by simp [AdminPhase.reading], by simp⟩
        intro hCreate
        exact
          listed_insert hListed
            (hCreate username password rfl hKind)
      · cases hStep
  | touch =>
      rw [hPhase] at hStep
      simp only at hStep
      split at hStep
      · cases hStep
        exact
          ⟨fun _ => hListed, by simp [AdminPhase.reading], by simp⟩
      · rename_i token hToken
        have hTouch := listed_touch hListed token
        split at hStep
        · rename_i hNone
          rw [hNone] at hTouch
          cases hStep
          exact
            ⟨fun _ => hTouch.1, by simp [AdminPhase.reading], by simp⟩
        · rename_i user after hSome
          rw [hSome] at hTouch
          have hUser := hTouch.2 user rfl
          split at hStep <;> cases hStep
          · refine
              ⟨fun _ => hTouch.1, by simp [AdminPhase.reading], ?_⟩
            rintro other hOther
            cases hOther
            exact hUser
          · refine
              ⟨fun _ => hTouch.1, by simp [AdminPhase.reading], ?_⟩
            rintro other hOther
            cases hOther
            exact hUser
          · refine ⟨fun _ => hTouch.1, ?_, by simp⟩
            intro other hOther
            cases hOther
            exact hUser
          · refine ⟨fun _ => hTouch.1, ?_, by simp⟩
            intro other hOther
            cases hOther
            exact hUser
  | loadConfig user =>
      rw [hPhase] at hStep hReading
      have hUser := hReading user rfl
      simp only at hStep
      split at hStep
      · split at hStep <;> cases hStep
        · refine ⟨fun _ => hListed, by simp [AdminPhase.reading], ?_⟩
          rintro other hOther
          cases hOther
          exact hUser
        · exact
            ⟨fun _ => hListed, by simp [AdminPhase.reading], by simp⟩
      · cases hStep
        exact
          ⟨fun _ => hListed, by simp [AdminPhase.reading], by simp⟩
  | passed user =>
      rw [hPhase] at hStep
      simp only at hStep
      split at hStep
      · split at hStep <;> cases hStep
        · exact
            ⟨fun _ => hListed, by simp [AdminPhase.reading], by simp⟩
        · exact
            ⟨fun _ => listed_revoke hListed _,
              by simp [AdminPhase.reading], by simp⟩
      · cases hStep
  | loadUsers =>
      rw [hPhase] at hStep
      simp only at hStep
      split at hStep
      · split at hStep <;> cases hStep <;>
          exact
            ⟨fun _ => hListed, by simp [AdminPhase.reading], by simp⟩
      · cases hStep
  | verifying hash =>
      rw [hPhase] at hStep
      simp only at hStep
      split at hStep
      · split at hStep <;> cases hStep <;>
          exact
            ⟨fun _ => hListed, by simp [AdminPhase.reading], by simp⟩
      · cases hStep
  | reply token =>
      rw [hPhase] at hStep
      cases hStep
      exact ⟨fun _ => hListed, by simp [AdminPhase.reading], by simp⟩
  | resolved user role =>
      rw [hPhase] at hStep
      cases hStep
  | answered status =>
      rw [hPhase] at hStep
      cases hStep

end RustyIce

------------------------------------------------------------
-- Removed Users
------------------------------------------------------------

namespace RustyIce

variable {verify : String → String → Option Bool}
variable {s t : AdminSystem}

theorem keeps_step
    {label : AdminLabel}
    (hKeeps : s.Keeps s.config)
    (hOk : AccessOk s label)
    (hStep : s.step verify label = some t) :
    t.Keeps t.config := by
  cases label with
  | arrive kind cookies =>
      cases hStep
      refine ⟨hKeeps.sessions, ?_⟩
      intro r hMem
      rcases List.mem_append.mp hMem with hOld | hNew
      · exact hKeeps.lookups r hOld
      · rw [List.mem_singleton.mp hNew]
        intro user hUser
        cases kind <;> cases hUser
  | request i uuid =>
      simp only [AdminSystem.step] at hStep
      split at hStep
      · cases hStep
      · rename_i r hSome
        split at hStep
        · cases hStep
        · rename_i phase sessions hMove
          cases hStep
          rcases
              r.listed_of_step hKeeps.sessions
                (hKeeps.lookups r (List.mem_of_getElem? hSome))
                hMove with
            ⟨hListed, hReading, _⟩
          constructor
          · apply hListed
            intro username password hPhase hKind
            apply hOk r hSome username
            simp [AdminRequest.creating, hPhase, hKind]
          · intro other hMem
            rcases List.mem_or_eq_of_mem_set hMem with
              hOld | hNow
            · exact hKeeps.lookups other hOld
            · rw [hNow]
              exact hReading
  | change cfg =>
      cases hStep
      exact ⟨hKeeps.sessions, hKeeps.lookups⟩
  | store i =>
      simp only [AdminSystem.step] at hStep
      split at hStep
      · cases hStep
      · rename_i c hSome
        split at hStep
        · cases hStep
          exact ⟨hKeeps.sessions, hKeeps.lookups⟩
        · rename_i hPhase
          cases hStep
          have hNext := hOk c hSome hPhase
          exact ⟨hNext.sessions, hNext.lookups⟩
        · cases hStep
  | tick elapsed =>
      cases hStep
      refine ⟨?_, hKeeps.lookups⟩
      intro entry hEntry hAlive
      apply hKeeps.sessions entry hEntry
      simp only at hAlive
      omega

/-
  In every run in which a running configuration is replaced
  only by one that keeps whoever has a session, removed users
  have lost access.
-/
theorem access_lost
    {cfg : Config}
    {ttl : Nat}
    (hReach :
      (adminMachine verify cfg ttl).ReachableUnder AccessOk s) :
    AccessLost verify s := by
  have hKeeps : s.Keeps s.config := by
    apply hReach.invariant
    · rintro u rfl
      constructor
      · intro entry hEntry
        cases hEntry
      · intro r hMem
        cases hMem
    · intro u label v hBefore hLabel hStep
      exact keeps_step hBefore hLabel hStep
  constructor
  · intro i uuid t r user hStep hNow hPhase
    simp only [AdminSystem.step] at hStep
    split at hStep
    · cases hStep
    · rename_i before hSome
      have hLess := (List.getElem?_eq_some_iff.mp hSome).1
      split at hStep
      · cases hStep
      · rename_i phase sessions hMove
        cases hStep
        rw [List.getElem?_set_self hLess] at hNow
        cases hNow
        simp only at hPhase
        subst hPhase
        rcases
            before.listed_of_step hKeeps.sessions
              (hKeeps.lookups before
                (List.mem_of_getElem? hSome))
              hMove with
          ⟨_, _, hPassed⟩
        refine ⟨hPassed user rfl, fun hKind => ?_⟩
        exact before.admin_of_step hKind hMove
  · intro i uuid t r user hSome hPhase hStep
    apply hKeeps.lookups r (List.mem_of_getElem? hSome)
    rw [hPhase]
    rfl

/- One operator, and the same server without them. -/
def operatorConfig : Config :=
  { Config.bare with
    auth :=
      { Config.bare.auth with
        users :=
          [{ username := "alice"
             passwordBcrypt := "hash"
             role := .operator }] } }

/- A login, and then a request with its cookie. -/
def loginThen (between : List AdminLabel) : List AdminLabel :=
  .arrive (.login "alice" "secret") none ::
    List.replicate 4 (.request 0 ['t']) ++
      between ++
        [.arrive .session (some (cookieName ++ ['=', 't']))]

theorem access_lost_loggedIn :
    ∃ s,
      (adminMachine (fun _ _ => some true) operatorConfig
            60).runUnder AccessOk (.start operatorConfig 60)
          (loginThen []) =
        some s ∧
        AccessLost (fun _ _ => some true) s := by
  have hRun :
      (adminMachine (fun _ _ => some true) operatorConfig
            60).runUnder AccessOk (.start operatorConfig 60)
          (loginThen []) =
        some _ :=
    rfl
  have hReach :=
    Library.Machine.reachableUnder_of_runUnder
      (rfl :
        (adminMachine (fun _ _ => some true) operatorConfig
            60).init (.start operatorConfig 60))
      hRun
  exact ⟨_, hRun, access_lost hReach⟩

/- The user is removed, and the cookie still passes. -/
theorem removedUser_passes :
    ∃ s,
      (adminMachine (fun _ _ => some true) operatorConfig
            60).run (.start operatorConfig 60)
          (loginThen [.change .bare, .store 0, .store 0]) =
        some s ∧
        ¬ AccessLost (fun _ _ => some true) s := by
  refine ⟨_, rfl, ?_⟩
  intro hLost
  have hLists :=
    (hLost.passes 1 [] _ _ "alice" rfl rfl rfl).1
  revert hLists
  decide

end RustyIce
