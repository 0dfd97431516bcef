import RustyIce.Admin.Sessions
import RustyIce.Library.Lease

/-
  Sessions over a whole run: a token lets a user in as long
  as it was handed out to a login of that user, was not given
  up since, and was never left unused for longer than the
  store's time; and the password of that login was checked.

  Main declarations:
    * `SessionEvent`, `SessionStore.record`
    * `AdminSystem.history`
    * `SessionStore.Agrees`
    * `let_in_iff`
    * `granted_verified`
-/

------------------------------------------------------------
-- What Happens To A Session
------------------------------------------------------------

namespace RustyIce

/- A token, and what happened to it. -/
abbrev SessionEvent :=
  HeaderText × Library.LeaseEvent String

/- The events of one token. -/
def eventsOf
    (token : HeaderText)
    (events : List SessionEvent) :
    List (Library.LeaseEvent String) :=
  events.filterMap fun event =>
    if event.1 = token then some event.2 else none

namespace SessionStore

/- What an event does to the store. -/
def record
    (store : SessionStore) : SessionEvent → SessionStore
| (token, .grant time user) => store.create time token user
| (token, .use time) => (store.touch time token).2
| (token, .revoke) => store.revoke token

end SessionStore

/-
  The access a request makes to the store: a login that is
  about to answer, a middleware, a logout.
-/
def AdminRequest.event
    (now : Nat)
    (uuid : HeaderText)
    (r : AdminRequest) : Option SessionEvent :=
  match r.phase, r.kind with
  | .create, .login username _ =>
      some (uuid, .grant now username)
  | .touch, _ =>
      (sessionToken r.cookies).map fun token =>
        (token, .use now)
  | .passed _, .logout =>
      (sessionToken r.cookies).map fun token =>
        (token, .revoke)
  | _, _ => none

namespace AdminSystem

def events
    (s : AdminSystem) : AdminLabel → List SessionEvent
| .request i uuid =>
    match s.requests[i]? with
    | none => []
    | some r => (r.event s.now uuid).toList
| _ => []

/- The events of a run, in order. -/
def history
    (verify : String → String → Option Bool) :
    AdminSystem → List AdminLabel → List SessionEvent
| _, [] => []
| s, label :: labels =>
    s.events label ++
      match s.step verify label with
      | none => []
      | some t => t.history verify labels

end AdminSystem

end RustyIce

------------------------------------------------------------
-- The Store And The Leases
------------------------------------------------------------

namespace RustyIce

namespace SessionStore

variable {store : SessionStore}
variable {token other : HeaderText}

/- The entry of a token is its lease, with the expiry. -/
def Agrees
    (store : SessionStore)
    (token : HeaderText)
    (lease : Option (Library.Lease String)) : Prop :=
  store.entries.find? (·.token = token) =
    lease.map fun lease =>
      { token := token
        user := lease.holder
        expiresAt := lease.last + store.ttl }

theorem find?_revoke_self
    (store : SessionStore)
    (token : HeaderText) :
    (store.revoke token).entries.find? (·.token = token) =
      none := by
  rw [List.find?_eq_none]
  intro entry hMem
  have hOther := (List.mem_filter.mp hMem).2
  simpa using hOther

theorem find?_revoke_other
    (hOther : other ≠ token) :
    (store.revoke other).entries.find? (·.token = token) =
      store.entries.find? (·.token = token) := by
  unfold revoke
  rw [List.find?_filter]
  congr 1
  funext entry
  by_cases hToken : entry.token = token
  · simp [hToken, Ne.symm hOther]
  · simp [hToken]

theorem find?_insert_self
    (store : SessionStore)
    (entry : SessionEntry) :
    (store.insert entry).entries.find?
        (·.token = entry.token) =
      some entry := by
  unfold insert
  rw [List.find?_append, find?_revoke_self]
  simp

theorem find?_insert_other
    {entry : SessionEntry}
    (hOther : entry.token ≠ token) :
    (store.insert entry).entries.find? (·.token = token) =
      store.entries.find? (·.token = token) := by
  unfold insert
  rw [List.find?_append, find?_revoke_other hOther]
  simp [hOther]

theorem touch_ttl
    (store : SessionStore)
    (now : Nat)
    (token : HeaderText) :
    (store.touch now token).2.ttl = store.ttl := by
  unfold touch
  split
  · rfl
  · split <;> rfl

@[simp] theorem record_ttl
    (store : SessionStore)
    (event : SessionEvent) :
    (store.record event).ttl = store.ttl := by
  rcases event with ⟨token, ⟨time, user⟩ | time | -⟩
  · rfl
  · exact touch_ttl store time token
  · rfl

/- A touch of one token leaves the others alone. -/
theorem find?_touch_other
    (hOther : other ≠ token)
    (now : Nat) :
    (store.touch now other).2.entries.find?
        (·.token = token) =
      store.entries.find? (·.token = token) := by
  unfold touch
  split
  · rfl
  · rename_i entry hFind
    have hEntry : entry.token = other := by
      simpa using List.find?_some hFind
    split
    · exact find?_revoke_other hOther
    · apply find?_insert_other
      rw [hEntry]
      exact hOther

/- A touch is a use of the lease, and tells its holder. -/
theorem agrees_touch
    {lease : Option (Library.Lease String)}
    (hAgrees : store.Agrees token lease)
    (now : Nat) :
    (store.touch now token).2.Agrees token
        (Library.Lease.next store.ttl lease (.use now)) ∧
      (store.touch now token).1 =
        (Library.Lease.next store.ttl lease (.use now)).map
          Library.Lease.holder := by
  unfold Agrees at hAgrees ⊢
  rw [touch_ttl]
  cases lease with
  | none =>
      unfold touch
      rw [hAgrees]
      exact ⟨hAgrees, rfl⟩
  | some lease =>
      unfold touch
      rw [hAgrees]
      simp only [Option.map_some, Library.Lease.next]
      by_cases hLate : lease.last + store.ttl < now
      · rw [if_pos hLate, if_pos hLate]
        exact ⟨find?_revoke_self store token, rfl⟩
      · rw [if_neg hLate, if_neg hLate]
        exact
          ⟨find?_insert_self store
              { token := token
                user := lease.holder
                expiresAt := now + store.ttl },
            rfl⟩

/- An event moves the lease of its token, and no other. -/
theorem agrees_record
    {lease : Option (Library.Lease String)}
    (hAgrees : store.Agrees token lease)
    (event : SessionEvent) :
    (store.record event).Agrees token
      ((eventsOf token [event]).foldl
        (Library.Lease.next store.ttl) lease) := by
  rcases event with ⟨other, event⟩
  by_cases hToken : other = token
  · subst hToken
    have hOne : eventsOf other [(other, event)] = [event] := by
      simp [eventsOf]
    rw [hOne, List.foldl_cons, List.foldl_nil]
    cases event with
    | grant time user =>
        exact
          find?_insert_self store
            { token := other
              user := user
              expiresAt := time + store.ttl }
    | use time => exact (agrees_touch hAgrees time).1
    | revoke => exact find?_revoke_self store other
  · have hNone : eventsOf token [(other, event)] = [] := by
      simp [eventsOf, hToken]
    rw [hNone, List.foldl_nil]
    unfold Agrees at hAgrees ⊢
    rw [record_ttl, ← hAgrees]
    cases event with
    | grant time user => exact find?_insert_other hToken
    | use time => exact find?_touch_other hToken time
    | revoke => exact find?_revoke_other hToken

/- The store behind some events. -/
theorem agrees_records
    (events : List SessionEvent)
    {lease : Option (Library.Lease String)}
    (hAgrees : store.Agrees token lease) :
    (events.foldl record store).ttl = store.ttl ∧
      (events.foldl record store).Agrees token
        ((eventsOf token events).foldl
          (Library.Lease.next store.ttl) lease) := by
  induction events generalizing store lease with
  | nil => exact ⟨rfl, hAgrees⟩
  | cons event events ih =>
      have hNext := ih (agrees_record hAgrees event)
      rw [record_ttl] at hNext
      refine ⟨hNext.1, ?_⟩
      have hSplit :
          eventsOf token (event :: events) =
            eventsOf token [event] ++ eventsOf token events := by
        unfold eventsOf
        rw [← List.filterMap_append, List.singleton_append]
      rw [hSplit, List.foldl_append]
      exact hNext.2

end SessionStore

end RustyIce

------------------------------------------------------------
-- Sessions Along A Run
------------------------------------------------------------

namespace RustyIce

variable {verify : String → String → Option Bool}
variable {s t : AdminSystem}

/- A request's step does to the store what it records. -/
theorem AdminRequest.sessions_of_step
    {r : AdminRequest}
    {uuid : HeaderText}
    {phase : AdminPhase}
    {sessions : SessionStore}
    (hStep : r.step verify s uuid = some (phase, sessions)) :
    sessions =
      (r.event s.now uuid).toList.foldl SessionStore.record
        s.sessions := by
  unfold step at hStep
  unfold event
  cases hPhase : r.phase with
  | create =>
      rw [hPhase] at hStep
      simp only at hStep ⊢
      split at hStep
      · rename_i hKind
        cases hStep
        simp only [hKind]
        rfl
      · cases hStep
  | touch =>
      rw [hPhase] at hStep
      simp only at hStep ⊢
      cases hToken : sessionToken r.cookies with
      | none =>
          simp only [hToken] at hStep
          cases hStep
          rfl
      | some token =>
          simp only [hToken] at hStep
          change
            sessions = (s.sessions.touch s.now token).2
          cases hTouch : s.sessions.touch s.now token with
          | mk user after =>
              rw [hTouch] at hStep
              cases user with
              | none =>
                  simp only at hStep
                  cases hStep
                  rfl
              | some user =>
                  simp only at hStep
                  split at hStep <;> cases hStep <;> rfl
  | passed user =>
      rw [hPhase] at hStep
      simp only at hStep ⊢
      split at hStep
      · rename_i hKind
        simp only [hKind]
        cases hToken : sessionToken r.cookies with
        | none =>
            simp only [hToken] at hStep
            cases hStep
            rfl
        | some token =>
            simp only [hToken] at hStep
            cases hStep
            rfl
      · cases hStep
  | loadUsers =>
      rw [hPhase] at hStep
      simp only at hStep ⊢
      split at hStep
      · split at hStep <;> cases hStep <;> rfl
      · cases hStep
  | verifying hash =>
      rw [hPhase] at hStep
      simp only at hStep ⊢
      split at hStep
      · split at hStep <;> cases hStep <;> rfl
      · cases hStep
  | loadConfig user =>
      rw [hPhase] at hStep
      simp only at hStep ⊢
      split at hStep
      · split at hStep <;> cases hStep <;> rfl
      · cases hStep
        rfl
  | reply token =>
      rw [hPhase] at hStep
      cases hStep
      rfl
  | resolved user role =>
      rw [hPhase] at hStep
      cases hStep
  | answered status =>
      rw [hPhase] at hStep
      cases hStep

/- What a request's step does to the rest of the server. -/
theorem AdminSystem.request_of_step
    {i : Nat}
    {uuid : HeaderText}
    (hStep : s.step verify (.request i uuid) = some t) :
    ∃ r phase sessions,
      s.requests[i]? = some r ∧
        r.step verify s uuid = some (phase, sessions) ∧
          t =
            { s with
              sessions := sessions
              requests :=
                s.requests.set i { r with phase := phase } } := by
  simp only [AdminSystem.step] at hStep
  split at hStep
  · cases hStep
  · rename_i r hSome
    split at hStep
    · cases hStep
    · rename_i phase sessions hMove
      cases hStep
      exact ⟨r, phase, sessions, hSome, hMove, rfl⟩

theorem sessions_of_step
    {label : AdminLabel}
    (hStep : s.step verify label = some t) :
    t.sessions =
      (s.events label).foldl SessionStore.record s.sessions := by
  cases label with
  | request i uuid =>
      rcases AdminSystem.request_of_step hStep with
        ⟨r, phase, sessions, hSome, hMove, rfl⟩
      simp only [AdminSystem.events, hSome]
      exact r.sessions_of_step hMove
  | store i =>
      simp only [AdminSystem.step] at hStep
      split at hStep
      · cases hStep
      · split at hStep <;> cases hStep <;> rfl
  | arrive kind cookies =>
      cases hStep
      rfl
  | change cfg =>
      cases hStep
      rfl
  | tick elapsed =>
      cases hStep
      rfl

/- The store is what the history of the run made of it. -/
theorem sessions_of_run
    {cfg : Config}
    {ttl : Nat}
    {labels : List AdminLabel}
    (hRun : (adminMachine verify cfg ttl).run s labels = some t) :
    t.sessions =
      (s.history verify labels).foldl SessionStore.record
        s.sessions := by
  induction labels generalizing s with
  | nil =>
      cases hRun
      rfl
  | cons label labels ih =>
      unfold Library.Machine.run at hRun
      unfold AdminSystem.history
      have hMachine :
          (adminMachine verify cfg ttl).step s label =
            s.step verify label :=
        rfl
      rw [hMachine] at hRun
      cases hStep : s.step verify label with
      | none =>
          rw [hStep] at hRun
          cases hRun
      | some u =>
          rw [hStep] at hRun
          rw [List.foldl_append, ← sessions_of_step hStep]
          exact ih hRun

/- The user a request is let in as. -/
def AdminPhase.user : AdminPhase → Option String
| .passed user => some user
| .loadConfig user => some user
| _ => none

/- It gets in as whoever the touch of its token yields. -/
theorem AdminRequest.user_of_touch
    {r : AdminRequest}
    {token uuid : HeaderText}
    {phase : AdminPhase}
    {sessions : SessionStore}
    (hPhase : r.phase = .touch)
    (hToken : sessionToken r.cookies = some token)
    (hStep : r.step verify s uuid = some (phase, sessions)) :
    phase.user = (s.sessions.touch s.now token).1 := by
  unfold step at hStep
  simp only [hPhase, hToken] at hStep
  cases hTouch : s.sessions.touch s.now token with
  | mk user after =>
      rw [hTouch] at hStep
      cases user with
      | none =>
          simp only at hStep
          cases hStep
          rfl
      | some user =>
          simp only at hStep
          split at hStep <;> cases hStep <;> rfl

/-
  In every run, a request behind `require_session`,
  `require_admin` or `session_role` gets in as a user if and
  only if its token was granted to that user, and from then
  on, up to this request, it was only used, each time within
  the store's time since the time before.
-/
theorem let_in_iff
    {cfg : Config}
    {ttl i : Nat}
    {labels : List AdminLabel}
    {r : AdminRequest}
    {token : HeaderText}
    (uuid : HeaderText)
    (hRun :
      (adminMachine verify cfg ttl).run (.start cfg ttl)
          labels =
        some s)
    (hRequest : s.requests[i]? = some r)
    (hPhase : r.phase = .touch)
    (hToken : sessionToken r.cookies = some token)
    (hStep : s.step verify (.request i uuid) = some t)
    (user : String) :
    (∃ after,
        t.requests[i]? = some after ∧
          after.phase.user = some user) ↔
      ∃ before start uses,
        eventsOf token
              (AdminSystem.history verify (.start cfg ttl)
                labels) =
            before ++ .grant start user :: uses.map .use ∧
          (start :: (uses ++ [s.now])).IsChain
            (Library.Lease.Within ttl) := by
  have hEmpty : (SessionStore.new ttl).Agrees token none := rfl
  have hAgrees :=
    SessionStore.agrees_records
      (AdminSystem.history verify (.start cfg ttl) labels)
      hEmpty
  have hSessions :
      s.sessions =
        (AdminSystem.history verify (.start cfg ttl)
            labels).foldl
          SessionStore.record (.new ttl) :=
    sessions_of_run hRun
  rw [← hSessions] at hAgrees
  have hTouch :=
    (SessionStore.agrees_touch hAgrees.2 s.now).2
  rw [hAgrees.1] at hTouch
  rcases AdminSystem.request_of_step hStep with
    ⟨before, phase, sessions, hSome, hMove, rfl⟩
  cases hRequest.symm.trans hSome
  have hUser := r.user_of_touch hPhase hToken hMove
  have hIndex := (List.getElem?_eq_some_iff.mp hRequest).1
  have hGets :
      (∃ after,
          (s.requests.set i { r with phase := phase })[i]? =
              some after ∧
            after.phase.user = some user) ↔
        phase.user = some user := by
    rw [List.getElem?_set_self hIndex]
    constructor
    · rintro ⟨after, hSame, hAfter⟩
      cases hSame
      exact hAfter
    · intro hAfter
      exact ⟨_, rfl, hAfter⟩
  rw [hGets, hUser, hTouch]
  exact Library.Lease.use_iff

/- A day's session, used at its last moment. -/
theorem let_in_iff_loggedIn :
    ∃ s t after,
      (adminMachine (fun _ _ => some true) operatorConfig
            60).run (.start operatorConfig 60)
          (loginThen [.tick 60]) =
        some s ∧
        s.step (fun _ _ => some true) (.request 1 []) =
            some t ∧
          t.requests[1]? = some after ∧
            after.phase.user = some "alice" ∧
              ((∃ after,
                  t.requests[1]? = some after ∧
                    after.phase.user = some "alice") ↔
                ∃ before start uses,
                  eventsOf ['t']
                        (AdminSystem.history
                          (fun _ _ => some true)
                          (.start operatorConfig 60)
                          (loginThen [.tick 60])) =
                      before ++
                        .grant start "alice" ::
                          uses.map .use ∧
                    (start :: (uses ++ [s.now])).IsChain
                      (Library.Lease.Within 60)) :=
  ⟨_, _, _, rfl, rfl, rfl, rfl,
    let_in_iff [] rfl rfl rfl rfl rfl "alice"⟩

end RustyIce

------------------------------------------------------------
-- Where Sessions Come From
------------------------------------------------------------

namespace RustyIce

/-
  Request `i`, a login, looked its name up in the run, and
  the users listed this hash for it in that very step.
-/
def LookedUp
    (verify : String → String → Option Bool)
    (cfg : Config)
    (ttl : Nat)
    (labels : List AdminLabel)
    (i : Nat)
    (username password hash : String) : Prop :=
  ∃ front uuid v r,
    front ++ [.request i uuid] <+: labels ∧
      (adminMachine verify cfg ttl).run (.start cfg ttl) front =
          some v ∧
        v.requests[i]? = some r ∧
          r.kind = .login username password ∧
            r.phase = .loadUsers ∧
              v.auth.users username = some hash

/-
  A login on its way: the hash it compares with is the one
  it looked up, and it goes on only when the password matches.
-/
structure LoginChecked
    (verify : String → String → Option Bool)
    (cfg : Config)
    (ttl : Nat)
    (labels : List AdminLabel)
    (i : Nat)
    (r : AdminRequest) : Prop where
  verifying :
    ∀ username password hash,
      r.kind = .login username password →
        r.phase = .verifying hash →
          LookedUp verify cfg ttl labels i username password
            hash
  create :
    ∀ username password,
      r.kind = .login username password →
        r.phase = .create →
          ∃ hash,
            LookedUp verify cfg ttl labels i username password
                hash ∧
              verify password hash = some true

variable {verify : String → String → Option Bool}
variable {cfg : Config}
variable {ttl : Nat}
variable {i : Nat}
variable {s t : AdminSystem}
variable {labels more : List AdminLabel}

theorem LookedUp.mono
    {username password hash : String}
    (hSeen :
      LookedUp verify cfg ttl labels i username password hash)
    (hMore : labels <+: more) :
    LookedUp verify cfg ttl more i username password hash := by
  rcases hSeen with ⟨front, uuid, v, r, hFront, hRest⟩
  exact ⟨front, uuid, v, r, hFront.trans hMore, hRest⟩

theorem LoginChecked.mono
    {r : AdminRequest}
    (hChecked : LoginChecked verify cfg ttl labels i r)
    (hMore : labels <+: more) :
    LoginChecked verify cfg ttl more i r where
  verifying := by
    intro username password hash hKind hPhase
    exact
      (hChecked.verifying username password hash hKind
        hPhase).mono hMore
  create := by
    intro username password hKind hPhase
    rcases hChecked.create username password hKind hPhase with
      ⟨hash, hSeen, hVerified⟩
    exact ⟨hash, hSeen.mono hMore, hVerified⟩

/- A step of the login itself. -/
theorem LoginChecked.step
    {r : AdminRequest}
    {uuid : HeaderText}
    {phase : AdminPhase}
    {sessions : SessionStore}
    (hRun :
      (adminMachine verify cfg ttl).run (.start cfg ttl)
          labels =
        some s)
    (hSome : s.requests[i]? = some r)
    (hChecked : LoginChecked verify cfg ttl labels i r)
    (hStep : r.step verify s uuid = some (phase, sessions)) :
    LoginChecked verify cfg ttl
      (labels ++ [.request i uuid]) i
      { r with phase := phase } where
  verifying := by
    intro username password hash hKind hPhase
    change r.kind = _ at hKind
    change phase = _ at hPhase
    subst hPhase
    unfold AdminRequest.step at hStep
    simp only [hKind] at hStep
    cases hBefore : r.phase with
    | loadUsers =>
        rw [hBefore] at hStep
        simp only at hStep
        split at hStep
        · cases hStep
        · rename_i listed hListed
          cases hStep
          exact
            ⟨labels, uuid, s, r, List.prefix_rfl, hRun, hSome,
              hKind, hBefore, hListed⟩
    | verifying other =>
        rw [hBefore] at hStep
        simp only at hStep
        split at hStep <;> cases hStep
    | touch =>
        rw [hBefore] at hStep
        simp only at hStep
        split at hStep
        · cases hStep
        · split at hStep <;> cases hStep
    | loadConfig user =>
        rw [hBefore] at hStep
        cases hStep
    | _ =>
        rw [hBefore] at hStep
        cases hStep
  create := by
    intro username password hKind hPhase
    change r.kind = _ at hKind
    change phase = _ at hPhase
    subst hPhase
    unfold AdminRequest.step at hStep
    simp only [hKind] at hStep
    cases hBefore : r.phase with
    | verifying hash =>
        rw [hBefore] at hStep
        simp only at hStep
        split at hStep
        · rename_i hVerified
          exact
            ⟨hash,
              (hChecked.verifying username password hash hKind
                hBefore).mono (List.prefix_append _ _),
              hVerified⟩
        · cases hStep
        · cases hStep
    | loadUsers =>
        rw [hBefore] at hStep
        simp only at hStep
        split at hStep <;> cases hStep
    | touch =>
        rw [hBefore] at hStep
        simp only at hStep
        split at hStep
        · cases hStep
        · split at hStep <;> cases hStep
    | loadConfig user =>
        rw [hBefore] at hStep
        cases hStep
    | _ =>
        rw [hBefore] at hStep
        cases hStep

/- The first access of no request is behind a check. -/
theorem loginChecked_begin
    (kind : AdminRequestKind)
    (cookies : Option HeaderText) :
    LoginChecked verify cfg ttl labels i
      (.begin kind cookies) := by
  constructor
  · intro username password hash hKind hPhase
    cases kind <;> cases hPhase
  · intro username password hKind hPhase
    cases kind <;> cases hPhase

/- Every login in every run is checked. -/
theorem loginChecked_of_run
    (hRun :
      (adminMachine verify cfg ttl).run (.start cfg ttl)
          labels =
        some s) :
    ∀ (i : Nat) (r : AdminRequest),
      s.requests[i]? = some r →
        LoginChecked verify cfg ttl labels i r := by
  induction labels using List.reverseRecOn
      generalizing s with
  | nil =>
      cases hRun
      intro i r hSome
      cases hSome
  | append_singleton labels label ih =>
      rw [Library.Machine.run_append] at hRun
      rcases Option.bind_eq_some_iff.mp hRun with
        ⟨u, hFront, hLast⟩
      rw [Library.Machine.run_singleton] at hLast
      have hMore : labels <+: labels ++ [label] :=
        List.prefix_append _ _
      have hBefore
          (k : Nat)
          (r : AdminRequest)
          (hSome : u.requests[k]? = some r) :
          LoginChecked verify cfg ttl (labels ++ [label]) k r :=
        (ih hFront k r hSome).mono hMore
      change u.step verify label = some s at hLast
      cases label with
      | request i uuid =>
          rcases AdminSystem.request_of_step hLast with
            ⟨r, phase, sessions, hSome, hMove, rfl⟩
          intro k other hOther
          by_cases hHere : i = k
          · subst hHere
            have hIndex := (List.getElem?_eq_some_iff.mp hSome).1
            cases (List.getElem?_set_self hIndex).symm.trans
              hOther
            exact (ih hFront i r hSome).step hFront hSome hMove
          · exact
              hBefore k other
                ((List.getElem?_set_ne hHere).symm.trans hOther)
      | arrive kind cookies =>
          cases hLast
          intro k r hSome
          rcases Nat.lt_trichotomy k u.requests.length with
            hOld | hNew | hNone
          · exact
              hBefore k r
                ((List.getElem?_append_left hOld).symm.trans
                  hSome)
          · subst hNew
            cases List.getElem?_concat_length.symm.trans hSome
            exact loginChecked_begin kind cookies
          · have hBound := (List.getElem?_eq_some_iff.mp hSome).1
            rw [List.length_append, List.length_singleton]
              at hBound
            omega
      | store i =>
          simp only [AdminSystem.step] at hLast
          split at hLast
          · cases hLast
          · split at hLast
            · cases hLast
              exact hBefore
            · cases hLast
              exact hBefore
            · cases hLast
      | change next =>
          cases hLast
          exact hBefore
      | tick elapsed =>
          cases hLast
          exact hBefore

/- An event of a run is one of some step of it. -/
theorem mem_history
    (cfg : Config)
    (ttl : Nat)
    {event : SessionEvent}
    (hMem : event ∈ s.history verify labels) :
    ∃ front label back u,
      labels = front ++ label :: back ∧
        (adminMachine verify cfg ttl).run s front = some u ∧
          event ∈ u.events label := by
  induction labels generalizing s with
  | nil => cases hMem
  | cons label labels ih =>
      unfold AdminSystem.history at hMem
      rcases List.mem_append.mp hMem with hHere | hLater
      · exact ⟨[], label, labels, s, rfl, rfl, hHere⟩
      · cases hStep : s.step verify label with
        | none => simp [hStep] at hLater
        | some t =>
            simp only [hStep] at hLater
            rcases ih hLater with
              ⟨front, next, back, u, hSplit, hRun, hEvent⟩
            refine
              ⟨label :: front, next, back, u, ?_, ?_, hEvent⟩
            · rw [hSplit, List.cons_append]
            · unfold Library.Machine.run
              have hMachine :
                  (adminMachine verify cfg ttl).step s label =
                    some t :=
                hStep
              rw [hMachine]
              exact hRun

/- Only a login that is about to answer grants. -/
theorem AdminRequest.login_of_grant
    {r : AdminRequest}
    {now time : Nat}
    {uuid token : HeaderText}
    {user : String}
    (hEvent : r.event now uuid = some (token, .grant time user)) :
    token = uuid ∧ time = now ∧ r.phase = .create ∧
      ∃ password, r.kind = .login user password := by
  unfold event at hEvent
  split at hEvent
  · rename_i username password hPhase hKind
    cases hEvent
    exact ⟨rfl, rfl, hPhase, password, hKind⟩
  · rcases Option.map_eq_some_iff.mp hEvent with
      ⟨other, -, hNever⟩
    cases hNever
  · rcases Option.map_eq_some_iff.mp hEvent with
      ⟨other, -, hNever⟩
    cases hNever
  · cases hEvent

/-
  A token is granted to a user only by a login with a
  password that was found to match the hash the users listed
  for that name when this login looked it up.
-/
theorem granted_verified
    {token : HeaderText}
    {time : Nat}
    {user : String}
    (hGranted :
      (token, .grant time user) ∈
        AdminSystem.history verify (.start cfg ttl) labels) :
    ∃ front back i u r password hash,
      labels = front ++ .request i token :: back ∧
        (adminMachine verify cfg ttl).run (.start cfg ttl)
              front =
            some u ∧
          u.now = time ∧
            u.requests[i]? = some r ∧
              r.kind = .login user password ∧
                verify password hash = some true ∧
                  LookedUp verify cfg ttl front i user password
                    hash := by
  rcases mem_history cfg ttl hGranted with
    ⟨front, label, back, u, hSplit, hRun, hEvent⟩
  cases label with
  | request i uuid =>
      simp only [AdminSystem.events] at hEvent
      cases hSome : u.requests[i]? with
      | none => simp [hSome] at hEvent
      | some r =>
          simp only [hSome, Option.mem_toList] at hEvent
          rcases r.login_of_grant hEvent with
            ⟨rfl, hTime, hPhase, password, hKind⟩
          have hChecked := loginChecked_of_run hRun i r hSome
          rcases hChecked.create user password hKind hPhase
            with ⟨hash, hSeen, hVerified⟩
          exact
            ⟨front, back, i, u, r, password, hash, hSplit,
              hRun, hTime.symm, hSome, hKind, hVerified,
              hSeen⟩
  | arrive kind cookies => cases hEvent
  | change next => cases hEvent
  | store i => cases hEvent
  | tick elapsed => cases hEvent

theorem granted_verified_loggedIn :
    (['t'], .grant 0 "alice") ∈
        AdminSystem.history (fun _ _ => some true)
          (.start operatorConfig 60) (loginThen []) ∧
      ∃ front back i u r password hash,
        loginThen [] = front ++ .request i ['t'] :: back ∧
          (adminMachine (fun _ _ => some true) operatorConfig
                60).run (.start operatorConfig 60) front =
              some u ∧
            u.now = 0 ∧
              u.requests[i]? = some r ∧
                r.kind = .login "alice" password ∧
                  (fun _ _ => some true) password hash =
                      some true ∧
                    LookedUp (fun _ _ => some true)
                      operatorConfig 60 front i "alice" password
                      hash := by
  have hGranted :
      (['t'], .grant 0 "alice") ∈
        AdminSystem.history (fun _ _ => some true)
          (.start operatorConfig 60) (loginThen []) := by
    change _ ∈ [(['t'], Library.LeaseEvent.grant 0 "alice")]
    exact List.mem_singleton.mpr rfl
  exact ⟨hGranted, granted_verified hGranted⟩

end RustyIce
