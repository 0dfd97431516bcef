import RustyIce.Library.Machine
import RustyIce.Auth.TomlBcrypt

/-
  A reload of the credential store and a source check at the
  same time, one load or store of a cell a step.

  A check reads two of the three cells, so it may see the
  mount table of one configuration and the global password
  of the other.

  Main declarations:
    * `CredentialRace`, `credentialMachine`
    * `AllOrNothing`, `Confused`
    * `all_or_nothing_iff`
-/

------------------------------------------------------------
-- Loads And Stores
------------------------------------------------------------

namespace RustyIce

/- The stores of `reload`, in source order. -/
inductive CredentialStore where
| users
| mountPasswords
| defaultSourcePassword
deriving DecidableEq, Repr

def CredentialStore.exec
    (cfg : Config)
    (auth : TomlBcryptAuth) :
    CredentialStore → TomlBcryptAuth
| .users => { auth with users := userMap cfg }
| .mountPasswords =>
    { auth with mountPasswords := mountMap cfg }
| .defaultSourcePassword =>
    { auth with
      defaultSourcePassword := cfg.auth.sourcePassword }

def reloadStores : List CredentialStore :=
  [.users, .mountPasswords, .defaultSourcePassword]

/- Where a call of `verify_source` is. -/
inductive CheckPhase where
| loadMounts
| loadDefault
| verdict (accepted : Bool)
deriving DecidableEq, Repr

/- The next load of a check. -/
def CheckPhase.step
    (mountPath password : String)
    (auth : TomlBcryptAuth) :
    CheckPhase → Option CheckPhase
| .loadMounts =>
    match auth.mountPasswords mountPath with
    | some stored => some (.verdict (stored = password))
    | none => some .loadDefault
| .loadDefault =>
    some (.verdict (auth.verifyDefaultSource password))
| .verdict _ => none

/- A reload with stores to do, and a check. -/
structure CredentialRace where
  auth : TomlBcryptAuth
  todo : List CredentialStore
  check : CheckPhase

inductive CredentialLabel where
| store
| load
deriving DecidableEq, Repr

namespace CredentialRace

/- Neither the reload nor the check has begun. -/
def start (old : Config) : CredentialRace where
  auth := .new old
  todo := reloadStores
  check := .loadMounts

def step
    (new : Config)
    (mountPath password : String)
    (s : CredentialRace) :
    CredentialLabel → Option CredentialRace
| .store =>
    match s.todo with
    | [] => none
    | op :: rest =>
        some
          { s with
            auth := op.exec new s.auth
            todo := rest }
| .load =>
    match s.check.step mountPath password s.auth with
    | none => none
    | some next => some { s with check := next }

end CredentialRace

/- A backend that holds `old` while `new` is loaded. -/
def credentialMachine
    (old new : Config)
    (mountPath password : String) :
    Library.Machine CredentialRace CredentialLabel where
  init := fun s => s = .start old
  step := CredentialRace.step new mountPath password

/- Stored without a pause, the cells are the reloaded ones. -/
theorem reload_eq_stores
    (auth : TomlBcryptAuth)
    (cfg : Config) :
    auth.reload cfg =
      .ok
        (reloadStores.foldl
          (fun cells op => op.exec cfg cells) auth) :=
  rfl

/- Loaded without a pause, the verdict is the checked one. -/
theorem verifySource_eq_loads
    (auth : TomlBcryptAuth)
    (mountPath password : String) :
    (CheckPhase.loadMounts.step mountPath password auth =
        some
          (.verdict
            (auth.verifySource mountPath password))) ∨
      (CheckPhase.loadMounts.step mountPath password auth =
          some .loadDefault ∧
        CheckPhase.loadDefault.step mountPath password auth =
          some
            (.verdict
              (auth.verifySource mountPath password))) := by
  unfold CheckPhase.step TomlBcryptAuth.verifySource
  cases auth.mountPasswords mountPath with
  | some stored => exact .inl rfl
  | none => exact .inr ⟨rfl, rfl⟩

end RustyIce

------------------------------------------------------------
-- The Property
------------------------------------------------------------

namespace RustyIce

/- The verdict of a store built from one configuration. -/
def verdictUnder
    (cfg : Config)
    (mountPath password : String) : Bool :=
  (TomlBcryptAuth.new cfg).verifySource mountPath password

/-
  A verdict is one of the two configurations': nothing is
  accepted that both reject or rejected that both accept.
-/
structure AllOrNothing
    (old new : Config)
    (mountPath password : String)
    (accepted : Bool) : Prop where
  verdict :
    accepted = verdictUnder old mountPath password ∨
      accepted = verdictUnder new mountPath password
  accepts :
    accepted = true →
      verdictUnder old mountPath password = true ∨
        verdictUnder new mountPath password = true
  rejects :
    accepted = false →
      verdictUnder old mountPath password = false ∨
        verdictUnder new mountPath password = false

/-
  Only `listing` has the path in its mount table, and its
  global password answers neither as the path's password
  there does nor as the global password of `other`.
-/
def Confused
    (listing other : Config)
    (mountPath password : String) : Prop :=
  mountMap other mountPath = none ∧
    ∃ stored ∈ mountMap listing mountPath,
      (listing.auth.sourcePassword = some password ↔
          stored ≠ password) ∧
        (listing.auth.sourcePassword = some password ↔
          other.auth.sourcePassword ≠ some password)

theorem AllOrNothing.of_verdict
    {old new : Config}
    {mountPath password : String}
    {accepted : Bool}
    (hVerdict :
      accepted = verdictUnder old mountPath password ∨
        accepted = verdictUnder new mountPath password) :
    AllOrNothing old new mountPath password accepted where
  verdict := hVerdict
  accepts := by
    rintro rfl
    exact hVerdict.imp Eq.symm Eq.symm
  rejects := by
    rintro rfl
    exact hVerdict.imp Eq.symm Eq.symm

/- A verdict by the path's own password. -/
theorem verdictUnder_listed
    {cfg : Config}
    {mountPath stored : String}
    (hStored : mountMap cfg mountPath = some stored)
    (password : String) :
    verdictUnder cfg mountPath password =
      decide (stored = password) := by
  have hLookup :
      (TomlBcryptAuth.new cfg).mountPasswords mountPath =
        some stored := hStored
  unfold verdictUnder TomlBcryptAuth.verifySource
  rw [hLookup]

/- A verdict by the global password. -/
theorem verdictUnder_unlisted
    {cfg : Config}
    {mountPath : String}
    (hNone : mountMap cfg mountPath = none)
    (password : String) :
    verdictUnder cfg mountPath password =
      decide (cfg.auth.sourcePassword = some password) := by
  have hLookup :
      (TomlBcryptAuth.new cfg).mountPasswords mountPath =
        none := hNone
  unfold verdictUnder TomlBcryptAuth.verifySource
  rw [hLookup]
  rfl

/-
  When the mount table of `other` sends a check on to the
  global password of `listing`, confusion decides.
-/
theorem mixed_verdict_iff
    {listing other : Config}
    {mountPath password : String}
    (hNone : mountMap other mountPath = none) :
    (decide (listing.auth.sourcePassword = some password) =
          verdictUnder listing mountPath password ∨
        decide
            (listing.auth.sourcePassword = some password) =
          verdictUnder other mountPath password) ↔
      ¬ Confused listing other mountPath password := by
  rw [verdictUnder_unlisted hNone]
  cases hStored : mountMap listing mountPath with
  | none =>
      rw [verdictUnder_unlisted hStored]
      simp [Confused, hStored]
  | some stored =>
      rw [verdictUnder_listed hStored]
      simp only [Confused, hNone, hStored, Option.mem_def,
        Option.some.injEq, decide_eq_decide, true_and,
        exists_eq_left']
      by_cases hGlobal :
          listing.auth.sourcePassword = some password <;>
        by_cases hOwn : stored = password <;>
        by_cases hOther :
            other.auth.sourcePassword = some password <;>
        simp [hGlobal, hOwn, hOther]

end RustyIce

------------------------------------------------------------
-- What A Check May See
------------------------------------------------------------

namespace RustyIce

variable {old new : Config}
variable {mountPath password : String}

/-
  The verdicts there are: of one configuration, or of the
  global password of one after the mount table of the other.
-/
inductive Seen
    (old new : Config)
    (mountPath password : String) : Bool → Prop
| old :
    Seen old new mountPath password
      (verdictUnder old mountPath password)
| new :
    Seen old new mountPath password
      (verdictUnder new mountPath password)
| newThenOld :
    mountMap new mountPath = none →
      Seen old new mountPath password
        (old.auth.sourcePassword = some password)
| oldThenNew :
    mountMap old mountPath = none →
      Seen old new mountPath password
        (new.auth.sourcePassword = some password)

/-
  The cells as the stores so far left them, and what a check
  may have seen up to now.
-/
structure RaceInv
    (old new : Config)
    (mountPath password : String)
    (s : CredentialRace) : Prop where
  mounts :
    s.auth.mountPasswords = mountMap old ∨
      s.auth.mountPasswords = mountMap new
  default :
    s.auth.defaultSourcePassword = old.auth.sourcePassword ∨
      s.auth.defaultSourcePassword =
        new.auth.sourcePassword
  passed :
    s.check = .loadDefault →
      mountMap old mountPath = none ∨
        mountMap new mountPath = none
  verdict :
    ∀ accepted,
      s.check = .verdict accepted →
        Seen old new mountPath password accepted

theorem raceInv_start :
    RaceInv old new mountPath password (.start old) where
  mounts := .inl rfl
  default := .inl rfl
  passed := by
    intro hPassed
    cases hPassed
  verdict := by
    intro accepted hVerdict
    cases hVerdict

/- A load of the mount table. -/
theorem RaceInv.of_loadMounts
    {s : CredentialRace}
    {next : CheckPhase}
    (hInv : RaceInv old new mountPath password s)
    (hCheck :
      CheckPhase.loadMounts.step mountPath password s.auth =
        some next) :
    RaceInv old new mountPath password
      { s with check := next } := by
  refine ⟨hInv.mounts, hInv.default, ?_, ?_⟩
  · rintro rfl
    simp only [CheckPhase.step] at hCheck
    split at hCheck
    · cases hCheck
    · rename_i hNone
      rcases hInv.mounts with hOld | hNew
      · exact .inl (hOld ▸ hNone)
      · exact .inr (hNew ▸ hNone)
  · rintro accepted rfl
    simp only [CheckPhase.step] at hCheck
    split at hCheck
    · rename_i stored hStored
      cases hCheck
      rcases hInv.mounts with hOld | hNew
      · rw [hOld] at hStored
        rw [← verdictUnder_listed hStored]
        exact .old
      · rw [hNew] at hStored
        rw [← verdictUnder_listed hStored]
        exact .new
    · cases hCheck

/- A load of the global password. -/
theorem RaceInv.of_loadDefault
    {s : CredentialRace}
    (hInv : RaceInv old new mountPath password s)
    (hPhase : s.check = .loadDefault) :
    RaceInv old new mountPath password
      { s with
        check :=
          .verdict (s.auth.verifyDefaultSource password) } := by
  refine ⟨hInv.mounts, hInv.default, by simp, ?_⟩
  rintro accepted hVerdict
  cases hVerdict
  unfold TomlBcryptAuth.verifyDefaultSource
  rcases hInv.passed hPhase with hNone | hNone
  · rcases hInv.default with hOld | hNew
    · rw [hOld, ← verdictUnder_unlisted hNone]
      exact .old
    · rw [hNew]
      exact .oldThenNew hNone
  · rcases hInv.default with hOld | hNew
    · rw [hOld]
      exact .newThenOld hNone
    · rw [hNew, ← verdictUnder_unlisted hNone]
      exact .new

theorem raceInv_step
    {s t : CredentialRace}
    {label : CredentialLabel}
    (hInv : RaceInv old new mountPath password s)
    (hStep : s.step new mountPath password label = some t) :
    RaceInv old new mountPath password t := by
  cases label with
  | store =>
      simp only [CredentialRace.step] at hStep
      split at hStep
      · cases hStep
      · rename_i op rest hTodo
        cases hStep
        cases op with
        | users =>
            exact
              ⟨hInv.mounts, hInv.default, hInv.passed,
                hInv.verdict⟩
        | mountPasswords =>
            exact
              ⟨.inr rfl, hInv.default, hInv.passed,
                hInv.verdict⟩
        | defaultSourcePassword =>
            exact
              ⟨hInv.mounts, .inr rfl, hInv.passed,
                hInv.verdict⟩
  | load =>
      simp only [CredentialRace.step] at hStep
      split at hStep
      · cases hStep
      · rename_i next hCheck
        cases hStep
        cases hPhase : s.check with
        | loadMounts =>
            rw [hPhase] at hCheck
            exact hInv.of_loadMounts hCheck
        | loadDefault =>
            rw [hPhase] at hCheck
            cases hCheck
            exact hInv.of_loadDefault hPhase
        | verdict accepted =>
            rw [hPhase] at hCheck
            cases hCheck

theorem seen_of_reachable
    {s : CredentialRace}
    {accepted : Bool}
    (hReach :
      (credentialMachine old new mountPath
        password).Reachable s)
    (hVerdict : s.check = .verdict accepted) :
    Seen old new mountPath password accepted := by
  have hInv : RaceInv old new mountPath password s := by
    apply hReach.invariant
    · rintro t rfl
      exact raceInv_start
    · intro t label u hBefore _ hStep
      exact raceInv_step hBefore hStep
  exact hInv.verdict accepted hVerdict

end RustyIce

------------------------------------------------------------
-- All Or Nothing
------------------------------------------------------------

namespace RustyIce

variable {old new : Config}
variable {mountPath password : String}

/- The mount table of `new`, the global password of `old`. -/
theorem newThenOld_reachable
    (old : Config)
    (password : String)
    (hNone : mountMap new mountPath = none) :
    ∃ s,
      (credentialMachine old new mountPath
          password).Reachable s ∧
        s.check =
          .verdict
            (old.auth.sourcePassword = some password) := by
  let last : CredentialRace :=
    { auth :=
        { users := userMap new
          mountPasswords := mountMap new
          defaultSourcePassword := old.auth.sourcePassword }
      todo := [.defaultSourcePassword]
      check :=
        .verdict (old.auth.sourcePassword = some password) }
  have hRun :
      (credentialMachine old new mountPath password).run
          (.start old) [.store, .store, .load, .load] =
        some last := by
    simp only [Library.Machine.run, credentialMachine,
      CredentialRace.step, CredentialRace.start, reloadStores,
      CredentialStore.exec, CheckPhase.step, hNone]
    rfl
  exact ⟨last, Library.Machine.reachable_of_run rfl hRun, rfl⟩

/- The mount table of `old`, the global password of `new`. -/
theorem oldThenNew_reachable
    (new : Config)
    (password : String)
    (hNone : mountMap old mountPath = none) :
    ∃ s,
      (credentialMachine old new mountPath
          password).Reachable s ∧
        s.check =
          .verdict
            (new.auth.sourcePassword = some password) := by
  let last : CredentialRace :=
    { auth := .new new
      todo := []
      check :=
        .verdict (new.auth.sourcePassword = some password) }
  have hRun :
      (credentialMachine old new mountPath password).run
          (.start old)
          [.load, .store, .store, .store, .load] =
        some last := by
    simp only [Library.Machine.run, credentialMachine,
      CredentialRace.step, CredentialRace.start,
      TomlBcryptAuth.new, CheckPhase.step, hNone]
    rfl
  exact ⟨last, Library.Machine.reachable_of_run rfl hRun, rfl⟩

/-
  The verdict of every interleaving is one configuration's
  exactly when neither table sends a check on to a global
  password that answers differently from both.
-/
theorem all_or_nothing_iff
    (old new : Config)
    (mountPath password : String) :
    (∀ s accepted,
        (credentialMachine old new mountPath
            password).Reachable s →
          s.check = .verdict accepted →
            AllOrNothing old new mountPath password
              accepted) ↔
      ¬ Confused old new mountPath password ∧
        ¬ Confused new old mountPath password := by
  constructor
  · intro hAll
    constructor
    · intro hConfused
      have hNone := hConfused.1
      rcases newThenOld_reachable old password hNone with
        ⟨s, hReach, hVerdict⟩
      have hEither := (hAll s _ hReach hVerdict).verdict
      exact (mixed_verdict_iff hNone).mp hEither hConfused
    · intro hConfused
      have hNone := hConfused.1
      rcases oldThenNew_reachable new password hNone with
        ⟨s, hReach, hVerdict⟩
      have hEither := (hAll s _ hReach hVerdict).verdict
      exact
        (mixed_verdict_iff hNone).mp hEither.symm hConfused
  · rintro ⟨hFirst, hSecond⟩ s accepted hReach hVerdict
    apply AllOrNothing.of_verdict
    cases seen_of_reachable hReach hVerdict with
    | old => exact .inl rfl
    | new => exact .inr rfl
    | newThenOld hNone =>
        exact (mixed_verdict_iff hNone).mpr hFirst
    | oldThenNew hNone =>
        exact ((mixed_verdict_iff hNone).mpr hSecond).symm

/- The path lost its own password and the global one changed. -/
def listedConfig : Config :=
  { plainConfig with
    auth :=
      { plainConfig.auth with
        sourcePassword := some "retired" } }

def unlistedConfig : Config :=
  { plainConfig with
    mounts := []
    auth :=
      { plainConfig.auth with
        sourcePassword := some "fresh" } }

/- A password both configurations reject is accepted. -/
theorem retired_accepted :
    ∃ s,
      (credentialMachine listedConfig unlistedConfig "/radio"
          "retired").Reachable s ∧
        s.check = .verdict true ∧
          verdictUnder listedConfig "/radio" "retired" =
              false ∧
            verdictUnder unlistedConfig "/radio" "retired" =
                false ∧
              ¬ AllOrNothing listedConfig unlistedConfig
                "/radio" "retired" true := by
  have hOld :
      verdictUnder listedConfig "/radio" "retired" = false := by
    decide
  have hNew :
      verdictUnder unlistedConfig "/radio" "retired" =
        false := by
    decide
  rcases
      newThenOld_reachable listedConfig "retired"
        (rfl : mountMap unlistedConfig "/radio" = none) with
    ⟨s, hReach, hVerdict⟩
  refine ⟨s, hReach, hVerdict, hOld, hNew, ?_⟩
  intro hEither
  rcases hEither.accepts rfl with hTrue | hTrue
  · rw [hOld] at hTrue
    cases hTrue
  · rw [hNew] at hTrue
    cases hTrue

end RustyIce
