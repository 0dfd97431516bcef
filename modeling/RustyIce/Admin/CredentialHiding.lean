import RustyIce.Admin.ConfigEndpoints
import RustyIce.Library.TwoRuns

/-
  What the configuration endpoints give away: two servers
  whose configurations differ in the values of credentials
  alone answer every request in the same way, and an
  operator sees nothing of the sections of an admin.

  Main declarations:
    * `SameSecret`, `Config.StreamsAlike`, `Config.Alike`
    * `agree_prepare`
    * `answer_alike`, `run_alike`
    * `operator_shown_eq`, `credentials_hidden`
-/

------------------------------------------------------------
-- Configurations That Differ In Credentials
------------------------------------------------------------

namespace RustyIce

open ConfigPut ConfigWrite Library

/- One credential, or two that are both set. -/
def SameSecret (p q : String) : Prop :=
  p = q ∨ isBlank p = false ∧ isBlank q = false

/- `left` is `right` with a credential of its own. -/
def MountConfig.Alike
    (R : String → String → Prop)
    (left right : MountConfig) : Prop :=
  ∃ secret,
    R secret right.sourcePassword ∧
      left = { right with sourcePassword := secret }

def UserConfig.Alike
    (R : String → String → Prop)
    (left right : UserConfig) : Prop :=
  ∃ secret,
    R secret right.passwordBcrypt ∧
      left = { right with passwordBcrypt := secret }

/- Both relays have a password or none has. -/
def RelayConfig.Alike
    (R : String → String → Prop)
    (left right : RelayConfig) : Prop :=
  ∃ secret,
    Option.Rel R secret right.password ∧
      left = { right with password := secret }

/- The sections an operator may see. -/
structure Config.StreamsAlike
    (R : String → String → Prop)
    (left right : Config) : Prop where
  mounts :
    List.Forall₂ (MountConfig.Alike R) left.mounts right.mounts
  autodjs : left.autodjs = right.autodjs
  relays :
    List.Forall₂ (RelayConfig.Alike R) left.relays right.relays

/- Nothing but the values of credentials differs. -/
structure Config.Alike
    (R : String → String → Prop)
    (left right : Config) : Prop
    extends Config.StreamsAlike R left right where
  server : left.server = right.server
  logging : left.logging = right.logging
  limits : left.limits = right.limits
  tls : left.tls = right.tls
  transcode : left.transcode = right.transcode
  users :
    List.Forall₂ (UserConfig.Alike R) left.auth.users
      right.auth.users
  sourcePassword :
    Option.Rel R left.auth.sourcePassword
      right.auth.sourcePassword

/-
  How far two runs are compared: in everything, or, if
  `loose`, in the streams of runs that both succeed,
  whatever their credentials are.
-/
structure Comparison
    (loose : Prop)
    (R : String → String → Prop) : Prop where
  self : ∀ p, R p p
  checked : loose ∨ ∀ p q, R p q → SameSecret p q
  free : loose → ∀ p q, R p q

def Compared
    (loose : Prop)
    (R : String → String → Prop)
    (left right : Config) : Prop :=
  left.StreamsAlike R right ∧ (loose ∨ left.Alike R right)

theorem strict_comparison :
    Comparison False SameSecret where
  self := fun _ => .inl rfl
  checked := .inr fun _ _ hSame => hSame
  free := False.elim

theorem loose_comparison :
    Comparison True fun _ _ => True where
  self := fun _ => trivial
  checked := .inl trivial
  free := fun _ _ _ => trivial

theorem SameSecret.isBlank_eq
    {p q : String}
    (hSame : SameSecret p q) :
    isBlank p = isBlank q := by
  rcases hSame with rfl | ⟨hLeft, hRight⟩
  · rfl
  · rw [hLeft, hRight]

theorem isEmpty_of_isBlank
    {p : String}
    (hSet : isBlank p = false) :
    p.isEmpty = false := by
  cases hEmpty : p.isEmpty with
  | false => rfl
  | true =>
      rw [String.isEmpty_iff] at hEmpty
      simp [hEmpty, isBlank, trimText] at hSet

theorem SameSecret.isEmpty_eq
    {p q : String}
    (hSame : SameSecret p q) :
    p.isEmpty = q.isEmpty := by
  rcases hSame with rfl | ⟨hLeft, hRight⟩
  · rfl
  · rw [isEmpty_of_isBlank hLeft, isEmpty_of_isBlank hRight]

end RustyIce

------------------------------------------------------------
-- Resolving
------------------------------------------------------------

namespace RustyIce

open ConfigPut ConfigWrite Library

def MountSubPatchAlike
    (R : String → String → Prop)
    (left right : MountSubPatch) : Prop :=
  ∃ secret,
    R secret right.sourcePassword ∧
      left = { right with sourcePassword := secret }

def UserSubPatchAlike
    (R : String → String → Prop)
    (left right : UserSubPatch) : Prop :=
  ∃ secret,
    R secret right.passwordBcrypt ∧
      left = { right with passwordBcrypt := secret }

def RelaySubPatchAlike
    (R : String → String → Prop)
    (left right : RelaySubPatch) : Prop :=
  ∃ secret,
    Option.Rel R secret right.password ∧
      left = { right with password := secret }

/- Patches that differ in resolved credentials. -/
inductive PatchAlike
    (R : String → String → Prop) : Patch → Patch → Prop
| same (patch : Patch) : PatchAlike R patch patch
| mounts
    {mounts mounts' : List MountSubPatch}
    (hMounts :
      List.Forall₂ (MountSubPatchAlike R) mounts mounts') :
    PatchAlike R (.mounts ⟨mounts⟩) (.mounts ⟨mounts'⟩)
| users
    {users users' : List UserSubPatch}
    (hUsers :
      List.Forall₂ (UserSubPatchAlike R) users users') :
    PatchAlike R (.users ⟨users⟩) (.users ⟨users'⟩)
| relays
    {relays relays' : List RelaySubPatch}
    (hRelays :
      List.Forall₂ (RelaySubPatchAlike R) relays relays') :
    PatchAlike R (.relays ⟨relays⟩) (.relays ⟨relays'⟩)

/- One request, its passwords hashed in either run. -/
inductive RequestAlike
    (loose : Prop)
    (R : String → String → Prop) :
    PutRequest → PutRequest → Prop
| same (put : PutRequest) : RequestAlike loose R put put
| users
    {hash hash' : Nat → String → Except String String}
    (hHash :
      ∀ index plain,
        Agree loose R (hash index plain) (hash' index plain))
    (requester : String)
    (body : List UserSubBody) :
    RequestAlike loose R (.users requester hash body)
      (.users requester hash' body)

/- Maps that are collected alike are looked up alike. -/
theorem rel_collectMap
    {Entry : Type}
    {R : String → String → Prop}
    {T : Entry → Entry → Prop}
    {key value : Entry → String}
    (hKey : ∀ e f, T e f → key e = key f)
    (hValue : ∀ e f, T e f → R (value e) (value f))
    {entries entries' : List Entry}
    (hLists : List.Forall₂ T entries entries')
    (name : String) :
    Option.Rel R (collectMap key value entries name)
      (collectMap key value entries' name) := by
  apply rel_map hValue
  apply rel_find?
  · intro e f hAlike
    rw [hKey e f hAlike]
  · exact List.forall₂_reverse_iff.mpr hLists

variable
  {loose : Prop}
  {R : String → String → Prop}
  {left right : Config}

theorem agree_resolveMount
    (hMode : Comparison loose R)
    (hConfigs : Compared loose R left right)
    (entry : MountSubBody × Nat) :
    Agree loose (MountSubPatchAlike R)
      (resolveMount left entry)
      (resolveMount right entry) := by
  rcases entry with ⟨m, index⟩
  have hSent :
      Option.Rel R (supplied m.sourcePassword)
        (supplied m.sourcePassword) :=
    rel_self hMode.self _
  have hStored :
      Option.Rel R
        (collectMap MountConfig.path
          MountConfig.sourcePassword left.mounts m.path)
        (collectMap MountConfig.path
          MountConfig.sourcePassword right.mounts
          m.path) := by
    apply rel_collectMap _ _ hConfigs.1.mounts
    · rintro e f ⟨secret, _, rfl⟩
      rfl
    · rintro e f ⟨secret, hSecret, rfl⟩
      exact hSecret
  rcases hConfigs.2 with hLoose | hAlike
  · -- The global password may be set in one run alone.
    apply Agree.of_loose hLoose
    intro p q hLeft hRight
    simp only [resolveMount] at hLeft hRight
    split at hLeft
    · cases hLeft
    · split at hRight
      · cases hRight
      · cases hLeft
        cases hRight
        exact ⟨_, hMode.free hLoose _ _, rfl⟩
  · have hFound :=
      rel_orElse hSent
        (rel_orElse hStored hAlike.sourcePassword)
    simp only [resolveMount]
    rcases rel_cases hFound with
      ⟨hLeft, hRight⟩ | ⟨p, q, hLeft, hRight, hSecret⟩
    · rw [hLeft, hRight]
      exact .inr rfl
    · rw [hLeft, hRight]
      exact ⟨p, hSecret, rfl⟩

/- A password that is sent is hashed, come what may. -/
theorem resolvePassword_of_sent
    {password : Option String}
    {plain : String}
    (hSent : supplied password = some plain)
    (cfg : Config)
    (hash : Nat → String → Except String String)
    (index : Nat)
    (username : String) :
    resolvePassword cfg hash index username password =
      (hash index plain).mapError fun message =>
        refusal message none := by
  simp only [resolvePassword, hSent]
  cases hash index plain with
  | ok hashed => rfl
  | error message => rfl

theorem agree_resolvePassword
    (hMode : Comparison loose R)
    (hConfigs : Compared loose R left right)
    {hash hash' : Nat → String → Except String String}
    (hHash :
      ∀ index plain,
        Agree loose R (hash index plain) (hash' index plain))
    (index : Nat)
    (username : String)
    (password : Option String) :
    Agree loose R
      (resolvePassword left hash index username password)
      (resolvePassword right hash' index username
        password) := by
  rcases hConfigs.2 with hLoose | hAlike
  · apply Agree.of_loose hLoose
    intro p q _ _
    exact hMode.free hLoose p q
  · cases hSent : supplied password with
    | some plain =>
        rw [resolvePassword_of_sent hSent,
          resolvePassword_of_sent hSent]
        exact (hHash index plain).mapError _
    | none =>
        have hStored :
            Option.Rel R
              (collectMap UserConfig.username
                UserConfig.passwordBcrypt left.auth.users
                username)
              (collectMap UserConfig.username
                UserConfig.passwordBcrypt right.auth.users
                username) := by
          apply rel_collectMap _ _ hAlike.users
          · rintro e f ⟨secret, _, rfl⟩
            rfl
          · rintro e f ⟨secret, hSecret, rfl⟩
            exact hSecret
        simp only [resolvePassword, hSent]
        rcases rel_cases hStored with
          ⟨hLeft, hRight⟩ | ⟨p, q, hLeft, hRight, hSecret⟩
        · rw [hLeft, hRight]
          exact .inr rfl
        · rw [hLeft, hRight]
          exact hSecret

theorem agree_resolveUser
    (hMode : Comparison loose R)
    (hConfigs : Compared loose R left right)
    {hash hash' : Nat → String → Except String String}
    (hHash :
      ∀ index plain,
        Agree loose R (hash index plain) (hash' index plain))
    (entry : UserSubBody × Nat) :
    Agree loose (UserSubPatchAlike R)
      (resolveUser left hash entry)
      (resolveUser right hash' entry) := by
  cases entry with
  | mk u index =>
      cases hEmpty : (trimmed u.username).isEmpty with
      | true =>
          simp only [resolveUser, hEmpty, if_true]
          exact .inr rfl
      | false =>
          simp only [resolveUser, hEmpty, Bool.false_eq_true,
            if_false]
          apply
            (agree_resolvePassword hMode hConfigs hHash index
              _ _).bind
          intro secret secret' hSecret
          exact ⟨secret, hSecret, rfl⟩

theorem resolveRelay_alike
    (hMode : Comparison loose R)
    (hStreams : left.StreamsAlike R right)
    (r : RelaySubPatch) :
    RelaySubPatchAlike R (resolveRelay left r)
      (resolveRelay right r) := by
  have hPasswords :
      List.Forall₂
        (fun e f : String × String =>
          e.1 = f.1 ∧ R e.2 f.2)
        (left.relays.filterMap fun r =>
          r.password.map fun p => (r.mount, p))
        (right.relays.filterMap fun r =>
          r.password.map fun p => (r.mount, p)) := by
    refine List.rel_filterMap ?_ hStreams.relays
    rintro e f ⟨secret, hSecret, rfl⟩
    exact rel_map (fun p q hRel => ⟨rfl, hRel⟩) hSecret
  have hStored :
      Option.Rel R
        (collectMap Prod.fst Prod.snd
          (left.relays.filterMap fun r =>
            r.password.map fun p => (r.mount, p))
          r.mount)
        (collectMap Prod.fst Prod.snd
          (right.relays.filterMap fun r =>
            r.password.map fun p => (r.mount, p))
          r.mount) :=
    rel_collectMap (fun e f hAlike => hAlike.1)
      (fun e f hAlike => hAlike.2) hPasswords r.mount
  have hSent :
      Option.Rel R (supplied r.password)
        (supplied r.password) :=
    rel_self hMode.self _
  exact ⟨_, rel_orElse hSent hStored, rfl⟩

/- One list, with the places of its entries. -/
theorem agree_mapM_zipIdx
    {Entry First Second : Type}
    {S : First → Second → Prop}
    {f : Entry × Nat → Except PutError First}
    {g : Entry × Nat → Except PutError Second}
    (hEach : ∀ entry, Agree loose S (f entry) (g entry))
    (entries : List Entry) :
    Agree loose (List.Forall₂ S) (entries.zipIdx.mapM f)
      (entries.zipIdx.mapM g) := by
  have hLists :
      List.Forall₂ (· = ·) entries.zipIdx entries.zipIdx := by
    rw [List.forall₂_eq_eq_eq]
  apply Agree.mapM _ hLists
  rintro entry _ rfl
  exact hEach entry

theorem agree_resolveUsers
    (hMode : Comparison loose R)
    (hConfigs : Compared loose R left right)
    {hash hash' : Nat → String → Except String String}
    (hHash :
      ∀ index plain,
        Agree loose R (hash index plain) (hash' index plain))
    (requester : String)
    (body : List UserSubBody) :
    Agree loose (PatchAlike R)
      ((PutRequest.users requester hash body).resolve left)
      ((PutRequest.users requester hash' body).resolve
        right) := by
  simp only [PutRequest.resolve, resolveUsers]
  cases keepsRequester requester body with
  | false => exact .inr rfl
  | true =>
      simp only [if_true, bind_assoc, pure_bind]
      apply
        (agree_mapM_zipIdx
          (agree_resolveUser hMode hConfigs hHash) body).bind
      intro users users' hAlike
      exact .users hAlike

theorem agree_resolve
    (hMode : Comparison loose R)
    (hConfigs : Compared loose R left right)
    {put put' : PutRequest}
    (hRequest : RequestAlike loose R put put') :
    Agree loose (PatchAlike R) (put.resolve left)
      (put'.resolve right) := by
  cases hRequest with
  | users hHash requester body =>
      exact
        agree_resolveUsers hMode hConfigs hHash requester body
  | same =>
      cases put with
      | server body => exact .same _
      | transcode body => exact .same _
      | autodjs body => exact .same _
      | users requester hash body =>
          exact
            agree_resolveUsers hMode hConfigs
              (fun index plain =>
                Agree.of_self hMode.self loose _)
              requester body
      | mounts body =>
          simp only [PutRequest.resolve, resolveMounts,
            bind_assoc, pure_bind]
          apply
            (agree_mapM_zipIdx
              (agree_resolveMount hMode hConfigs) body).bind
          intro mounts mounts' hAlike
          exact .mounts hAlike
      | relays body =>
          apply PatchAlike.relays
          rw [List.forall₂_map_left_iff,
            List.forall₂_map_right_iff, List.forall₂_same]
          intro r _
          exact resolveRelay_alike hMode hConfigs.1 r

end RustyIce

------------------------------------------------------------
-- Checks
------------------------------------------------------------

namespace RustyIce

open ConfigPut ConfigWrite Library

/- A check of every entry reports the same in both runs. -/
theorem validateEach_eq
    {Entry : Type}
    {T : Entry → Entry → Prop}
    {key : Entry → String}
    {check :
      String → List String → Entry → Except WriteError Unit}
    (hKey : ∀ e f, T e f → key e = key f)
    (hCheck :
      ∀ entry seen e f, T e f →
        check entry seen e = check entry seen f)
    {entries entries' : List Entry}
    (hLists : List.Forall₂ T entries entries')
    (name : String)
    (seen : List String)
    (index : Nat) :
    validateEach name key check seen index entries =
      validateEach name key check seen index entries' := by
  induction hLists generalizing seen index with
  | nil => rfl
  | @cons e f _ _ hHead _ ih =>
      rw [validateEach, validateEach, hKey e f hHead,
        hCheck _ _ e f hHead, ih]

theorem validateRelayCredentials_eq
    {R : String → String → Prop}
    (hSame : ∀ p q, R p q → SameSecret p q)
    {password password' : Option String}
    (hPasswords : Option.Rel R password password')
    (entry : String)
    (username : Option String) :
    validateRelayCredentials entry username password =
      validateRelayCredentials entry username password' := by
  cases hPasswords with
  | none => rfl
  | some hSecret =>
      cases username with
      | none =>
          simp only [validateRelayCredentials,
            (hSame _ _ hSecret).isEmpty_eq]
      | some u => rfl

/- No check tells one set credential from another. -/
theorem validate_eq
    {R : String → String → Prop}
    (hSame : ∀ p q, R p q → SameSecret p q)
    {patch patch' : Patch}
    (hAlike : PatchAlike R patch patch') :
    patch.validate = patch'.validate := by
  cases hAlike with
  | same => rfl
  | mounts hMounts =>
      apply validateEach_eq _ _ hMounts
      · rintro e f ⟨secret, _, rfl⟩
        rfl
      · rintro entry seen e f ⟨secret, hSecret, rfl⟩
        simp only [validateMount,
          (hSame _ _ hSecret).isBlank_eq]
  | @users users users' hUsers =>
      have hEach :
          validateEach "users" UserSubPatch.username
              validateUser [] 0 users =
            validateEach "users" UserSubPatch.username
              validateUser [] 0 users' := by
        apply validateEach_eq _ _ hUsers
        · rintro e f ⟨secret, _, rfl⟩
          rfl
        · rintro entry seen e f ⟨secret, hSecret, rfl⟩
          simp only [validateUser,
            (hSame _ _ hSecret).isEmpty_eq]
      have hAdmin :
          (users.any fun u => u.role = "admin") =
            users'.any fun u => u.role = "admin" := by
        apply any_eq_of_forall₂ _ hUsers
        rintro e f ⟨secret, _, rfl⟩
        rfl
      simp only [Patch.validate, validateUsersPatch, hEach,
        hAdmin]
  | relays hRelays =>
      apply validateEach_eq _ _ hRelays
      · rintro e f ⟨secret, _, rfl⟩
        rfl
      · rintro entry seen e f ⟨secret, hSecret, rfl⟩
        simp only [validateRelay,
          validateRelayCredentials_eq hSame hSecret]

theorem agree_checkPatch
    {loose : Prop}
    {R : String → String → Prop}
    (hMode : Comparison loose R)
    {patch patch' : Patch}
    (hAlike : PatchAlike R patch patch') :
    Agree loose (· = ·) (checkPatch patch)
      (checkPatch patch') := by
  rcases hMode.checked with hLoose | hSame
  · apply Agree.of_loose hLoose
    intro _ _ _ _
    rfl
  · apply Agree.of_eq
    rw [checkPatch, checkPatch, validate_eq hSame hAlike]

theorem scanSection_eq
    {Entry : Type}
    {T : Entry → Entry → Prop}
    {path : Entry → String}
    {check : Entry → Except String Unit}
    (hPath : ∀ e f, T e f → path e = path f)
    (hCheck : ∀ e f, T e f → check e = check f)
    {entries entries' : List Entry}
    (hLists : List.Forall₂ T entries entries')
    (duplicate : String)
    (seen : List String) :
    scanSection path duplicate check seen entries =
      scanSection path duplicate check seen entries' := by
  induction hLists generalizing seen with
  | nil => rfl
  | @cons e f _ _ hHead _ ih =>
      rw [scanSection, scanSection, hPath e f hHead,
        hCheck e f hHead, ih]

/- A credential is asked to be there, not for what it is. -/
theorem checkRelay_eq
    {R : String → String → Prop}
    {r r' : RelayConfig}
    (hAlike : r.Alike R r') :
    checkRelay r = checkRelay r' := by
  rcases hAlike with ⟨secret, hSecret, rfl⟩
  simp only [checkRelay, checkRelayCredentials]
  generalize r'.password = password at hSecret ⊢
  cases hSecret with
  | none => rfl
  | some _ =>
      cases r'.username with
      | none => rfl
      | some u => rfl

theorem validatePaths_eq
    {R : String → String → Prop}
    {left right : Config}
    (hStreams : left.StreamsAlike R right) :
    left.validatePaths = right.validatePaths := by
  have hMounts
      (duplicate : String)
      (seen : List String) :
      scanSection MountConfig.path duplicate
          (fun _ => .ok ()) seen left.mounts =
        scanSection MountConfig.path duplicate
          (fun _ => .ok ()) seen right.mounts := by
    apply scanSection_eq _ _ hStreams.mounts
    · rintro e f ⟨secret, _, rfl⟩
      rfl
    · intro e f _
      rfl
  have hRelays
      (duplicate : String)
      (seen : List String) :
      scanSection RelayConfig.mount duplicate checkRelay seen
          left.relays =
        scanSection RelayConfig.mount duplicate checkRelay
          seen right.relays := by
    apply scanSection_eq _ _ hStreams.relays
    · rintro e f ⟨secret, _, rfl⟩
      rfl
    · intro e f hAlike
      exact checkRelay_eq hAlike
  simp only [Config.validatePaths, hMounts, hRelays,
    hStreams.autodjs]

theorem checkCandidate_eq
    {R : String → String → Prop}
    {patch patch' : Patch}
    (hAlike : PatchAlike R patch patch')
    {left right : Config}
    (hStreams : left.StreamsAlike R right) :
    checkCandidate patch left =
      checkCandidate patch' right := by
  have hPaths := validatePaths_eq hStreams
  have hCheck :
      patch.checkPaths left = patch'.checkPaths right := by
    cases hAlike with
    | mounts => exact hPaths
    | users => rfl
    | relays => exact hPaths
    | same =>
        cases patch with
        | users p => rfl
        | server p => exact hPaths
        | transcode p => exact hPaths
        | mounts p => exact hPaths
        | autodjs p => exact hPaths
        | relays p => exact hPaths
  rw [checkCandidate, checkCandidate, hCheck]

end RustyIce

------------------------------------------------------------
-- Candidates
------------------------------------------------------------

namespace RustyIce

open ConfigPut ConfigWrite Library

variable
  {loose : Prop}
  {R : String → String → Prop}
  {left right : Config}

theorem agree_mountConfig
    {m m' : MountSubPatch}
    (hAlike : MountSubPatchAlike R m m') :
    Agree loose (MountConfig.Alike R) (mountConfig m)
      (mountConfig m') := by
  rcases hAlike with ⟨secret, hSecret, rfl⟩
  simp only [mountConfig]
  apply (Agree.of_eq rfl).bind
  rintro transcode _ rfl
  exact ⟨secret, hSecret, rfl⟩

theorem agree_relayConfig
    {r r' : RelaySubPatch}
    (hAlike : RelaySubPatchAlike R r r') :
    Agree loose (RelayConfig.Alike R) (relayConfig r)
      (relayConfig r') := by
  rcases hAlike with ⟨secret, hSecret, rfl⟩
  simp only [relayConfig]
  apply (Agree.of_eq rfl).bind
  rintro transcode _ rfl
  exact ⟨secret, hSecret, rfl⟩

theorem agree_mountsCandidate
    (hConfigs : Compared loose R left right)
    {mounts mounts' : List MountSubPatch}
    (hMounts :
      List.Forall₂ (MountSubPatchAlike R) mounts mounts') :
    Agree loose (Compared loose R)
      (mountsCandidate left ⟨mounts⟩)
      (mountsCandidate right ⟨mounts'⟩) := by
  apply
    (Agree.mapM (fun m m' hAlike => agree_mountConfig hAlike)
      hMounts).bind
  intro result result' hResult
  exact
    ⟨{ hConfigs.1 with mounts := hResult },
      hConfigs.2.imp_right fun hAlike =>
        { hAlike with mounts := hResult }⟩

theorem agree_relaysCandidate
    (hConfigs : Compared loose R left right)
    {relays relays' : List RelaySubPatch}
    (hRelays :
      List.Forall₂ (RelaySubPatchAlike R) relays relays') :
    Agree loose (Compared loose R)
      (relaysCandidate left ⟨relays⟩)
      (relaysCandidate right ⟨relays'⟩) := by
  apply
    (Agree.mapM (fun r r' hAlike => agree_relayConfig hAlike)
      hRelays).bind
  intro result result' hResult
  exact
    ⟨{ hConfigs.1 with relays := hResult },
      hConfigs.2.imp_right fun hAlike =>
        { hAlike with relays := hResult }⟩

theorem agree_usersCandidate
    (hConfigs : Compared loose R left right)
    {users users' : List UserSubPatch}
    (hUsers :
      List.Forall₂ (UserSubPatchAlike R) users users') :
    Agree loose (Compared loose R)
      (usersCandidate left ⟨users⟩)
      (usersCandidate right ⟨users'⟩) := by
  have hResult :
      List.Forall₂ (UserConfig.Alike R)
        (users.map userConfig) (users'.map userConfig) := by
    rw [List.forall₂_map_left_iff, List.forall₂_map_right_iff]
    apply hUsers.imp
    rintro u u' ⟨secret, hSecret, rfl⟩
    exact ⟨secret, hSecret, rfl⟩
  exact
    ⟨{ hConfigs.1 with },
      hConfigs.2.imp_right fun hAlike =>
        { hAlike with users := hResult }⟩

/- A section without resolved credentials, set in both. -/
theorem agree_serverCandidate
    (hMode : Comparison loose R)
    (hConfigs : Compared loose R left right)
    (p : WritePatch) :
    Agree loose (Compared loose R) (serverCandidate left p)
      (serverCandidate right p) := by
  simp only [serverCandidate]
  apply (Agree.of_eq rfl).bind
  rintro format _ rfl
  refine
    ⟨{ hConfigs.1 with },
      hConfigs.2.imp_right fun hAlike =>
        { hAlike with
          server := rfl
          logging := rfl
          limits := rfl
          users := ?_
          sourcePassword := ?_ }⟩
  · cases p.auth with
    | none => exact hAlike.users
    | some auth => exact hAlike.users
  · cases p.auth with
    | none => exact hAlike.sourcePassword
    | some auth => exact rel_self hMode.self _

theorem agree_candidate
    (hMode : Comparison loose R)
    (hConfigs : Compared loose R left right)
    {patch patch' : Patch}
    (hAlike : PatchAlike R patch patch') :
    Agree loose (Compared loose R) (patch.candidate left)
      (patch'.candidate right) := by
  cases hAlike with
  | mounts hMounts =>
      exact agree_mountsCandidate hConfigs hMounts
  | users hUsers => exact agree_usersCandidate hConfigs hUsers
  | relays hRelays =>
      exact agree_relaysCandidate hConfigs hRelays
  | same =>
      cases patch with
      | server p => exact agree_serverCandidate hMode hConfigs p
      | mounts p =>
          apply agree_mountsCandidate hConfigs
          rw [List.forall₂_same]
          intro m _
          exact ⟨_, hMode.self _, rfl⟩
      | users p =>
          apply agree_usersCandidate hConfigs
          rw [List.forall₂_same]
          intro u _
          exact ⟨_, hMode.self _, rfl⟩
      | relays p =>
          apply agree_relaysCandidate hConfigs
          rw [List.forall₂_same]
          intro r _
          exact ⟨_, rel_self hMode.self _, rfl⟩
      | transcode p =>
          apply (Agree.of_eq rfl).bind
          rintro transcode _ rfl
          exact
            ⟨{ hConfigs.1 with },
              hConfigs.2.imp_right fun hAlike =>
                { hAlike with transcode := rfl }⟩
      | autodjs p =>
          apply (Agree.of_eq rfl).bind
          rintro autodjs _ rfl
          exact
            ⟨{ hConfigs.1 with autodjs := rfl },
              hConfigs.2.imp_right fun hAlike =>
                { hAlike with autodjs := rfl }⟩

theorem orReject_eq_mapError
    {Value : Type}
    (x : Except PutError Value) :
    orReject x = x.mapError .rejected := by
  cases x with
  | ok value => rfl
  | error e => rfl

theorem orPanic_eq_mapError
    {Value : Type}
    (x : Except String Value) :
    orPanic x = x.mapError .panicked := by
  cases x with
  | ok value => rfl
  | error message => rfl

/- Up to the file, two related runs stay related. -/
theorem agree_prepare
    (hMode : Comparison loose R)
    (hConfigs : Compared loose R left right)
    {put put' : PutRequest}
    (hRequest : RequestAlike loose R put put') :
    Agree loose
      (fun p q : Patch × Config => Compared loose R p.2 q.2)
      (put.prepare left) (put'.prepare right) := by
  simp only [PutRequest.prepare, orReject_eq_mapError,
    orPanic_eq_mapError]
  apply
    ((agree_resolve hMode hConfigs hRequest).mapError _).bind
  intro patch patch' hPatch
  apply ((agree_checkPatch hMode hPatch).mapError _).bind
  intro _ _ _
  apply
    ((agree_candidate hMode hConfigs hPatch).mapError _).bind
  intro candidate candidate' hCandidate
  apply
    ((Agree.of_eq (checkCandidate_eq hPatch
      hCandidate.1)).mapError _).bind
  intro _ _ _
  exact hCandidate

end RustyIce

------------------------------------------------------------
-- Replies
------------------------------------------------------------

namespace RustyIce

open ConfigPut ConfigWrite Library

section Responses

variable
  {R : String → String → Prop}
  {left right : Config}

theorem redacted_mounts_eq
    (hStreams : left.StreamsAlike R right) :
    (redact left).mounts = (redact right).mounts := by
  simp only [redact]
  rw [← List.forall₂_eq_eq_eq, List.forall₂_map_left_iff,
    List.forall₂_map_right_iff]
  apply hStreams.mounts.imp
  rintro m m' ⟨secret, _, rfl⟩
  rfl

theorem redacted_relays_eq
    (hStreams : left.StreamsAlike R right) :
    (redact left).relays = (redact right).relays := by
  simp only [redact]
  rw [← List.forall₂_eq_eq_eq, List.forall₂_map_left_iff,
    List.forall₂_map_right_iff]
  apply hStreams.relays.imp
  rintro r r' ⟨secret, hSecret, rfl⟩
  simp only
  generalize r'.password = password at hSecret ⊢
  cases hSecret with
  | some _ => rfl
  | none => rfl

theorem redacted_auth_eq
    (hAlike : left.Alike R right) :
    (redact left).auth = (redact right).auth := by
  have hUsers :
      (redact left).auth.users = (redact right).auth.users := by
    simp only [redact]
    rw [← List.forall₂_eq_eq_eq, List.forall₂_map_left_iff,
      List.forall₂_map_right_iff]
    apply hAlike.users.imp
    rintro u u' ⟨secret, _, rfl⟩
    rfl
  have hPassword :
      (redact left).auth.sourcePassword =
        (redact right).auth.sourcePassword := by
    have hSecret := hAlike.sourcePassword
    simp only [redact]
    generalize left.auth.sourcePassword = p at hSecret ⊢
    generalize right.auth.sourcePassword = q at hSecret ⊢
    cases hSecret with
    | some _ => rfl
    | none => rfl
  rw [AuthConfig.mk.injEq]
  exact ⟨hUsers, hPassword⟩

/- The streams decide what an operator is shown. -/
theorem operatorResponse_eq
    (hStreams : left.StreamsAlike R right)
    (configPath : Option String) :
    buildConfigResponse left configPath false =
      buildConfigResponse right configPath false := by
  have hAutodjs :
      (redact left).autodjs = (redact right).autodjs :=
    hStreams.autodjs
  simp only [buildConfigResponse, Bool.false_eq_true,
    if_false, redacted_mounts_eq hStreams,
    redacted_relays_eq hStreams, hAutodjs]

theorem response_eq
    (hAlike : left.Alike R right)
    (configPath : Option String)
    (showAll : Bool) :
    buildConfigResponse left configPath showAll =
      buildConfigResponse right configPath showAll := by
  cases showAll with
  | false =>
      exact
        operatorResponse_eq hAlike.toStreamsAlike configPath
  | true =>
      have hServer :
          (redact left).server = (redact right).server :=
        hAlike.server
      have hLogging :
          (redact left).logging = (redact right).logging :=
        hAlike.logging
      have hLimits :
          (redact left).limits = (redact right).limits :=
        hAlike.limits
      have hAutodjs :
          (redact left).autodjs = (redact right).autodjs :=
        hAlike.autodjs
      have hTls : (redact left).tls = (redact right).tls :=
        hAlike.tls
      have hTranscode :
          (redact left).transcode =
            (redact right).transcode :=
        hAlike.transcode
      simp only [buildConfigResponse, if_true, hServer,
        hLogging, hLimits, hAutodjs, hTls, hTranscode,
        redacted_auth_eq hAlike,
        redacted_mounts_eq hAlike.toStreamsAlike,
        redacted_relays_eq hAlike.toStreamsAlike]

/- The role of a user is no credential. -/
theorem isAdmin_eq
    (hAlike : left.Alike R right)
    (user : String) :
    isAdmin left user = isAdmin right user := by
  have hFound :
      Option.Rel (UserConfig.Alike R)
        (left.auth.users.find? (·.username = user))
        (right.auth.users.find? (·.username = user)) := by
    apply rel_find? _ hAlike.users
    rintro u u' ⟨secret, _, rfl⟩
    rfl
  have hRole : roleOf left user = roleOf right user := by
    unfold roleOf
    rcases rel_cases hFound with
      ⟨hLeft, hRight⟩ | ⟨u, v, hLeft, hRight, hAlike⟩
    · rw [hLeft, hRight]
    · rcases hAlike with ⟨secret, _, rfl⟩
      rw [hLeft, hRight]
      rfl
  rw [isAdmin, isAdmin, hRole]

end Responses

/- Both runs read one request from a body, or none. -/
theorem read_alike
    {loose : Prop}
    {R : String → String → Prop}
    {hash hash' : Nat → String → Except String String}
    (hHash :
      ∀ index plain,
        Agree loose R (hash index plain) (hash' index plain))
    (requester : String)
    (body : Json)
    (target : ConfigSection) :
    Option.Rel (RequestAlike loose R)
      (PutRequest.read requester hash body target)
      (PutRequest.read requester hash' body target) := by
  cases target with
  | users =>
      simp only [PutRequest.read]
      cases UsersPutBody.read body with
      | none => exact .none
      | some users => exact .some (.users hHash _ _)
  | server => exact rel_self .same _
  | transcode => exact rel_self .same _
  | mounts => exact rel_self .same _
  | autodjs => exact rel_self .same _
  | relays => exact rel_self .same _

namespace EndpointState

/- Two servers that differ in values of credentials. -/
structure Alike (left right : EndpointState) : Prop where
  config : left.config.Alike SameSecret right.config
  configPath : left.configPath = right.configPath

theorem persistAndApply_alike
    {left right : EndpointState}
    (hStates : left.Alike right)
    {candidate candidate' : Config}
    (hCandidates : candidate.Alike SameSecret candidate')
    (showAll : Bool)
    (outcome : SaveOutcome) :
    (left.persistAndApply candidate showAll outcome).1 =
        (right.persistAndApply candidate' showAll
          outcome).1 ∧
      (left.persistAndApply candidate showAll
        outcome).2.Alike
        (right.persistAndApply candidate' showAll
          outcome).2 := by
  unfold persistAndApply
  cases outcome.disk with
  | failed error => exact ⟨rfl, hStates⟩
  | panicked message => exact ⟨rfl, hStates⟩
  | written =>
      cases outcome.applied with
      | error error => exact ⟨rfl, hStates⟩
      | ok warnings =>
          simp only [hStates.configPath,
            response_eq hCandidates]
          exact ⟨trivial, hCandidates, rfl⟩

theorem save_alike
    {left right : EndpointState}
    (hStates : left.Alike right)
    {put put' : PutRequest}
    (hRequest : RequestAlike False SameSecret put put')
    (showAll : Bool)
    (outcome : SaveOutcome) :
    (left.save put showAll outcome).1 =
        (right.save put' showAll outcome).1 ∧
      (left.save put showAll outcome).2.Alike
        (right.save put' showAll outcome).2 := by
  have hPrepared :=
    agree_prepare strict_comparison
      ⟨hStates.config.toStreamsAlike, .inr hStates.config⟩
      hRequest
  unfold save
  cases hLeft : put.prepare left.config with
  | error failure =>
      cases hRight : put'.prepare right.config with
      | error failure' =>
          rw [hLeft, hRight] at hPrepared
          rcases hPrepared with ⟨⟨⟩⟩ | rfl
          cases failure with
          | rejected error => exact ⟨rfl, hStates⟩
          | panicked message => exact ⟨rfl, hStates⟩
      | ok prepared =>
          rw [hLeft, hRight] at hPrepared
          exact absurd hPrepared id
  | ok prepared =>
      cases hRight : put'.prepare right.config with
      | error failure =>
          rw [hLeft, hRight] at hPrepared
          exact absurd hPrepared id
      | ok prepared' =>
          rw [hLeft, hRight] at hPrepared
          have hCandidates :
              prepared.2.Alike SameSecret prepared'.2 :=
            hPrepared.2.resolve_left id
          exact
            persistAndApply_alike hStates hCandidates showAll
              outcome

/- One request, answered by both. -/
theorem answer_alike
    {left right : EndpointState}
    (hStates : left.Alike right)
    {hash hash' : Nat → String → Except String String}
    (hHash :
      ∀ index plain,
        Agree False SameSecret (hash index plain)
          (hash' index plain))
    (outcome : SaveOutcome)
    (session : Option String)
    (request : ConfigRequest) :
    (left.answer hash outcome session request).1 =
        (right.answer hash' outcome session request).1 ∧
      (left.answer hash outcome session request).2.Alike
        (right.answer hash' outcome session request).2 := by
  unfold answer
  cases session with
  | none => exact ⟨rfl, hStates⟩
  | some user =>
      simp only [isAdmin_eq hStates.config user]
      cases request with
      | get =>
          simp only [response_eq hStates.config,
            hStates.configPath]
          exact ⟨trivial, hStates⟩
      | put target body =>
          simp only
          split
          · exact ⟨rfl, hStates⟩
          · rcases rel_cases
                (read_alike hHash user body target) with
              ⟨hLeft, hRight⟩ |
                ⟨put, put', hLeft, hRight, hRequest⟩
            · rw [hLeft, hRight]
              exact ⟨rfl, hStates⟩
            · rw [hLeft, hRight]
              exact save_alike hStates hRequest _ outcome

end EndpointState

end RustyIce

------------------------------------------------------------
-- Runs
------------------------------------------------------------

namespace RustyIce

open ConfigPut Library

/- A request with its session and all it depends on. -/
structure Exchange where
  hash : Nat → String → Except String String
  outcome : SaveOutcome
  session : Option String
  request : ConfigRequest

namespace EndpointState

/- The replies of a server to one request after another. -/
def run
    (s : EndpointState) :
    List Exchange → List Reply × EndpointState
| [] => ([], s)
| e :: es =>
    let (reply, t) :=
      s.answer e.hash e.outcome e.session e.request
    let (replies, u) := t.run es
    (reply :: replies, u)

/- No sequence of requests tells the two servers apart. -/
theorem run_alike
    {left right : EndpointState}
    (hStates : left.Alike right)
    (exchanges : List Exchange) :
    (left.run exchanges).1 = (right.run exchanges).1 ∧
      (left.run exchanges).2.Alike
        (right.run exchanges).2 := by
  induction exchanges generalizing left right with
  | nil => exact ⟨rfl, hStates⟩
  | cons e es ih =>
      have hHash (index : Nat) (plain : String) :
          Agree False SameSecret (e.hash index plain)
            (e.hash index plain) :=
        Agree.of_self strict_comparison.self False _
      rcases
          answer_alike hStates hHash e.outcome e.session
            e.request with
        ⟨hReply, hAfter⟩
      rcases ih hAfter with ⟨hReplies, hLast⟩
      simp only [run, hReply, hReplies]
      exact ⟨trivial, hLast⟩

end EndpointState

end RustyIce

------------------------------------------------------------
-- Operators
------------------------------------------------------------

namespace RustyIce

open ConfigPut Library

namespace EndpointState

/- A save that succeeds shows its candidate. -/
theorem shown_of_save
    {s : EndpointState}
    {put : PutRequest}
    {showAll : Bool}
    {outcome : SaveOutcome}
    {shown : Json}
    (hShown :
      (s.save put showAll outcome).1 = .shown shown) :
    ∃ patch candidate warnings,
      put.prepare s.config = .ok (patch, candidate) ∧
        outcome.applied = .ok warnings ∧
        shown =
          putSuccess
            (buildConfigResponse candidate
              (s.configPath <|> some "config.toml") showAll)
            warnings := by
  unfold save at hShown
  cases hPrepare : put.prepare s.config with
  | error failure =>
      rw [hPrepare] at hShown
      cases failure with
      | rejected error => cases hShown
      | panicked message => cases hShown
  | ok prepared =>
      rw [hPrepare] at hShown
      simp only [persistAndApply] at hShown
      split at hShown
      · cases hShown
      · cases hShown
      · split at hShown
        · cases hShown
        · rename_i warnings hApplied
          cases hShown
          exact ⟨_, _, _, rfl, hApplied, rfl⟩

/-
  What an operator is shown depends on the streams alone,
  and not on their credentials.
-/
theorem operator_shown_eq
    {left right : EndpointState}
    (hPath : left.configPath = right.configPath)
    (hStreams :
      left.config.StreamsAlike (fun _ _ => True)
        right.config)
    {user : String}
    (hLeft : isAdmin left.config user = false)
    (hRight : isAdmin right.config user = false)
    {hash hash' : Nat → String → Except String String}
    {outcome : SaveOutcome}
    {request : ConfigRequest}
    {shown shown' : Json}
    (hShown :
      (left.answer hash outcome (some user) request).1 =
        .shown shown)
    (hShown' :
      (right.answer hash' outcome (some user) request).1 =
        .shown shown') :
    shown = shown' := by
  simp only [answer, hLeft] at hShown
  simp only [answer, hRight] at hShown'
  cases request with
  | get =>
      cases hShown
      cases hShown'
      rw [operatorResponse_eq hStreams, hPath]
  | put target body =>
      cases hTarget : target.adminOnly with
      | true =>
          simp only [hTarget] at hShown
          cases hShown
      | false =>
          simp only [hTarget, Bool.not_false, Bool.and_true,
            Bool.false_eq_true, if_false, Bool.or_false]
            at hShown hShown'
          have hHash (index : Nat) (plain : String) :
              Agree True (fun _ _ => True)
                (hash index plain) (hash' index plain) :=
            Agree.of_loose trivial fun _ _ _ _ => trivial
          have hRead := read_alike hHash user body target
          cases hFirst :
              PutRequest.read user hash body target with
          | none =>
              rw [hFirst] at hShown
              cases hShown
          | some put =>
              cases hSecond :
                  PutRequest.read user hash' body target with
              | none =>
                  rw [hSecond] at hShown'
                  cases hShown'
              | some put' =>
                  rw [hFirst] at hShown hRead
                  rw [hSecond] at hShown' hRead
                  cases hRead with
                  | some hRequest =>
                      have hPrepared :=
                        agree_prepare loose_comparison
                          ⟨hStreams, .inl trivial⟩ hRequest
                      rcases shown_of_save hShown with
                        ⟨patch, candidate, warnings, hReady,
                          hApplied, rfl⟩
                      rcases shown_of_save hShown' with
                        ⟨patch', candidate', warnings',
                          hReady', hApplied', rfl⟩
                      rw [hReady, hReady'] at hPrepared
                      rw [hApplied] at hApplied'
                      cases hApplied'
                      rw [operatorResponse_eq hPrepared.1,
                        hPath]

/-
  Servers that differ in values of credentials answer every
  request with one reply, and differ in such values again.
  Two servers with the same streams show an operator the
  same, whatever the rest of their configurations is.
-/
theorem credentials_hidden
    {left right : EndpointState}
    (hPath : left.configPath = right.configPath)
    {hash hash' : Nat → String → Except String String}
    (hHash :
      ∀ index plain,
        Agree False SameSecret (hash index plain)
          (hash' index plain))
    (outcome : SaveOutcome)
    (request : ConfigRequest) :
    (left.config.Alike SameSecret right.config →
        ∀ session,
          (left.answer hash outcome session request).1 =
              (right.answer hash' outcome session
                request).1 ∧
            (left.answer hash outcome session
              request).2.Alike
              (right.answer hash' outcome session
                request).2) ∧
      (left.config.StreamsAlike (fun _ _ => True)
          right.config →
        ∀ operator shown shown',
          isAdmin left.config operator = false →
          isAdmin right.config operator = false →
          (left.answer hash outcome (some operator)
              request).1 = .shown shown →
          (right.answer hash' outcome (some operator)
              request).1 = .shown shown' →
          shown = shown') := by
  constructor
  · intro hConfigs session
    exact
      answer_alike ⟨hConfigs, hPath⟩ hHash outcome session
        request
  · intro hStreams operator shown shown' hLeft hRight hShown
      hShown'
    exact
      operator_shown_eq hPath hStreams hLeft hRight hShown
        hShown'

/- A server with one mount, its password kept in mind. -/
def withPassword (password : String) : EndpointState where
  config :=
    { adminConfig with mounts := [.bare "/live" password] }
  configPath := none

/- The mount is saved with the sentinel it was shown with. -/
def keptMount : ConfigRequest :=
  .put .mounts
    (.record
      [("mounts",
        some
          (.array [(MountConfig.bare "/live" redacted).json]))])

theorem credentials_hidden_keptMount :
    ((withPassword "secret").answer (fun _ plain => .ok plain)
        ⟨.written, .ok []⟩ (some "admin") keptMount).1 =
      ((withPassword "hidden").answer
        (fun _ plain => .ok plain) ⟨.written, .ok []⟩
        (some "admin") keptMount).1 := by
  have hPath :
      (withPassword "secret").configPath =
        (withPassword "hidden").configPath := rfl
  have hSecret : SameSecret "secret" "hidden" :=
    .inr (by decide)
  have hHash (_index : Nat) (plain : String) :
      Agree False SameSecret
        (Except.ok plain : Except String String)
        (Except.ok plain) :=
    .inl rfl
  have hConfigs :
      (withPassword "secret").config.Alike SameSecret
        (withPassword "hidden").config :=
    { mounts := .cons ⟨_, hSecret, rfl⟩ .nil
      autodjs := rfl
      relays := .nil
      server := rfl
      logging := rfl
      limits := rfl
      tls := rfl
      transcode := rfl
      users := .cons ⟨_, .inl rfl, rfl⟩ .nil
      sourcePassword := .none }
  exact
    ((credentials_hidden hPath hHash ⟨.written, .ok []⟩
      keptMount).1 hConfigs (some "admin")).1

end EndpointState

end RustyIce
