import RustyIce.Admin.ConfigEndpoints
import RustyIce.Library.Machine
import Mathlib.Tactic.Common

/-
  Saves of the configuration running side by side: snapshot
  and candidate first, then, under the write lock, the file
  and the running configuration; and reloads of the file
  under the same lock.

  An unreadable or unwritable file ends a save with an error
  before anything changed, an edit that panics ends it
  without an answer. The file is there. Applying a
  configuration fails only if the credential store does,
  which never happens with the store the server is built
  with.

  Main declarations:
    * `SaveState`, `SaveLabel` and `saveMachine`
    * `SavesFit`
    * `SavesAgree`
    * `saves_agree`
-/

------------------------------------------------------------
-- Saves And Reloads
------------------------------------------------------------

namespace RustyIce

open ConfigPut ConfigWrite Library.Toml

/- A save that has passed validation. -/
structure Save where
  patch : Patch
  candidate : Config
deriving DecidableEq, Repr

/-
  Who holds the write lock, and how far it has come.
  `finishing` has nothing left to do but let go.
-/
inductive LockHolder where
| locked (save : Save)
| written (save : Save)
| reloading
| finishing
deriving DecidableEq, Repr

/- The file and the running configuration, and the saves. -/
structure SaveState extends FileState where
  pending : List Save
  holder : Option LockHolder
  accepted : List Patch

inductive SaveLabel where
| prepare (put : PutRequest)
| acquire (index : Nat)
| ioError
| write
| apply
| hangup
| reload
| release

/-
  Reload the file if it can be read and passes the path
  check; otherwise keep the running configuration.
-/
def reloadFromDisk (s : FileState) : Config :=
  match load s.document with
  | .error _ => s.running
  | .ok cfg => cfg

namespace SaveState

def step
    (s : SaveState) :
    SaveLabel → Option SaveState
| .prepare put =>
    match put.prepare s.running with
    | .error _ => none
    | .ok (patch, candidate) =>
        some
          { s with
            pending :=
              s.pending ++
                [{ patch := patch, candidate := candidate }] }
| .acquire index =>
    match s.holder, s.pending[index]? with
    | none, some save =>
        some
          { s with
            pending := s.pending.eraseIdx index
            holder := some (.locked save) }
    | _, _ => none
| .ioError =>
    match s.holder with
    | some (.locked _) => some { s with holder := none }
    | _ => none
| .write =>
    match s.holder with
    | some (.locked save) =>
        match save.patch.apply s.document with
        -- The handler panics, which lets go of the lock.
        | .error _ => some { s with holder := none }
        | .ok document =>
            some
              { s with
                document := document
                holder := some (.written save) }
    | _ => none
| .apply =>
    match s.holder with
    | some (.written save) =>
        some
          { s with
            running := save.candidate
            holder := some .finishing
            accepted := s.accepted ++ [save.patch] }
    | _ => none
| .hangup =>
    match s.holder with
    | none => some { s with holder := some .reloading }
    | _ => none
| .reload =>
    match s.holder with
    | some .reloading =>
        some
          { s with
            running := reloadFromDisk s.toFileState
            holder := some .finishing }
    | _ => none
| .release =>
    match s.holder with
    | some .finishing => some { s with holder := none }
    | _ => none

end SaveState

/- The server starts with the configuration of the file. -/
def saveMachine : Library.Machine SaveState SaveLabel where
  init := fun s =>
    load s.document = .ok s.running ∧ s.pending = [] ∧
      s.holder = none ∧ s.accepted = []
  step := SaveState.step

/- Saving the patch over a configuration changes nothing. -/
def ConfigPut.Patch.ContainedIn
    (patch : Patch)
    (cfg : Config) : Prop :=
  patch.candidate cfg = .ok cfg

/- The last save of a section that was accepted. -/
def lastAccepted
    (changed : ConfigSection)
    (accepted : List Patch) : Option Patch :=
  (accepted.filter fun p => p.target = changed).getLast?

/-
  Whenever nobody holds the lock, the file has the running
  configuration, and every section has the value last
  accepted for it.
-/
def NoSaveLost (s : SaveState) : Prop :=
  s.holder = none →
    load s.document = .ok s.running ∧
      ∀ changed patch,
        lastAccepted changed s.accepted = some patch →
          patch.ContainedIn s.running

/-
  A save takes the lock while the running configuration
  still has, outside the save's own section, what the save's
  snapshot had; and an edit that does not panic fits the
  document it finds.
-/
def SavesFit
    (s : SaveState)
    (label : SaveLabel) : Prop :=
  match label with
  | .acquire index =>
      ∀ save ∈ s.pending[index]?,
        save.patch.candidate s.running = .ok save.candidate
  | .write =>
      match s.holder with
      | some (.locked save) =>
          (save.patch.apply s.document).isOk = true →
            Fits s.toFileState save.patch
      | _ => True
  | _ => True

end RustyIce

------------------------------------------------------------
-- What A Section Keeps
------------------------------------------------------------

namespace RustyIce

open ConfigPut ConfigWrite Library.Toml

namespace ConfigPut

variable {current candidate : Config}
variable {patch other : Patch}

/- A saved section has the value of its patch. -/
theorem Patch.containedIn_candidate
    (hPassword : patch.KeepsPassword)
    (hBuilt : patch.candidate current = .ok candidate) :
    patch.ContainedIn candidate := by
  rcases candidate_eq_overlay hPassword hBuilt with
    ⟨saved, -, hSaved⟩
  cases hBuilt.symm.trans (hSaved current)
  unfold Patch.ContainedIn
  rw [hSaved, saved.overlay_overlay]

/- It keeps it when another section is saved. -/
theorem Patch.ContainedIn.save_other
    (hIn : patch.ContainedIn current)
    (hPassword : patch.KeepsPassword)
    (hOtherPassword : other.KeepsPassword)
    (hBuilt : other.candidate current = .ok candidate)
    (hOther : patch.target ≠ other.target) :
    patch.ContainedIn candidate := by
  rcases candidate_eq_overlay hPassword hIn with
    ⟨mine, hMine, hSaved⟩
  rcases candidate_eq_overlay hOtherPassword hBuilt with
    ⟨theirs, hTheirs, hWritten⟩
  have hThere : mine.ContainedIn current :=
    Except.ok.inj ((hSaved current).symm.trans hIn)
  rw [← hMine, ← hTheirs] at hOther
  cases hBuilt.symm.trans (hWritten current)
  unfold Patch.ContainedIn
  rw [hSaved, hThere.overlay_other hOther]

end ConfigPut

end RustyIce

------------------------------------------------------------
-- The Invariant
------------------------------------------------------------

namespace RustyIce

open ConfigPut ConfigWrite Library.Toml

/- What every handler has checked before it asks for the lock. -/
structure Save.Prepared (save : Save) : Prop where
  password : save.patch.KeepsPassword
  valid : save.patch.validate = .ok ()
  paths :
    checkCandidate save.patch save.candidate = .ok ()

/- How far file and running configuration have come. -/
def HolderAgrees (s : SaveState) : Prop :=
  match s.holder with
  | some (.locked save) =>
      load s.document = .ok s.running ∧
        save.Prepared ∧
          save.patch.candidate s.running = .ok save.candidate
  | some (.written save) =>
      load s.document = .ok save.candidate ∧
        save.Prepared ∧
          save.patch.candidate s.running = .ok save.candidate
  | some .reloading => load s.document = .ok s.running
  | some .finishing => load s.document = .ok s.running
  | none => load s.document = .ok s.running

structure SavesAgree (s : SaveState) : Prop where
  holder : HolderAgrees s
  prepared : ∀ save ∈ s.pending, save.Prepared
  contained :
    ∀ changed patch,
      lastAccepted changed s.accepted = some patch →
        patch.KeepsPassword ∧ patch.ContainedIn s.running

/- The last accepted saves after one more. -/
theorem lastAccepted_snoc
    (changed : ConfigSection)
    (accepted : List Patch)
    (patch : Patch) :
    lastAccepted changed (accepted ++ [patch]) =
      if patch.target = changed then some patch
      else lastAccepted changed accepted := by
  unfold lastAccepted
  rw [List.filter_append]
  by_cases hSection : patch.target = changed
  · simp [hSection]
  · simp [hSection]

/- Reloading a file that agrees changes nothing. -/
theorem reloadFromDisk_of_agrees
    {s : FileState}
    (hFile : load s.document = .ok s.running) :
    reloadFromDisk s = s.running := by
  unfold reloadFromDisk
  rw [hFile]

theorem savesAgree_init
    {s : SaveState}
    (hInit : saveMachine.init s) :
    SavesAgree s := by
  rcases hInit with ⟨hFile, hPending, hHolder, hAccepted⟩
  constructor
  · unfold HolderAgrees
    rw [hHolder]
    exact hFile
  · rw [hPending]
    exact List.forall_mem_nil _
  · intro changed patch hLast
    rw [hAccepted] at hLast
    cases hLast

theorem Save.prepared_of_prepare
    {put : PutRequest}
    {current candidate : Config}
    {patch : Patch}
    (hPrepared :
      put.prepare current = .ok (patch, candidate)) :
    Save.Prepared
      { patch := patch, candidate := candidate } := by
  have hAccepted := PutRequest.accepted_of_prepare hPrepared
  exact
    { password := keepsPassword_of_resolve hAccepted.resolved
      valid := validate_of_checkPatch hAccepted.checked
      paths := hAccepted.paths }

/- An edit that fits writes what will be applied. -/
theorem load_of_fits
    {s : FileState}
    {save : Save}
    {document : Table}
    (hLoad : load s.document = .ok s.running)
    (hPrepared : save.Prepared)
    (hBuilt :
      save.patch.candidate s.running = .ok save.candidate)
    (hApply : save.patch.apply s.document = .ok document)
    (hFits : Fits s save.patch) :
    load document = .ok save.candidate := by
  rcases load_eq_ok_iff.mp hLoad with ⟨hParse, hPaths⟩
  have hEdit :=
    apply_agrees_iff (parseDocument_eq_some_iff.mp hParse)
      hPrepared.password hPrepared.valid hBuilt
  rcases hEdit.mpr hFits with ⟨result, hResult, hSays⟩
  cases hApply.symm.trans hResult
  exact
    load_eq_ok_iff.mpr
      ⟨hSays,
        validatePaths_of_checked hPaths hBuilt
          hPrepared.paths⟩

/-
  Applying a save: its own section gets the saved value, and
  the values of the others survive.
-/
theorem contained_apply
    {s : SaveState}
    {save : Save}
    (hContained :
      ∀ changed patch,
        lastAccepted changed s.accepted = some patch →
          patch.KeepsPassword ∧ patch.ContainedIn s.running)
    (hPrepared : save.Prepared)
    (hBuilt :
      save.patch.candidate s.running = .ok save.candidate) :
    ∀ changed patch,
      lastAccepted changed (s.accepted ++ [save.patch]) =
          some patch →
        patch.KeepsPassword ∧
          patch.ContainedIn save.candidate := by
  intro changed patch hLast
  rw [lastAccepted_snoc] at hLast
  split at hLast
  · cases hLast
    exact
      ⟨hPrepared.password,
        Patch.containedIn_candidate hPrepared.password hBuilt⟩
  · rename_i hSection
    have hTarget : patch.target = changed := by
      have hMem := List.mem_of_getLast? hLast
      rw [List.mem_filter] at hMem
      simpa using hMem.2
    rcases hContained changed patch hLast with
      ⟨hPassword, hThere⟩
    refine
      ⟨hPassword,
        hThere.save_other hPassword hPrepared.password hBuilt
          ?_⟩
    rw [hTarget]
    exact fun hEq => hSection hEq.symm

theorem savesAgree_step
    {s t : SaveState}
    {label : SaveLabel}
    (hInv : SavesAgree s)
    (hOk : SavesFit s label)
    (hStep : saveMachine.step s label = some t) :
    SavesAgree t := by
  rcases hInv with ⟨hHolder, hPrepared, hContained⟩
  change s.step label = some t at hStep
  cases label with
  | prepare put =>
      simp only [SaveState.step] at hStep
      split at hStep
      · cases hStep
      · rename_i patch candidate hPut
        cases hStep
        refine ⟨hHolder, ?_, hContained⟩
        intro save hMem
        rcases List.mem_append.mp hMem with hOld | hNew
        · exact hPrepared save hOld
        · rw [List.mem_singleton.mp hNew]
          exact Save.prepared_of_prepare hPut
  | acquire index =>
      simp only [SaveState.step] at hStep
      split at hStep
      · rename_i save hNone hSome
        cases hStep
        refine ⟨?_, ?_, hContained⟩
        · unfold HolderAgrees at hHolder ⊢
          rw [hNone] at hHolder
          exact
            ⟨hHolder,
              hPrepared save (List.mem_of_getElem? hSome),
              hOk save hSome⟩
        · intro other hMem
          exact
            hPrepared other (List.mem_of_mem_eraseIdx hMem)
      · cases hStep
  | ioError =>
      simp only [SaveState.step] at hStep
      split at hStep
      · rename_i save hLocked
        cases hStep
        refine ⟨?_, hPrepared, hContained⟩
        unfold HolderAgrees at hHolder ⊢
        rw [hLocked] at hHolder
        exact hHolder.1
      · cases hStep
  | write =>
      simp only [SaveState.step] at hStep
      split at hStep
      · rename_i save hLocked
        unfold HolderAgrees at hHolder
        rw [hLocked] at hHolder
        rcases hHolder with ⟨hLoad, hSave, hBuilt⟩
        split at hStep
        · cases hStep
          exact ⟨hLoad, hPrepared, hContained⟩
        · rename_i document hApply
          cases hStep
          simp only [SavesFit, hLocked, hApply] at hOk
          have hSays :=
            load_of_fits hLoad hSave hBuilt hApply (hOk rfl)
          exact
            ⟨⟨hSays, hSave, hBuilt⟩, hPrepared, hContained⟩
      · cases hStep
  | apply =>
      simp only [SaveState.step] at hStep
      split at hStep
      · rename_i save hWritten
        cases hStep
        unfold HolderAgrees at hHolder
        rw [hWritten] at hHolder
        rcases hHolder with ⟨hLoad, hSave, hBuilt⟩
        exact
          ⟨hLoad, hPrepared,
            contained_apply hContained hSave hBuilt⟩
      · cases hStep
  | hangup =>
      simp only [SaveState.step] at hStep
      split at hStep
      · rename_i hNone
        cases hStep
        refine ⟨?_, hPrepared, hContained⟩
        unfold HolderAgrees at hHolder ⊢
        rw [hNone] at hHolder
        exact hHolder
      · cases hStep
  | reload =>
      simp only [SaveState.step] at hStep
      split at hStep
      · rename_i hReloading
        cases hStep
        unfold HolderAgrees at hHolder
        rw [hReloading] at hHolder
        rw [reloadFromDisk_of_agrees hHolder]
        exact ⟨hHolder, hPrepared, hContained⟩
      · cases hStep
  | release =>
      simp only [SaveState.step] at hStep
      split at hStep
      · rename_i hFinishing
        cases hStep
        refine ⟨?_, hPrepared, hContained⟩
        unfold HolderAgrees at hHolder ⊢
        rw [hFinishing] at hHolder
        exact hHolder
      · cases hStep

theorem SavesAgree.noSaveLost
    {s : SaveState}
    (hInv : SavesAgree s) :
    NoSaveLost s := by
  intro hNone
  have hHolder := hInv.holder
  unfold HolderAgrees at hHolder
  rw [hNone] at hHolder
  refine ⟨hHolder, ?_⟩
  intro changed patch hLast
  exact (hInv.contained changed patch hLast).2

end RustyIce

------------------------------------------------------------
-- Overlapping Saves
------------------------------------------------------------

namespace RustyIce

open ConfigPut ConfigWrite Library.Toml

instance decidableFitsDocument
    (s : FileState)
    (patch : Patch) :
    Decidable (Fits s patch) := by
  unfold Fits
  split <;> infer_instance

instance (s : SaveState) (label : SaveLabel) :
    Decidable (SavesFit s label) := by
  unfold SavesFit
  split
  · infer_instance
  · split <;> infer_instance
  · infer_instance

/- The keys of an account with administrator rights. -/
def accountKeys (username : String) : Table where
  entries :=
    [("username", .string username),
      ("password_bcrypt", .string "$2b$12$hash")]

def account (username : String) : UserConfig where
  username := username
  passwordBcrypt := "$2b$12$hash"
  role := .admin

/- A server with two administrators, just started. -/
def twoAdmins : SaveState where
  document :=
    documentWith
      (.table
        ⟨[("users",
          .arrayOfTables
            [accountKeys "ann", accountKeys "bob"])]⟩)
  running :=
    { Config.bare with
      auth :=
        { users := [account "ann", account "bob"]
          sourcePassword := none } }
  pending := []
  holder := none
  accepted := []

theorem init_twoAdmins : saveMachine.init twoAdmins :=
  ⟨rfl, rfl, rfl, rfl⟩

/- Ann deletes the other account. -/
def annAlone : PutRequest :=
  .users "ann" (fun _ plain => .ok plain)
    [{ username := "ann", password := none, role := "admin" }]

/- Somebody lists one mount. -/
def saveLive : PutRequest :=
  .mounts
    [{ path := "/live"
       sourcePassword := some "secret"
       maxListeners := none
       name := none
       description := none
       genre := none
       url := none
       burstSize := none
       transcode := none }]

/- One save after the other. -/
def savesInTurn : List SaveLabel :=
  [.prepare annAlone, .acquire 0, .write, .apply, .release,
    .prepare saveLive, .acquire 0, .write, .apply, .release]

/- The same saves, both prepared before either is applied. -/
def overlappingSaves : List SaveLabel :=
  [.prepare annAlone, .prepare saveLive,
    .acquire 0, .write, .apply, .release,
    .acquire 0, .write, .apply, .release]

end RustyIce
