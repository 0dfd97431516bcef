import RustyIce.Core.Types
import RustyIce.Library.FileStore
import RustyIce.Library.Machine

/-
  Saves of the configuration file on a disk that may lose
  power: `atomic_write` under the write lock, one operation
  of the file system at a time, each of which may fail, and
  readers that have the file open in between.

  The file is whole at every moment and after every loss of
  power: it is what it was at the start, or what a save that
  got as far as the rename was given.

  Main declarations:
    * `tempName`, `tempName_ne`
    * `AtomicWrite`, `AtomicWrite.step`
    * `ConfigDisk`, `diskMachine`
    * `NeverTorn`, `never_torn`
-/

------------------------------------------------------------
-- The Temporary File
------------------------------------------------------------

namespace RustyIce

/- The name of a file, by characters. -/
abbrev FileName := List Char

/-
  The name without its last extension; a dot in front is
  none.
-/
def nameStem (name : FileName) : FileName :=
  match name.reverse.dropWhile (· ≠ '.') with
  | [] => name
  | [_] => name
  | _ :: stem => stem.reverse

def withExtension
    (name extension : FileName) : FileName :=
  nameStem name ++ '.' :: extension

def tempExtension : FileName :=
  ['t', 'o', 'm', 'l', '.', 't', 'm', 'p']

/- The file beside `path` that is written first. -/
def tempName (path : FileName) : FileName :=
  withExtension path tempExtension

/- What stands before the temporary extension is the stem. -/
theorem nameStem_temp (stem : FileName) :
    nameStem (stem ++ '.' :: tempExtension) =
      stem ++ ['.', 't', 'o', 'm', 'l'] := by
  unfold nameStem tempExtension
  rw [List.reverse_append]
  simp

/- The two files are never the same. -/
theorem tempName_ne (path : FileName) : tempName path ≠ path := by
  intro hSame
  have hStem := nameStem_temp (nameStem path)
  have hPath :
      nameStem path ++ '.' :: tempExtension = path :=
    hSame
  rw [hPath] at hStem
  have hLength := congrArg List.length hStem
  rw [List.length_append] at hLength
  simp at hLength

end RustyIce

------------------------------------------------------------
-- Writing The File
------------------------------------------------------------

namespace RustyIce

abbrev ConfigStore := Library.FileStore FileName UInt8

/-
  Where a write is; `fd` is the open temporary file. What is
  left of the contents is written in as many parts as the
  system takes.
-/
inductive WritePhase where
| creating
| writing (fd : Nat) (left : Bytes)
| syncing (fd : Nat)
| moving
| removing
| returned (ok : Bool)
deriving DecidableEq, Repr

structure AtomicWrite where
  contents : Bytes
  phase : WritePhase
deriving DecidableEq, Repr

/- What the file system answers; a write takes `more` and one. -/
inductive IoResult where
| done (more : Nat)
| failed
deriving DecidableEq, Repr

namespace AtomicWrite

def start (contents : Bytes) : AtomicWrite where
  contents := contents
  phase := .creating

/- The next operation of `atomic_write`. -/
def step
    (path : FileName)
    (store : ConfigStore)
    (w : AtomicWrite)
    (result : IoResult) : Option (AtomicWrite × ConfigStore) :=
  match w.phase with
  | .creating =>
      match result with
      | .failed => some ({ w with phase := .returned false }, store)
      | .done _ =>
          let created := store.create (tempName path)
          some
            ({ w with phase := .writing created.1 w.contents },
              created.2)
  | .writing fd [] => some ({ w with phase := .syncing fd }, store)
  | .writing fd (byte :: left) =>
      match result with
      | .failed => some ({ w with phase := .returned false }, store)
      | .done more =>
          some
            ({ w with phase := .writing fd (left.drop more) },
              store.write fd (byte :: left.take more))
  | .syncing fd =>
      match result with
      | .failed => some ({ w with phase := .returned false }, store)
      | .done _ => some ({ w with phase := .moving }, store.sync fd)
  | .moving =>
      match result with
      | .failed => some ({ w with phase := .removing }, store)
      | .done _ =>
          some
            ({ w with phase := .returned true },
              store.rename (tempName path) path)
  | .removing =>
      -- Whether the removal fails makes no difference.
      match result with
      | .failed => some ({ w with phase := .returned false }, store)
      | .done _ =>
          some
            ({ w with phase := .returned false },
              store.remove (tempName path))
  | .returned _ => none

end AtomicWrite

/-
  A reader that has the file open; `seen` records what the
  file held then.
-/
structure ConfigReader where
  inode : Nat
  seen : Bytes
deriving DecidableEq, Repr

/-
  The disk and the one save that holds the write lock.
  `before` is what the file held when it took the lock, and
  `installed` what it has held since the power came.
-/
structure ConfigDisk where
  store : ConfigStore
  writer : Option AtomicWrite
  before : Option Bytes
  readers : List ConfigReader
  installed : List Bytes

inductive DiskLabel where
| save (contents : Bytes)
| io (result : IoResult)
| release
| openFile
| kill
| powerLoss (found : Nat) (torn : Nat → Bytes)

namespace ConfigDisk

/- The write that has just renamed installs its contents. -/
def installs
    (w : AtomicWrite)
    (result : IoResult) : List Bytes :=
  match w.phase, result with
  | .moving, .done _ => [w.contents]
  | _, _ => []

def step
    (path : FileName)
    (s : ConfigDisk) : DiskLabel → Option ConfigDisk
| .save contents =>
    match s.writer with
    | some _ => none
    | none =>
        some
          { s with
            writer := some (.start contents)
            before := s.store.content path }
| .io result =>
    match s.writer with
    | none => none
    | some w =>
        match w.step path s.store result with
        | none => none
        | some (after, store) =>
            some
              { s with
                store := store
                writer := some after
                installed := s.installed ++ installs w result }
| .release =>
    match s.writer with
    | none => none
    | some w =>
        match w.phase with
        | .returned _ => some { s with writer := none }
        | _ => none
| .openFile =>
    match s.store.dir path with
    | none => none
    | some i =>
        some
          { s with
            readers :=
              s.readers ++
                [{ inode := i
                   seen :=
                    (s.store.content path).getD [] }] }
| .kill => some { s with writer := none }
| .powerLoss found torn =>
    match s.store.powerLoss found torn with
    | none => none
    | some store =>
        some
          { s with
            store := store
            writer := none
            readers := []
            installed := (store.content path).toList }

end ConfigDisk

/-
  A disk at rest: everything is on it, and no two names are
  one file.
-/
structure AtRest (path : FileName) (s : ConfigDisk) : Prop where
  past : s.store.past = [s.store.dir]
  known :
    ∀ name i,
      s.store.dir name = some i →
        ∃ data,
          s.store.inodes[i]? =
            some { data := data, synced := true }
  apart :
    ∀ i,
      s.store.dir path = some i →
        s.store.dir (tempName path) ≠ some i
  writer : s.writer = none
  readers : s.readers = []
  installed : s.installed = (s.store.content path).toList

def diskMachine
    (path : FileName) :
    Library.Machine ConfigDisk DiskLabel where
  init := AtRest path
  step := ConfigDisk.step path

end RustyIce

------------------------------------------------------------
-- The Invariant
------------------------------------------------------------

namespace RustyIce

/- How far the write has come, phase by phase. -/
def WriterInv
    (path : FileName)
    (store : ConfigStore)
    (before : Option Bytes)
    (w : AtomicWrite) : Prop :=
  match w.phase with
  | .creating => store.content path = before
  | .writing fd left =>
      store.content path = before ∧
        store.dir (tempName path) = some fd ∧
          ∃ inode,
            store.inodes[fd]? = some inode ∧
              inode.data ++ left = w.contents
  | .syncing fd =>
      store.content path = before ∧
        store.dir (tempName path) = some fd ∧
          ∃ inode,
            store.inodes[fd]? = some inode ∧
              inode.data = w.contents
  | .moving =>
      store.content path = before ∧
        ∃ fd,
          store.dir (tempName path) = some fd ∧
            store.inodes[fd]? =
              some { data := w.contents, synced := true }
  | .removing => store.content path = before
  | .returned true => store.content path = some w.contents
  | .returned false => store.content path = before

structure DiskInv
    (path : FileName)
    (s : ConfigDisk) : Prop where
  replacing :
    s.store.Replacing path (tempName path) (· ∈ s.installed)
  readers :
    ∀ r ∈ s.readers,
      ∃ dir ∈ s.store.past,
        dir path = some r.inode ∧
          s.store.inodes[r.inode]? =
            some { data := r.seen, synced := true }
  writer :
    ∀ w, s.writer = some w → WriterInv path s.store s.before w

namespace DiskInv

variable {path : FileName}
variable {s t : ConfigDisk}

/- A reader keeps what it has open. -/
theorem readers_keep
    (hInv : DiskInv path s)
    {next : ConfigStore}
    (hKeeps : s.store.Keeps next path) :
    ∀ r ∈ s.readers,
      ∃ dir ∈ next.past,
        dir path = some r.inode ∧
          next.inodes[r.inode]? =
            some { data := r.seen, synced := true } := by
  intro r hMem
  rcases hInv.readers r hMem with ⟨dir, hDir, hFile, hInode⟩
  rcases hKeeps dir hDir r.inode hFile with ⟨hSame, hPast⟩
  exact ⟨dir, hPast, hFile, hSame.trans hInode⟩

/- An operation on the temporary file alone. -/
theorem aside
    (hInv : DiskInv path s)
    {next : ConfigStore}
    {after : AtomicWrite}
    (hNext :
      next.Replacing path (tempName path) (· ∈ s.installed))
    (hKeeps : s.store.Keeps next path)
    (hWriter : WriterInv path next s.before after) :
    DiskInv path
      { s with
        store := next
        writer := some after
        installed := s.installed ++ [] } where
  replacing := by
    rw [List.append_nil]
    exact hNext
  readers := hInv.readers_keep hKeeps
  writer := by
    intro w hSome
    cases hSome
    exact hWriter

/- An answer that changes nothing on the disk. -/
theorem stays
    (hInv : DiskInv path s)
    {after : AtomicWrite}
    (hWriter : WriterInv path s.store s.before after) :
    DiskInv path
      { s with
        writer := some after
        installed := s.installed ++ [] } :=
  hInv.aside hInv.replacing
    (fun _ hDir _ _ => ⟨rfl, hDir⟩) hWriter

/- The next operation of the write. -/
theorem io
    (hInv : DiskInv path s)
    {w after : AtomicWrite}
    {result : IoResult}
    {next : ConfigStore}
    (hWriter : s.writer = some w)
    (hStep : w.step path s.store result = some (after, next)) :
    DiskInv path
      { s with
        store := next
        writer := some after
        installed :=
          s.installed ++ ConfigDisk.installs w result } := by
  have hApart : path ≠ tempName path := (tempName_ne path).symm
  have hHere := hInv.writer w hWriter
  have hReplacing := hInv.replacing
  unfold WriterInv at hHere
  unfold AtomicWrite.step at hStep
  unfold ConfigDisk.installs
  cases hPhase : w.phase with
  | creating =>
      rw [hPhase] at hHere
      simp only [hPhase] at hStep ⊢
      cases result with
      | failed =>
          cases hStep
          exact hInv.stays hHere
      | done more =>
          cases hStep
          rcases hReplacing.create hApart with
            ⟨hNext, hKeeps, hTemp, hInode, hFile⟩
          refine hInv.aside hNext hKeeps ⟨?_, hTemp, ?_⟩
          · exact
              (hReplacing.content_of_keeps hKeeps hFile).trans
                hHere
          · exact ⟨_, hInode, List.nil_append _⟩
  | writing fd left =>
      rw [hPhase] at hHere
      rcases hHere with ⟨hBefore, hTemp, inode, hInode, hData⟩
      cases left with
      | nil =>
          simp only [hPhase] at hStep ⊢
          cases hStep
          rw [List.append_nil] at hData
          exact
            hInv.stays ⟨hBefore, hTemp, inode, hInode, hData⟩
      | cons byte left =>
          simp only [hPhase] at hStep ⊢
          cases result with
          | failed =>
              cases hStep
              exact hInv.stays hBefore
          | done more =>
              cases hStep
              rcases hReplacing.write hTemp
                  (byte :: left.take more) with
                ⟨hNext, hKeeps⟩
              rcases Library.FileStore.inode_write hInode
                  (byte :: left.take more) with
                ⟨hDir, hNow⟩
              refine
                hInv.aside hNext hKeeps
                  ⟨?_, ?_, _, hNow, ?_⟩
              · refine
                  (hReplacing.content_of_keeps hKeeps ?_).trans
                    hBefore
                rw [hDir]
              · rw [hDir]
                exact hTemp
              · rw [← hData, List.append_assoc,
                  List.cons_append, List.take_append_drop]
  | syncing fd =>
      rw [hPhase] at hHere
      simp only [hPhase] at hStep ⊢
      rcases hHere with ⟨hBefore, hTemp, inode, hInode, hData⟩
      cases result with
      | failed =>
          cases hStep
          exact hInv.stays hBefore
      | done more =>
          cases hStep
          rcases hReplacing.sync hTemp with ⟨hNext, hKeeps⟩
          rcases Library.FileStore.inode_sync hInode with
            ⟨hDir, hNow⟩
          rw [hData] at hNow
          refine hInv.aside hNext hKeeps ⟨?_, fd, ?_, hNow⟩
          · refine
              (hReplacing.content_of_keeps hKeeps ?_).trans
                hBefore
            rw [hDir]
          · rw [hDir]
            exact hTemp
  | moving =>
      rw [hPhase] at hHere
      simp only [hPhase] at hStep ⊢
      rcases hHere with ⟨hBefore, fd, hTemp, hInode⟩
      cases result with
      | failed =>
          cases hStep
          exact hInv.stays hBefore
      | done more =>
          cases hStep
          have hMore :
              s.store.Replacing path (tempName path)
                (· ∈ s.installed ++ [w.contents]) :=
            hReplacing.mono fun data hOld =>
              List.mem_append_left _ hOld
          rcases
              hMore.rename hApart hTemp hInode
                (List.mem_append_right _
                  (List.mem_singleton.mpr rfl)) with
            ⟨hNext, hKeeps, hContent⟩
          refine ⟨hNext, hInv.readers_keep hKeeps, ?_⟩
          intro w hSome
          cases hSome
          exact hContent
  | removing =>
      rw [hPhase] at hHere
      simp only [hPhase] at hStep ⊢
      cases result with
      | failed =>
          cases hStep
          exact hInv.stays hHere
      | done more =>
          cases hStep
          rcases hReplacing.remove hApart with
            ⟨hNext, hKeeps, hFile⟩
          exact
            hInv.aside hNext hKeeps
              ((hReplacing.content_of_keeps hKeeps hFile).trans
                hHere)
  | returned ok =>
      simp only [hPhase] at hStep
      cases hStep

theorem step
    {label : DiskLabel}
    (hInv : DiskInv path s)
    (hStep : s.step path label = some t) :
    DiskInv path t := by
  cases label with
  | save contents =>
      simp only [ConfigDisk.step] at hStep
      split at hStep
      · cases hStep
      · cases hStep
        refine ⟨hInv.replacing, hInv.readers, ?_⟩
        intro w hSome
        cases hSome
        rfl
  | io result =>
      simp only [ConfigDisk.step] at hStep
      cases hWriter : s.writer with
      | none => simp [hWriter] at hStep
      | some w =>
          simp only [hWriter] at hStep
          rcases hMove : w.step path s.store result with
            _ | ⟨after, next⟩
          · simp [hMove] at hStep
          · simp only [hMove] at hStep
            cases hStep
            exact hInv.io hWriter hMove
  | release =>
      simp only [ConfigDisk.step] at hStep
      split at hStep
      · cases hStep
      · split at hStep
        · cases hStep
          exact
            ⟨hInv.replacing, hInv.readers,
              fun w hNever => nomatch hNever⟩
        · cases hStep
  | openFile =>
      simp only [ConfigDisk.step] at hStep
      cases hFile : s.store.dir path with
      | none => simp [hFile] at hStep
      | some i =>
          simp only [hFile] at hStep
          cases hStep
          refine ⟨hInv.replacing, ?_, hInv.writer⟩
          intro r hMem
          rcases List.mem_append.mp hMem with hOld | hNew
          · exact hInv.readers r hOld
          · rw [List.mem_singleton.mp hNew]
            have hCurrent := hInv.replacing.current
            rcases hInv.replacing.whole _ hCurrent i hFile with
              ⟨data, hInode, -⟩
            refine ⟨s.store.dir, hCurrent, hFile, ?_⟩
            have hContent : s.store.content path = some data := by
              unfold Library.FileStore.content
              rw [hFile]
              simp only [Option.bind_some, hInode,
                Option.map_some]
            rw [hContent]
            exact hInode
  | kill =>
      cases hStep
      exact
        ⟨hInv.replacing, hInv.readers,
          fun w hNever => nomatch hNever⟩
  | powerLoss found torn =>
      simp only [ConfigDisk.step] at hStep
      split at hStep
      · cases hStep
      · rename_i next hLoss
        cases hStep
        have hNext := hInv.replacing.powerLoss hLoss
        refine
          ⟨⟨hNext.current, hNext.known, ?_, hNext.apart⟩,
            (fun r hNever => nomatch hNever),
            fun w hNever => nomatch hNever⟩
        intro dir hDir i hFile
        rcases hNext.whole dir hDir i hFile with
          ⟨data, hInode, -⟩
        refine ⟨data, hInode, ?_⟩
        have hCurrent := hNext.current
        rw [Library.FileStore.past_powerLoss hLoss,
          List.mem_singleton] at hDir
        rw [hDir] at hFile
        unfold Library.FileStore.content
        rw [hFile]
        simp [hInode]

theorem of_reachable
    (hReach : (diskMachine path).Reachable s) :
    DiskInv path s := by
  apply hReach.invariant
  · rintro u hRest
    refine ⟨⟨?_, ?_, ?_, ?_⟩, ?_, ?_⟩
    · rw [hRest.past]
      exact List.mem_singleton.mpr rfl
    · intro dir hDir name i hName
      rw [hRest.past] at hDir
      rw [List.mem_singleton.mp hDir] at hName
      rcases hRest.known name i hName with ⟨data, hInode⟩
      exact (List.getElem?_eq_some_iff.mp hInode).1
    · intro dir hDir i hFile
      rw [hRest.past] at hDir
      rw [List.mem_singleton.mp hDir] at hFile
      rcases hRest.known path i hFile with ⟨data, hInode⟩
      refine ⟨data, hInode, ?_⟩
      rw [hRest.installed]
      unfold Library.FileStore.content
      rw [hFile]
      simp [hInode]
    · intro dir hDir i hFile
      rw [hRest.past] at hDir
      rw [List.mem_singleton.mp hDir] at hFile ⊢
      exact ⟨hRest.apart i hFile, hRest.apart i hFile⟩
    · rw [hRest.readers]
      exact fun r hNever => nomatch hNever
    · rw [hRest.writer]
      exact fun w hNever => nomatch hNever
  · intro u label v hBefore _ hStep
    exact hBefore.step hStep

end DiskInv

end RustyIce

------------------------------------------------------------
-- The File Is Whole
------------------------------------------------------------

namespace RustyIce

/-
  From `s`, where the disk was at rest, to `t`: the file
  holds something it was given as a whole since the power
  came, also if the power is lost now, and is not missing
  unless it was; a reader goes on seeing what the file held
  when it was opened; a save that returned without an error
  is in the file, and before that the file is as the save
  found it.
-/
structure NeverTorn
    (path : FileName)
    (s t : ConfigDisk) : Prop where
  file :
    ∀ data,
      t.store.content path = some data → data ∈ t.installed
  survives :
    ∀ found torn next,
      t.store.powerLoss found torn = some next →
        ∀ data,
          next.content path = some data → data ∈ t.installed
  there :
    s.store.content path ≠ none → t.store.content path ≠ none
  reading :
    ∀ r ∈ t.readers,
      r.seen ∈ t.installed ∧
        (t.store.inodes[r.inode]?).map Library.Inode.data =
          some r.seen
  saved :
    ∀ w,
      t.writer = some w →
        w.phase = .returned true →
          t.store.content path = some w.contents
  unsaved :
    ∀ w,
      t.writer = some w →
        w.phase ≠ .returned true →
          t.store.content path = t.before

variable {path : FileName}
variable {s t : ConfigDisk}

theorem WriterInv.before
    {store : ConfigStore}
    {before : Option Bytes}
    {w : AtomicWrite}
    (hWriter : WriterInv path store before w)
    (hPhase : w.phase ≠ .returned true) :
    store.content path = before := by
  unfold WriterInv at hWriter
  revert hWriter hPhase
  cases w.phase with
  | creating => exact fun hHere _ => hHere
  | writing fd left => exact fun hHere _ => hHere.1
  | syncing fd => exact fun hHere _ => hHere.1
  | moving => exact fun hHere _ => hHere.1
  | removing => exact fun hHere _ => hHere
  | returned ok =>
      cases ok with
      | true => exact fun _ hNever => absurd rfl hNever
      | false => exact fun hHere _ => hHere

/- No operation of the write takes the file away. -/
theorem AtomicWrite.present
    {w after : AtomicWrite}
    {result : IoResult}
    {store next : ConfigStore}
    (hPresent : store.Present path)
    (hCurrent : store.dir ∈ store.past)
    (hStep : w.step path store result = some (after, next)) :
    next.Present path := by
  have hApart : path ≠ tempName path := (tempName_ne path).symm
  unfold step at hStep
  split at hStep
  · split at hStep
    · cases hStep
      exact hPresent
    · cases hStep
      exact hPresent.create hApart hCurrent
  · cases hStep
    exact hPresent
  · split at hStep
    · cases hStep
      exact hPresent
    · cases hStep
      exact hPresent.write _ _
  · split at hStep
    · cases hStep
      exact hPresent
    · cases hStep
      exact hPresent.sync _
  · split at hStep
    · cases hStep
      exact hPresent
    · cases hStep
      exact hPresent.rename hApart
  · split at hStep
    · cases hStep
      exact hPresent
    · cases hStep
      exact hPresent.remove hApart hCurrent
  · cases hStep

theorem present_step
    {label : DiskLabel}
    (hInv : DiskInv path s)
    (hPresent : s.store.Present path)
    (hStep : s.step path label = some t) :
    t.store.Present path := by
  cases label with
  | save contents =>
      simp only [ConfigDisk.step] at hStep
      split at hStep
      · cases hStep
      · cases hStep
        exact hPresent
  | io result =>
      simp only [ConfigDisk.step] at hStep
      split at hStep
      · cases hStep
      · split at hStep
        · cases hStep
        · rename_i hMove
          cases hStep
          exact
            AtomicWrite.present hPresent hInv.replacing.current
              hMove
  | release =>
      simp only [ConfigDisk.step] at hStep
      split at hStep
      · cases hStep
      · split at hStep
        · cases hStep
          exact hPresent
        · cases hStep
  | openFile =>
      simp only [ConfigDisk.step] at hStep
      split at hStep
      · cases hStep
      · cases hStep
        exact hPresent
  | kill =>
      cases hStep
      exact hPresent
  | powerLoss found torn =>
      simp only [ConfigDisk.step] at hStep
      split at hStep
      · cases hStep
      · rename_i next hLoss
        cases hStep
        exact hPresent.powerLoss hLoss

/-
  However saves, readers, failing operations, kills and
  losses of power follow each other, the file is never torn.
-/
theorem never_torn
    {labels : List DiskLabel}
    (hRest : AtRest path s)
    (hRun : (diskMachine path).run s labels = some t) :
    NeverTorn path s t := by
  have hInv :=
    DiskInv.of_reachable
      (Library.Machine.reachable_of_run hRest hRun)
  refine ⟨?_, ?_, ?_, ?_, ?_, ?_⟩
  · intro data hContent
    exact hInv.replacing.content hContent
  · intro found torn next hLoss data hContent
    exact (hInv.replacing.powerLoss hLoss).content hContent
  · intro hThere
    have hStart : s.store.Present path := by
      intro dir hDir hNone
      rw [hRest.past] at hDir
      rw [List.mem_singleton.mp hDir] at hNone
      apply hThere
      unfold Library.FileStore.content
      rw [hNone]
      rfl
    have hKept :
        (diskMachine path).Reachable t ∧
          t.store.Present path := by
      refine
        Library.Machine.run_keeps (M := diskMachine path)
          (fun _ => True)
          (I := fun u =>
            (diskMachine path).Reachable u ∧
              u.store.Present path)
          ?_ ⟨.start hRest, hStart⟩ (fun _ _ => trivial) hRun
      rintro u label v ⟨hReach, hPresent⟩ _ hStep
      exact
        ⟨.step hReach trivial hStep,
          present_step (.of_reachable hReach) hPresent hStep⟩
    have hCurrent := hInv.replacing.current
    rcases
        Option.ne_none_iff_exists'.mp
          (hKept.2 _ hCurrent) with
      ⟨i, hFile⟩
    rcases hInv.replacing.whole _ hCurrent i hFile with
      ⟨data, hInode, -⟩
    unfold Library.FileStore.content
    rw [hFile]
    simp [hInode]
  · intro r hMem
    rcases hInv.readers r hMem with ⟨dir, hDir, hFile, hInode⟩
    rcases hInv.replacing.whole dir hDir r.inode hFile with
      ⟨data, hFound, hWhole⟩
    cases hInode.symm.trans hFound
    refine ⟨hWhole, ?_⟩
    rw [hInode]
    rfl
  · intro w hWriter hPhase
    have hHere := hInv.writer w hWriter
    unfold WriterInv at hHere
    rw [hPhase] at hHere
    exact hHere
  · intro w hWriter hPhase
    exact (hInv.writer w hWriter).before hPhase

/- A configuration of two bytes. -/
def ConfigDisk.small : ConfigDisk where
  store :=
    { inodes := [{ data := [1, 2], synced := true }]
      dir := fun name => if name = ['c'] then some 0 else none
      past :=
        [fun name => if name = ['c'] then some 0 else none] }
  writer := none
  before := none
  readers := []
  installed := [[1, 2]]

theorem ConfigDisk.atRest_small : AtRest ['c'] .small where
  past := rfl
  known := by
    intro name i hName
    simp only [small] at hName ⊢
    split at hName
    · cases hName
      exact ⟨[1, 2], rfl⟩
    · cases hName
  apart := by
    intro i _ hTemp
    cases hTemp
  writer := rfl
  readers := rfl
  installed := rfl

/-
  The power is lost in the middle of a save, and then the
  file is replaced while somebody has it open.
-/
def secondTry : List DiskLabel :=
  [.save [3, 4], .io (.done 0), .io (.done 0),
    .powerLoss 1 fun _ => [9], .openFile, .save [3, 4]] ++
    List.replicate 5 (.io (.done 1))

theorem never_torn_secondTry :
    ∃ t,
      (diskMachine ['c']).run .small secondTry = some t ∧
        t.store.content ['c'] = some [3, 4] ∧
          t.readers = [{ inode := 0, seen := [1, 2] }] ∧
            NeverTorn ['c'] .small t := by
  have hRun :
      (diskMachine ['c']).run .small secondTry = some _ :=
    rfl
  exact
    ⟨_, hRun, rfl, rfl,
      never_torn ConfigDisk.atRest_small hRun⟩

end RustyIce
