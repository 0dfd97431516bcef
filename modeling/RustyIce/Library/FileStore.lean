import Mathlib.Data.List.Basic
import Mathlib.Tactic.Common

/-
  Files of one directory on a disk that may lose power: what
  was written survives once it was synced, and a change of
  the directory may be undone together with those behind it.

  A file that is replaced by renaming a synced one is whole
  at every moment.

  Main declarations:
    * `FileStore` and its operations
    * `FileStore.powerLoss`
    * `FileStore.Replacing`
    * `Replacing.create`, `Replacing.write`,
      `Replacing.sync`, `Replacing.rename`,
      `Replacing.remove` and `Replacing.powerLoss`
-/

------------------------------------------------------------
-- Files And Directories
------------------------------------------------------------

namespace Library

/- Contents, and whether the disk has them all. -/
structure Inode (Byte : Type) where
  data : List Byte
  synced : Bool
deriving DecidableEq, Repr

/-
  The directory as it is, and the directories that a loss of
  power may bring back, itself among them.
-/
structure FileStore (Name Byte : Type) where
  inodes : List (Inode Byte)
  dir : Name → Option Nat
  past : List (Name → Option Nat)

namespace FileStore

variable {Name Byte : Type}
variable [DecidableEq Name]

/- A directory with one name changed. -/
def point
    (dir : Name → Option Nat)
    (name : Name)
    (target : Option Nat) : Name → Option Nat :=
  fun other => if other = name then target else dir other

/- A change of the directory, not yet on the disk. -/
def enter
    (store : FileStore Name Byte)
    (dir : Name → Option Nat) : FileStore Name Byte :=
  { store with
    dir := dir
    past := store.past ++ [dir] }

/- The contents of a file. -/
def content
    (store : FileStore Name Byte)
    (name : Name) : Option (List Byte) :=
  (store.dir name).bind fun i =>
    (store.inodes[i]?).map Inode.data

/- Open for writing: a new file, or an old one cut to nothing. -/
def create
    (store : FileStore Name Byte)
    (name : Name) : Nat × FileStore Name Byte :=
  match store.dir name with
  | some i =>
      (i,
        { store with
          inodes :=
            store.inodes.set i { data := [], synced := false } })
  | none =>
      (store.inodes.length,
        enter
          { store with
            inodes :=
              store.inodes ++
                [{ data := [], synced := false }] }
          (point store.dir name (some store.inodes.length)))

/- Behind what is there already. -/
def write
    (store : FileStore Name Byte)
    (i : Nat)
    (bytes : List Byte) : FileStore Name Byte :=
  match store.inodes[i]? with
  | none => store
  | some inode =>
      { store with
        inodes :=
          store.inodes.set i
            { data := inode.data ++ bytes, synced := false } }

def sync
    (store : FileStore Name Byte)
    (i : Nat) : FileStore Name Byte :=
  match store.inodes[i]? with
  | none => store
  | some inode =>
      { store with
        inodes := store.inodes.set i { inode with synced := true } }

def rename
    (store : FileStore Name Byte)
    (source target : Name) : FileStore Name Byte :=
  match store.dir source with
  | none => store
  | some i =>
      store.enter
        (point (point store.dir target (some i)) source none)

def remove
    (store : FileStore Name Byte)
    (name : Name) : FileStore Name Byte :=
  store.enter (point store.dir name none)

/-
  The power is lost: one of the directories since the last
  time is found, and anything in the files that were not
  synced.
-/
def powerLoss
    (store : FileStore Name Byte)
    (found : Nat)
    (torn : Nat → List Byte) : Option (FileStore Name Byte) :=
  match store.past[found]? with
  | none => none
  | some dir =>
      some
        { inodes :=
            store.inodes.mapIdx fun i inode =>
              if inode.synced then inode
              else { data := torn i, synced := true }
          dir := dir
          past := [dir] }

omit [DecidableEq Name] in
theorem past_powerLoss
    {store next : FileStore Name Byte}
    {found : Nat}
    {torn : Nat → List Byte}
    (hLoss : store.powerLoss found torn = some next) :
    next.past = [next.dir] := by
  unfold powerLoss at hLoss
  split at hLoss
  · cases hLoss
  · cases hLoss
    rfl

@[simp] theorem point_self
    (dir : Name → Option Nat)
    (name : Name)
    (target : Option Nat) :
    point dir name target name = target :=
  if_pos rfl

@[simp] theorem point_other
    {name other : Name}
    (hOther : other ≠ name)
    (dir : Name → Option Nat)
    (target : Option Nat) :
    point dir name target other = dir other :=
  if_neg hOther

end FileStore

end Library

------------------------------------------------------------
-- Replacing A File
------------------------------------------------------------

namespace Library

namespace FileStore

variable {Name Byte : Type}

/-
  Every directory that may be found has a whole, synced file
  under the name `file`, or none, and the file under `temp`
  is another one.
-/
structure Replacing
    (store : FileStore Name Byte)
    (file temp : Name)
    (Whole : List Byte → Prop) : Prop where
  current : store.dir ∈ store.past
  known :
    ∀ dir ∈ store.past, ∀ name i,
      dir name = some i → i < store.inodes.length
  whole :
    ∀ dir ∈ store.past, ∀ i,
      dir file = some i →
        ∃ data,
          store.inodes[i]? =
              some { data := data, synced := true } ∧
            Whole data
  apart :
    ∀ dir ∈ store.past, ∀ i,
      dir file = some i →
        store.dir temp ≠ some i ∧ dir temp ≠ some i

variable {store : FileStore Name Byte}
variable {file temp : Name}
variable {Whole : List Byte → Prop}

/- The file is whole now. -/
theorem Replacing.content
    (hReplacing : store.Replacing file temp Whole)
    {data : List Byte}
    (hContent : store.content file = some data) :
    Whole data := by
  unfold FileStore.content at hContent
  rcases Option.bind_eq_some_iff.mp hContent with
    ⟨i, hDir, hData⟩
  rcases hReplacing.whole store.dir hReplacing.current i hDir
    with ⟨found, hInode, hWhole⟩
  rw [hInode] at hData
  cases hData
  exact hWhole

/- A file that is found somewhere is kept by `next`. -/
def Keeps
    (store next : FileStore Name Byte)
    (file : Name) : Prop :=
  ∀ dir ∈ store.past, ∀ i,
    dir file = some i →
      next.inodes[i]? = store.inodes[i]? ∧ dir ∈ next.past

/- Then so is what it holds, if the name stays. -/
theorem Replacing.content_of_keeps
    (hReplacing : store.Replacing file temp Whole)
    {next : FileStore Name Byte}
    (hKeeps : store.Keeps next file)
    (hDir : next.dir file = store.dir file) :
    next.content file = store.content file := by
  unfold FileStore.content
  rw [hDir]
  cases hFile : store.dir file with
  | none => rfl
  | some i =>
      have hSame :=
        (hKeeps store.dir hReplacing.current i hFile).1
      simp only [Option.bind_some]
      rw [hSame]

/- What a write and a sync leave of an open file. -/
theorem inode_write
    {i : Nat}
    {inode : Inode Byte}
    (hInode : store.inodes[i]? = some inode)
    (bytes : List Byte) :
    (store.write i bytes).dir = store.dir ∧
      (store.write i bytes).inodes[i]? =
        some { data := inode.data ++ bytes, synced := false } := by
  have hIndex := (List.getElem?_eq_some_iff.mp hInode).1
  unfold FileStore.write
  rw [hInode]
  exact ⟨rfl, List.getElem?_set_self hIndex⟩

theorem inode_sync
    {i : Nat}
    {inode : Inode Byte}
    (hInode : store.inodes[i]? = some inode) :
    (store.sync i).dir = store.dir ∧
      (store.sync i).inodes[i]? =
        some { inode with synced := true } := by
  have hIndex := (List.getElem?_eq_some_iff.mp hInode).1
  unfold FileStore.sync
  rw [hInode]
  exact ⟨rfl, List.getElem?_set_self hIndex⟩

/- A change to the contents of the temporary file. -/
theorem Replacing.change
    (hReplacing : store.Replacing file temp Whole)
    {i : Nat}
    (hTemp : store.dir temp = some i)
    (inode : Inode Byte) :
    { store with
        inodes := store.inodes.set i inode }.Replacing file
      temp Whole ∧
      store.Keeps
        { store with inodes := store.inodes.set i inode }
        file := by
  have hOther :
      ∀ dir ∈ store.past, ∀ j,
        dir file = some j →
          (store.inodes.set i inode)[j]? = store.inodes[j]? := by
    intro dir hDir j hFile
    have hApart := (hReplacing.apart dir hDir j hFile).1
    rw [List.getElem?_set_ne]
    intro hSame
    rw [hTemp, hSame] at hApart
    exact hApart rfl
  refine ⟨⟨hReplacing.current, ?_, ?_, hReplacing.apart⟩, ?_⟩
  · intro dir hDir name j hName
    rw [List.length_set]
    exact hReplacing.known dir hDir name j hName
  · intro dir hDir j hFile
    rw [hOther dir hDir j hFile]
    exact hReplacing.whole dir hDir j hFile
  · intro dir hDir j hFile
    exact ⟨hOther dir hDir j hFile, hDir⟩

/- The temporary file is created, or cut to nothing. -/
theorem Replacing.create
    [DecidableEq Name]
    (hApart : file ≠ temp)
    (hReplacing : store.Replacing file temp Whole) :
    (store.create temp).2.Replacing file temp Whole ∧
      store.Keeps (store.create temp).2 file ∧
        (store.create temp).2.dir temp =
            some (store.create temp).1 ∧
          (store.create temp).2.inodes[
              (store.create temp).1]? =
              some { data := [], synced := false } ∧
            (store.create temp).2.dir file =
              store.dir file := by
  unfold FileStore.create
  cases hTemp : store.dir temp with
  | some i =>
      have hIndex :=
        hReplacing.known store.dir hReplacing.current temp i
          hTemp
      rcases
          hReplacing.change hTemp
            { data := [], synced := false } with
        ⟨hNext, hKeeps⟩
      refine ⟨hNext, hKeeps, hTemp, ?_, rfl⟩
      exact List.getElem?_set_self hIndex
  | none =>
      have hOld :
          ∀ dir ∈ store.past, ∀ i,
            dir file = some i →
              (store.inodes ++
                  [{ data := [], synced := false }])[i]? =
                store.inodes[i]? := by
        intro dir hDir i hFile
        exact
          List.getElem?_append_left
            (hReplacing.known dir hDir file i hFile)
      have hFileNow :
          point store.dir temp (some store.inodes.length)
              file =
            store.dir file :=
        point_other hApart _ _
      refine ⟨⟨?_, ?_, ?_, ?_⟩, ?_, ?_, ?_, ?_⟩
      · exact List.mem_append_right _ (List.mem_singleton.mpr rfl)
      · intro dir hDir name i hName
        simp only [enter, List.length_append,
          List.length_singleton]
        rcases List.mem_append.mp hDir with hPast | hNew
        · have hLess := hReplacing.known dir hPast name i hName
          omega
        · rw [List.mem_singleton.mp hNew] at hName
          by_cases hSame : name = temp
          · rw [hSame, point_self] at hName
            cases hName
            omega
          · rw [point_other hSame] at hName
            have hLess :=
              hReplacing.known store.dir hReplacing.current name
                i hName
            omega
      · intro dir hDir i hFile
        rcases List.mem_append.mp hDir with hPast | hNew
        · simp only [enter]
          rw [hOld dir hPast i hFile]
          exact hReplacing.whole dir hPast i hFile
        · rw [List.mem_singleton.mp hNew, hFileNow] at hFile
          simp only [enter]
          rw [hOld store.dir hReplacing.current i hFile]
          exact
            hReplacing.whole store.dir hReplacing.current i
              hFile
      · intro dir hDir i hFile
        have hFresh :
            ∀ dir ∈ store.past,
              dir file = some i →
                point store.dir temp
                    (some store.inodes.length) temp ≠
                  some i := by
          intro dir hDir hFile hSame
          rw [point_self] at hSame
          cases hSame
          exact
            Nat.lt_irrefl _
              (hReplacing.known dir hDir file _ hFile)
        rcases List.mem_append.mp hDir with hPast | hNew
        · exact
            ⟨hFresh dir hPast hFile,
              (hReplacing.apart dir hPast i hFile).2⟩
        · rw [List.mem_singleton.mp hNew] at hFile ⊢
          rw [hFileNow] at hFile
          have hHere :=
            hFresh store.dir hReplacing.current hFile
          exact ⟨hHere, hHere⟩
      · intro dir hDir i hFile
        exact
          ⟨hOld dir hDir i hFile, List.mem_append_left _ hDir⟩
      · exact point_self _ _ _
      · simp [enter]
      · exact hFileNow

theorem Replacing.write
    (hReplacing : store.Replacing file temp Whole)
    {i : Nat}
    (hTemp : store.dir temp = some i)
    (bytes : List Byte) :
    (store.write i bytes).Replacing file temp Whole ∧
      store.Keeps (store.write i bytes) file := by
  unfold FileStore.write
  cases hInode : store.inodes[i]? with
  | none =>
      exact ⟨hReplacing, fun dir hDir j _ => ⟨rfl, hDir⟩⟩
  | some inode => exact hReplacing.change hTemp _

theorem Replacing.sync
    (hReplacing : store.Replacing file temp Whole)
    {i : Nat}
    (hTemp : store.dir temp = some i) :
    (store.sync i).Replacing file temp Whole ∧
      store.Keeps (store.sync i) file := by
  unfold FileStore.sync
  cases hInode : store.inodes[i]? with
  | none =>
      exact ⟨hReplacing, fun dir hDir j _ => ⟨rfl, hDir⟩⟩
  | some inode => exact hReplacing.change hTemp _

/- A directory without the temporary file. -/
theorem Replacing.enter
    (hReplacing : store.Replacing file temp Whole)
    (dir : Name → Option Nat)
    (hTemp : dir temp = none)
    (hKnown :
      ∀ name i, dir name = some i → i < store.inodes.length)
    (hWhole :
      ∀ i, dir file = some i →
        ∃ data,
          store.inodes[i]? =
              some { data := data, synced := true } ∧
            Whole data) :
    (store.enter dir).Replacing file temp Whole ∧
      store.Keeps (store.enter dir) file := by
  have hAway : ∀ i, dir temp ≠ some i := by
    intro i hSome
    rw [hTemp] at hSome
    cases hSome
  refine ⟨⟨?_, ?_, ?_, ?_⟩, ?_⟩
  · exact List.mem_append_right _ (List.mem_singleton.mpr rfl)
  · intro other hOther name i hName
    rcases List.mem_append.mp hOther with hPast | hNew
    · exact hReplacing.known other hPast name i hName
    · rw [List.mem_singleton.mp hNew] at hName
      exact hKnown name i hName
  · intro other hOther i hFile
    rcases List.mem_append.mp hOther with hPast | hNew
    · exact hReplacing.whole other hPast i hFile
    · rw [List.mem_singleton.mp hNew] at hFile
      exact hWhole i hFile
  · intro other hOther i hFile
    rcases List.mem_append.mp hOther with hPast | hNew
    · exact
        ⟨hAway i, (hReplacing.apart other hPast i hFile).2⟩
    · rw [List.mem_singleton.mp hNew]
      exact ⟨hAway i, hAway i⟩
  · intro other hOther i _
    exact ⟨rfl, List.mem_append_left _ hOther⟩

/- A whole and synced temporary file takes the place. -/
theorem Replacing.rename
    [DecidableEq Name]
    (hApart : file ≠ temp)
    (hReplacing : store.Replacing file temp Whole)
    {i : Nat}
    {data : List Byte}
    (hTemp : store.dir temp = some i)
    (hInode :
      store.inodes[i]? = some { data := data, synced := true })
    (hWhole : Whole data) :
    (store.rename temp file).Replacing file temp Whole ∧
      store.Keeps (store.rename temp file) file ∧
        (store.rename temp file).content file = some data := by
  unfold FileStore.rename
  rw [hTemp]
  have hFile :
      point (point store.dir file (some i)) temp none file =
        some i := by
    rw [point_other hApart, point_self]
  have hNext :=
    hReplacing.enter
      (point (point store.dir file (some i)) temp none)
      (point_self _ _ _) ?_ ?_
  · refine ⟨hNext.1, hNext.2, ?_⟩
    unfold FileStore.content
    simp only [FileStore.enter]
    rw [hFile]
    simp only [Option.bind_some, hInode, Option.map_some]
  · intro name j hName
    by_cases hSame : name = temp
    · rw [hSame, point_self] at hName
      cases hName
    · rw [point_other hSame] at hName
      by_cases hPlace : name = file
      · rw [hPlace, point_self] at hName
        cases hName
        exact
          hReplacing.known store.dir hReplacing.current temp _
            hTemp
      · rw [point_other hPlace] at hName
        exact
          hReplacing.known store.dir hReplacing.current name _
            hName
  · intro j hPlace
    rw [hFile] at hPlace
    cases hPlace
    exact ⟨data, hInode, hWhole⟩

theorem Replacing.remove
    [DecidableEq Name]
    (hApart : file ≠ temp)
    (hReplacing : store.Replacing file temp Whole) :
    (store.remove temp).Replacing file temp Whole ∧
      store.Keeps (store.remove temp) file ∧
        (store.remove temp).dir file = store.dir file := by
  have hFile :
      point store.dir temp none file = store.dir file :=
    point_other hApart _ _
  have hNext :=
    hReplacing.enter (point store.dir temp none)
      (point_self _ _ _) ?_ ?_
  · exact ⟨hNext.1, hNext.2, hFile⟩
  · intro name i hName
    by_cases hSame : name = temp
    · rw [hSame, point_self] at hName
      cases hName
    · rw [point_other hSame] at hName
      exact
        hReplacing.known store.dir hReplacing.current name _
          hName
  · intro i hPlace
    rw [hFile] at hPlace
    exact hReplacing.whole store.dir hReplacing.current i hPlace

/- The file that is found is a whole one from before. -/
theorem Replacing.powerLoss
    (hReplacing : store.Replacing file temp Whole)
    {found : Nat}
    {torn : Nat → List Byte}
    {next : FileStore Name Byte}
    (hLoss : store.powerLoss found torn = some next) :
    next.Replacing file temp Whole := by
  unfold FileStore.powerLoss at hLoss
  cases hPast : store.past[found]? with
  | none => simp [hPast] at hLoss
  | some dir =>
      simp only [hPast] at hLoss
      cases hLoss
      have hDir := List.mem_of_getElem? hPast
      refine ⟨List.mem_singleton.mpr rfl, ?_, ?_, ?_⟩
      · intro other hOther name i hName
        rw [List.mem_singleton.mp hOther] at hName
        rw [List.length_mapIdx]
        exact hReplacing.known dir hDir name i hName
      · intro other hOther i hFile
        rw [List.mem_singleton.mp hOther] at hFile
        rcases hReplacing.whole dir hDir i hFile with
          ⟨data, hInode, hWhole⟩
        refine ⟨data, ?_, hWhole⟩
        rw [List.getElem?_mapIdx, hInode]
        rfl
      · intro other hOther i hFile
        rw [List.mem_singleton.mp hOther] at hFile ⊢
        have hAway := (hReplacing.apart dir hDir i hFile).2
        exact ⟨hAway, hAway⟩

/- What counts as whole may grow. -/
theorem Replacing.mono
    {More : List Byte → Prop}
    (hReplacing : store.Replacing file temp Whole)
    (hMore : ∀ data, Whole data → More data) :
    store.Replacing file temp More where
  current := hReplacing.current
  known := hReplacing.known
  whole := by
    intro dir hDir i hFile
    rcases hReplacing.whole dir hDir i hFile with
      ⟨data, hInode, hWhole⟩
    exact ⟨data, hInode, hMore data hWhole⟩
  apart := hReplacing.apart

end FileStore

end Library

------------------------------------------------------------
-- A File That Is Always There
------------------------------------------------------------

namespace Library

namespace FileStore

variable {Name Byte : Type}
variable {store : FileStore Name Byte}
variable {file temp : Name}

/- Every directory that may be found has the file. -/
def Present
    (store : FileStore Name Byte)
    (file : Name) : Prop :=
  ∀ dir ∈ store.past, dir file ≠ none

theorem Present.enter
    {dir : Name → Option Nat}
    (hPresent : store.Present file)
    (hThere : dir file ≠ none) :
    (store.enter dir).Present file := by
  intro other hOther
  rcases List.mem_append.mp hOther with hPast | hNew
  · exact hPresent other hPast
  · rw [List.mem_singleton.mp hNew]
    exact hThere

theorem Present.create
    [DecidableEq Name]
    (hApart : file ≠ temp)
    (hPresent : store.Present file)
    (hCurrent : store.dir ∈ store.past) :
    (store.create temp).2.Present file := by
  unfold FileStore.create
  cases store.dir temp with
  | some i => exact hPresent
  | none =>
      refine Present.enter hPresent ?_
      rw [point_other hApart]
      exact hPresent store.dir hCurrent

theorem Present.write
    (hPresent : store.Present file)
    (i : Nat)
    (bytes : List Byte) :
    (store.write i bytes).Present file := by
  unfold FileStore.write
  cases store.inodes[i]? with
  | none => exact hPresent
  | some inode => exact hPresent

theorem Present.sync
    (hPresent : store.Present file)
    (i : Nat) :
    (store.sync i).Present file := by
  unfold FileStore.sync
  cases store.inodes[i]? with
  | none => exact hPresent
  | some inode => exact hPresent

theorem Present.rename
    [DecidableEq Name]
    (hApart : file ≠ temp)
    (hPresent : store.Present file) :
    (store.rename temp file).Present file := by
  unfold FileStore.rename
  cases store.dir temp with
  | none => exact hPresent
  | some i =>
      apply hPresent.enter
      rw [point_other hApart, point_self]
      exact Option.some_ne_none i

theorem Present.remove
    [DecidableEq Name]
    (hApart : file ≠ temp)
    (hPresent : store.Present file)
    (hCurrent : store.dir ∈ store.past) :
    (store.remove temp).Present file := by
  apply hPresent.enter
  rw [point_other hApart]
  exact hPresent store.dir hCurrent

theorem Present.powerLoss
    {found : Nat}
    {torn : Nat → List Byte}
    {next : FileStore Name Byte}
    (hPresent : store.Present file)
    (hLoss : store.powerLoss found torn = some next) :
    next.Present file := by
  unfold FileStore.powerLoss at hLoss
  cases hPast : store.past[found]? with
  | none => simp [hPast] at hLoss
  | some dir =>
      simp only [hPast] at hLoss
      cases hLoss
      intro other hOther
      rw [List.mem_singleton.mp hOther]
      exact hPresent dir (List.mem_of_getElem? hPast)

end FileStore

end Library
