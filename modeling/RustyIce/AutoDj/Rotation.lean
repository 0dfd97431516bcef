import RustyIce.Library.Cycle
import RustyIce.Admin.Title
import RustyIce.AutoDj.Playlist
import RustyIce.Server.MountSystem

/-
  A rotation track by track: the passes of the player over
  its playlist on a mount that live sources and the
  administrator use as well.

  A pass is the player's phase `playing`; this module adds
  where in the list it is. The files played are remembered
  pass by pass, and so is who last wrote the title.

  Main declarations:
    * `AutoDjPlayer`, `PassPhase`
    * `Rotation`, `Rotation.step`, `rotationMachine`
    * `Rotation.InOrder`, `Rotation.WholePasses`
    * `cyclicOrder_iff`
-/

------------------------------------------------------------
-- Passes
------------------------------------------------------------

namespace RustyIce

namespace AutoDj

structure AutoDjPlayer where
  folder : Folder
  order : Order
  readTag : TrackPath → Option Tag

namespace AutoDjPlayer

/- The files of the folder, sorted. -/
def tracks (dj : AutoDjPlayer) : List TrackPath :=
  (scan dj.folder).getD []

def scanned (dj : AutoDjPlayer) : ScanResult :=
  match scan dj.folder with
  | none => .failed
  | some [] => .empty
  | some (_ :: _) => .tracks

def title
    (dj : AutoDjPlayer)
    (track : TrackPath) : String :=
  displayTitle dj.readTag track

end AutoDjPlayer

/-
  Where `play_playlist` is: before it has a pipeline, at the
  head of its loop, past the check there with a track to
  play, or inside `play_track`.
-/
inductive PassPhase where
| starting
| between (rest : List TrackPath)
| picked (track : TrackPath) (rest : List TrackPath)
| inTrack (rest : List TrackPath)
deriving DecidableEq, Repr

/- What is still to be started. -/
def PassPhase.rest : PassPhase → Option (List TrackPath)
| .starting => none
| .between rest => some rest
| .picked track rest => some (track :: rest)
| .inTrack rest => some rest

/-
  A mount with a rotation. `ended` and `started` are the
  tracks started in the passes before and in this one;
  `adminTitle` is what the administrator set and has not
  cleared, and `byTrack` tells that a track has been titled
  since he last did either.
-/
structure Rotation where
  system : MountSystem
  pass : PassPhase
  ended : List (List TrackPath)
  started : List TrackPath
  adminTitle : Option String
  byTrack : Bool

inductive RotationLabel where
| system (label : MountLabel)
| openPipeline (tracks : List TrackPath)
| pickTrack
| startTrack
| endTrack
| setTitle (title : String)
| clearTitle
deriving DecidableEq, Repr

end AutoDj

namespace Slot

def storeTitle
    (s : Slot)
    (title : Option String) : Slot :=
  { s with mount := { s.mount with currentTitle := title } }

end Slot

/- A pass is going on; its flag of cancellation. -/
def Task.playing : Task → Option Bool
| .player _ (.playing _ combined) => some combined
| _ => none

namespace AutoDj

namespace Rotation

/- The tracks started so far. -/
def log (s : Rotation) : List TrackPath :=
  s.ended.flatten ++ s.started

def storeTitle
    (s : Rotation)
    (title : Option String) : Rotation :=
  { s with
    system :=
      { s.system with
        slot := s.system.slot.storeTitle title } }

/- What the administrator's answer stores. -/
def storeReply
    (s : Rotation)
    (reply : Admin.TitleReply) : Rotation :=
  match reply.stored with
  | none => s
  | some title =>
      { s.storeTitle title with
        adminTitle := title
        byTrack := false }

/-
  The events of the player that its place in the list and
  the folder leave it: chunks are of a track, the loop is
  left when cancelled or at its end, and a pass without a
  pipeline is over.
-/
def Allows
    (dj : AutoDjPlayer)
    (s : Rotation) : MountLabel → Prop
| .player _ (.scanned result) => result = dj.scanned
| .player _ (.chunk _) =>
    match s.pass with
    | .starting => False
    | .between rest =>
        rest ≠ [] ∧ s.system.task.playing = some true
    | .picked _ _ => False
    | .inTrack _ => True
| .player _ .finish =>
    s.pass = .starting ∨ s.pass = .between []
| .player _ .go => True
| .player _ .bridge => True
| .relay _ _ => True
| .arrive _ _ _ _ => True
| .source _ _ _ => True
| .capture _ _ => True
| .kick => True
| .cancelTask => True

instance
    (dj : AutoDjPlayer)
    (s : Rotation)
    (label : MountLabel) :
    Decidable (s.Allows dj label) := by
  unfold Allows
  split
  · infer_instance
  · split <;> infer_instance
  all_goals infer_instance

/- The mount after an event; a pass may be over. -/
def afterSystem
    (s : Rotation)
    (system : MountSystem) : Rotation :=
  { s with
    system := system
    pass :=
      if system.task.playing = none then .starting
      else s.pass }

def step
    (dj : AutoDjPlayer)
    (s : Rotation) : RotationLabel → Option Rotation
| .system label =>
    if s.Allows dj label then
      (s.system.step label).map s.afterSystem
    else
      none
| .openPipeline tracks =>
    match s.system.task.playing, s.pass with
    | some _, .starting =>
        if Ordered dj.order dj.tracks tracks then
          some
            { s with
              pass := .between tracks
              ended := s.ended ++ [s.started]
              started := [] }
        else
          none
    | _, _ => none
| .pickTrack =>
    match s.system.task.playing, s.pass with
    | some false, .between (track :: rest) =>
        some { s with pass := .picked track rest }
    | _, _ => none
| .startTrack =>
    match s.system.task.playing, s.pass with
    | some _, .picked track rest =>
        some
          { s.storeTitle (some (dj.title track)) with
            pass := .inTrack rest
            started := s.started ++ [track]
            byTrack := true }
    | _, _ => none
| .endTrack =>
    match s.system.task.playing, s.pass with
    | some _, .inTrack rest =>
        some { s with pass := .between rest }
    | _, _ => none
| .setTitle title =>
    some (s.storeReply (Admin.setTitle true title))
| .clearTitle => some (s.storeReply (Admin.clearTitle true))

/- Before anything happened. -/
def fresh (system : MountSystem) : Rotation where
  system := system
  pass := .starting
  ended := []
  started := []
  adminTitle := none
  byTrack := false

end Rotation

/- A mount nobody has used, with a player before its first step. -/
def rotationMachine (dj : AutoDjPlayer) :
    Library.Machine Rotation RotationLabel where
  init := fun s =>
    ∃ system,
      mountMachine.init system ∧
        (∃ loopPlaylist,
          system.task = .player loopPlaylist .top) ∧
          s = .fresh system
  step := Rotation.step dj

end AutoDj

end RustyIce

------------------------------------------------------------
-- Passes Are Prefixes
------------------------------------------------------------

namespace RustyIce

namespace AutoDj

namespace Rotation

/- Every pass has begun the list it was given. -/
structure InOrder
    (tracks : List TrackPath)
    (s : Rotation) : Prop where
  ended : ∀ round ∈ s.ended, round <+: tracks
  started : s.started <+: tracks
  rest :
    ∀ rest,
      s.pass.rest = some rest → s.started ++ rest = tracks

variable {dj : AutoDjPlayer}
variable {s t : Rotation}

theorem inOrder_fresh
    (tracks : List TrackPath)
    (system : MountSystem) :
    InOrder tracks (fresh system) where
  ended := List.forall_mem_nil _
  started := List.nil_prefix
  rest := by
    intro rest hRest
    cases hRest

/- The lists alone matter. -/
theorem InOrder.of_same
    {tracks : List TrackPath}
    (hOrder : InOrder tracks s)
    (hEnded : t.ended = s.ended)
    (hStarted : t.started = s.started)
    (hRest :
      ∀ rest,
        t.pass.rest = some rest →
          s.pass.rest = some rest) :
    InOrder tracks t where
  ended := hEnded ▸ hOrder.ended
  started := hStarted ▸ hOrder.started
  rest := by
    intro rest hHere
    rw [hStarted]
    exact hOrder.rest rest (hRest rest hHere)

/- The administrator does not touch the lists. -/
theorem lists_storeReply
    (s : Rotation)
    (reply : Admin.TitleReply) :
    (s.storeReply reply).ended = s.ended ∧
      (s.storeReply reply).started = s.started ∧
        (s.storeReply reply).pass = s.pass := by
  unfold storeReply
  split <;> exact ⟨rfl, rfl, rfl⟩

/-
  What a step does to the lists: it opens a pass, starts the
  next track, or leaves them.
-/
theorem lists_of_step
    {label : RotationLabel}
    (hStep : s.step dj label = some t) :
    (∃ tracks,
        label = .openPipeline tracks ∧
          Ordered dj.order dj.tracks tracks ∧
            t.ended = s.ended ++ [s.started] ∧
              t.started = [] ∧
                t.pass = .between tracks) ∨
      (∃ track rest,
        label = .startTrack ∧ s.pass = .picked track rest ∧
          t.ended = s.ended ∧
            t.started = s.started ++ [track] ∧
              t.pass = .inTrack rest) ∨
      (label ≠ .startTrack ∧ t.ended = s.ended ∧
        t.started = s.started ∧
          ∀ rest,
            t.pass.rest = some rest →
              s.pass.rest = some rest) := by
  cases label with
  | system label =>
      refine .inr (.inr ⟨by simp, ?_⟩)
      simp only [step] at hStep
      split at hStep
      · rcases Option.map_eq_some_iff.mp hStep with
          ⟨system, _, rfl⟩
        refine ⟨rfl, rfl, ?_⟩
        intro rest hRest
        simp only [afterSystem] at hRest
        split at hRest
        · cases hRest
        · exact hRest
      · cases hStep
  | openPipeline tracks =>
      simp only [step] at hStep
      split at hStep
      · split at hStep
        · rename_i hOrdered
          cases hStep
          exact
            .inl ⟨tracks, rfl, hOrdered, rfl, rfl, rfl⟩
        · cases hStep
      · cases hStep
  | pickTrack =>
      refine .inr (.inr ⟨by simp, ?_⟩)
      simp only [step] at hStep
      split at hStep
      · rename_i track rest hTask hPass
        cases hStep
        rw [hPass]
        exact ⟨rfl, rfl, fun _ hRest => hRest⟩
      · cases hStep
  | startTrack =>
      simp only [step] at hStep
      split at hStep
      · rename_i combined track rest hTask hPass
        cases hStep
        exact
          .inr
            (.inl
              ⟨track, rest, rfl, hPass, rfl, rfl, rfl⟩)
      · cases hStep
  | endTrack =>
      refine .inr (.inr ⟨by simp, ?_⟩)
      simp only [step] at hStep
      split at hStep
      · rename_i combined rest hTask hPass
        cases hStep
        rw [hPass]
        exact ⟨rfl, rfl, fun _ hRest => hRest⟩
      · cases hStep
  | setTitle | clearTitle =>
      refine .inr (.inr ⟨by simp, ?_⟩)
      cases hStep
      obtain ⟨hEnded, hStarted, hPass⟩ :=
        lists_storeReply s _
      refine ⟨hEnded, hStarted, ?_⟩
      intro rest hRest
      rwa [hPass] at hRest

/- A sequential player takes the files as they are sorted. -/
theorem inOrder_step
    (hSequential : dj.order = .sequential)
    (hOrder : InOrder dj.tracks s)
    {label : RotationLabel}
    (hStep : s.step dj label = some t) :
    InOrder dj.tracks t := by
  rcases lists_of_step hStep with
    ⟨tracks, _, hOrdered, hEnded, hStarted, hPass⟩ |
      ⟨track, rest, _, hPicked, hEnded, hStarted, hPass⟩ |
        ⟨_, hEnded, hStarted, hRest⟩
  · rw [hSequential] at hOrdered
    have hSame : tracks = dj.tracks := hOrdered
    constructor
    · rw [hEnded]
      intro round hMem
      rcases List.mem_append.mp hMem with hOld | hNew
      · exact hOrder.ended round hOld
      · rw [List.mem_singleton.mp hNew]
        exact hOrder.started
    · rw [hStarted]
      exact List.nil_prefix
    · intro rest hHere
      rw [hPass] at hHere
      cases hHere
      rw [hStarted, hSame]
      rfl
  · have hWhole :
        (s.started ++ [track]) ++ rest = dj.tracks := by
      rw [List.append_assoc]
      apply hOrder.rest
      rw [hPicked]
      rfl
    constructor
    · rw [hEnded]
      exact hOrder.ended
    · rw [hStarted]
      exact ⟨rest, hWhole⟩
    · intro other hHere
      rw [hPass] at hHere
      cases hHere
      rw [hStarted]
      exact hWhole
  · exact hOrder.of_same hEnded hStarted hRest

end Rotation

end AutoDj

end RustyIce

------------------------------------------------------------
-- The Cyclic Order
------------------------------------------------------------

namespace RustyIce

namespace AutoDj

theorem AutoDjPlayer.nodup_tracks (dj : AutoDjPlayer) :
    dj.tracks.Nodup := by
  unfold tracks
  cases hScan : scan dj.folder with
  | none => exact List.nodup_nil
  | some tracks => exact nodup_scan hScan

namespace Rotation

/- The tracks were started in the order of the folder. -/
def InCyclicOrder
    (dj : AutoDjPlayer)
    (s : Rotation) : Prop :=
  Library.Cycles dj.tracks s.log

/-
  A track is started only if every earlier pass had started
  all of the tracks, or none.
-/
def WholePasses
    (dj : AutoDjPlayer)
    (s : Rotation)
    (label : RotationLabel) : Prop :=
  label = .startTrack →
    ∀ round ∈ s.ended, round = [] ∨ round = dj.tracks

instance
    (dj : AutoDjPlayer)
    (s : Rotation)
    (label : RotationLabel) :
    Decidable (s.WholePasses dj label) := by
  unfold WholePasses
  infer_instance

variable {dj : AutoDjPlayer}
variable {s t : Rotation}

/- A step keeps the order exactly if it may be taken. -/
theorem inCyclicOrder_step
    (hCyclic : s.InCyclicOrder dj)
    (hNext : InOrder dj.tracks t)
    {label : RotationLabel}
    (hStep : s.step dj label = some t) :
    t.InCyclicOrder dj ↔ s.WholePasses dj label := by
  rcases lists_of_step hStep with
    ⟨tracks, hLabel, _, hEnded, hStarted, _⟩ |
      ⟨track, rest, hLabel, _, hEnded, hStarted, _⟩ |
        ⟨hLabel, hEnded, hStarted, _⟩
  · refine iff_of_true ?_ (by simp [WholePasses, hLabel])
    simpa [InCyclicOrder, log, hEnded, hStarted] using
      hCyclic
  · have hSome : t.started ≠ [] := by simp [hStarted]
    unfold InCyclicOrder log WholePasses
    rw [Library.cycles_rounds_iff dj.nodup_tracks hNext.ended
      hNext.started hSome, hEnded]
    simp [hLabel]
  · refine iff_of_true ?_ fun hStart => absurd hStart hLabel
    simpa [InCyclicOrder, log, hEnded, hStarted] using
      hCyclic

/- Before the first track the order is kept. -/
theorem inCyclicOrder_fresh
    (dj : AutoDjPlayer)
    (system : MountSystem) :
    (fresh system).InCyclicOrder dj :=
  Library.cycles_nil _

end Rotation

/-
  A run starts the tracks in the cyclic order of the folder
  exactly if no track is started after a pass that was
  interrupted between its first track and its last.
-/
theorem cyclicOrder_iff
    (dj : AutoDjPlayer)
    (hSequential : dj.order = .sequential)
    {s t : Rotation}
    {labels : List RotationLabel}
    (hInit : (rotationMachine dj).init s)
    (hRun : (rotationMachine dj).run s labels = some t) :
    (rotationMachine dj).Along (·.InCyclicOrder dj) s
        labels ↔
      (rotationMachine dj).Admits (·.WholePasses dj) s
        labels := by
  rcases hInit with ⟨system, _, _, rfl⟩
  apply
    Library.Machine.along_iff_admits
      (I := Rotation.InOrder dj.tracks) ?_ ?_
      (Rotation.inOrder_fresh _ _)
      (Rotation.inCyclicOrder_fresh _ _) hRun
  · intro u label v hOrder hStep
    exact Rotation.inOrder_step hSequential hOrder hStep
  · intro u label v hOrder hCyclic hStep
    exact
      Rotation.inCyclicOrder_step hCyclic
        (Rotation.inOrder_step hSequential hOrder hStep)
        hStep

/- A folder of two files, in the order a walk found them. -/
def twoTracks : AutoDjPlayer where
  folder :=
    { isDir := true
      entries :=
        [⟨[utf8Bytes "b.ogg"], true⟩,
          ⟨[utf8Bytes "a.mp3"], true⟩]
      distinct := by decide }
  order := .sequential
  readTag := fun _ => none

/- A pass begins and starts its first track. -/
def firstTrack : List RotationLabel :=
  playing.map .system ++
    [.openPipeline twoTracks.tracks, .pickTrack, .startTrack]

/- A kick ends the pass, and the player is at the top again. -/
def kickedOff : List RotationLabel :=
  [.system .kick, .system (.player 0 .bridge),
      .system (.player 0 (.chunk none))] ++
    List.replicate 9 (.system (.player 0 .go))

/- A player of a mount nobody has used. -/
def idlePlayer : Rotation :=
  .fresh (.idle (.player true .top))

theorem init_idlePlayer (dj : AutoDjPlayer) :
    (rotationMachine dj).init idlePlayer :=
  ⟨_, MountSystem.init_idle (.player true .top) rfl,
    ⟨true, rfl⟩, rfl⟩

/- After the kick the first track is started again. -/
theorem kickedRotation_not_cyclic :
    ∃ t,
      (rotationMachine twoTracks).run idlePlayer
          (firstTrack ++ kickedOff ++ firstTrack) =
        some t ∧
        (rotationMachine twoTracks).Reachable t ∧
          ¬ t.InCyclicOrder twoTracks := by
  refine ⟨_, rfl, ?_, ?_⟩
  · exact
      Library.Machine.reachable_of_run
        (init_idlePlayer twoTracks)
        (rfl :
          (rotationMachine twoTracks).run idlePlayer
              (firstTrack ++ kickedOff ++ firstTrack) =
            some _)
  · intro hCyclic
    exact absurd (hCyclic 1 (by decide)) (by decide)

/- A kick during the last track, and another pass. -/
def kickedAtLast : List RotationLabel :=
  firstTrack ++ [.endTrack, .pickTrack, .startTrack] ++
    kickedOff ++ firstTrack ++
      [.endTrack, .pickTrack, .startTrack]

/- The next pass begins where the order goes on. -/
theorem cyclicOrder_kickedAtLast :
    (rotationMachine twoTracks).Along
      (·.InCyclicOrder twoTracks) idlePlayer
      kickedAtLast := by
  apply
    (cyclicOrder_iff twoTracks rfl
      (init_idlePlayer twoTracks) rfl).mpr
  exact
    Library.Machine.admits_of_runUnder
      (rfl :
        (rotationMachine twoTracks).runUnder
            (·.WholePasses twoTracks) idlePlayer
            kickedAtLast =
          some _)

end AutoDj

end RustyIce
