import RustyIce.AutoDj.Playback
import RustyIce.Library.Machine
import RustyIce.Library.Spacing

/-
  The loop of a rotation, turn by turn: whether anything is
  published or waited for between two scans of the folder.

  A turn is what the loop is told in one iteration, the
  contents of the folder among it. A pass in which nothing
  comes out of the pipeline returns without a wait, and one
  whose pipeline panics takes the loop with it.

  Main declarations:
    * `Turn`, `LoopState`, `playerLoop`
    * `listen`, `Heard`, `Stopped`
    * `playPlaylist_follows`
    * `Turn.Progresses`, `Turn.Waits`
    * `neverSpins_iff`
-/

------------------------------------------------------------
-- The Loop
------------------------------------------------------------

namespace RustyIce

namespace AutoDj

open Transcode

/- What a rotation is started with. -/
structure PlayerConfig where
  order : Order
  loopPlaylist : Bool
  transcode : TranscodeConfig
  vorbisComments : List (String × String)
  readTag : TrackPath → Option Tag

/-
  What one iteration of the loop is told: whether the server
  is shutting down, the looks at the slot and the rounds of
  waiting for it, the folder and the files in it, the claim
  of the slot, what the token of the pass answers, and the
  flag that is swapped behind it.
-/
structure Turn (Sample : Type) where
  shutdown : Bool
  connected : Bool
  rounds : Nat
  shutdownWaiting : Bool
  folder : Folder
  tracks : List TrackPath
  opens : TrackPath → Except String (FileDecoder Sample)
  claims : Bool
  sourceCancel : Option (List Bool)
  shutdownAfter : Bool
  preemptPending : Bool

/- What can be seen of the loop from outside. -/
inductive LoopEvent where
| scanned
| published
| waited
deriving DecidableEq, Repr

structure LoopState where
  running : Bool
  log : List LoopEvent
deriving DecidableEq, Repr

variable {Sample : Type}
variable (lib : Symphonia Sample)
variable (E : Engines Sample)

namespace Turn

/- The rounds before the scan. -/
def waiting (t : Turn Sample) : List LoopEvent :=
  if t.connected then List.replicate t.rounds .waited else []

/- The loop comes to the scan. -/
def scans (t : Turn Sample) : Bool :=
  !t.shutdown && !(t.connected && t.shutdownWaiting)

/- The pass over the tracks. -/
def pass
    (dj : PlayerConfig)
    (t : Turn Sample) :
    Option PassOutcome × PlaySession lib E :=
  playPlaylist t.opens dj.readTag dj.transcode
    dj.vorbisComments t.sourceCancel t.tracks

/- What a pass and the way out of it give. -/
def played
    (dj : PlayerConfig)
    (t : Turn Sample)
    (outcome : Option PassOutcome × PlaySession lib E) :
    List LoopEvent × Bool :=
  let packets :=
    List.replicate outcome.2.publisher.bus.length .published
  match outcome.1 with
  | none => (packets, false)
  | some .completed => (packets, dj.loopPlaylist)
  | some .cancelled =>
      if t.shutdownAfter then (packets, false)
      else if t.preemptPending then
        (packets ++ [.waited], true)
      else (packets, true)

/- From the scan on, and whether the loop goes on. -/
def afterScan
    (dj : PlayerConfig)
    (t : Turn Sample) : List LoopEvent × Bool :=
  match scan t.folder with
  | none => ([], false)
  | some [] => ([.waited], true)
  | some (_ :: _) =>
      if t.claims then t.played lib E dj (t.pass lib E dj)
      else ([], true)

/- One iteration of `AutoDjPlayer::run`. -/
def exec
    (dj : PlayerConfig)
    (t : Turn Sample) : List LoopEvent × Bool :=
  if t.shutdown then ([], false)
  else if t.connected && t.shutdownWaiting then
    (t.waiting, false)
  else
    let (later, goesOn) := t.afterScan lib E dj
    (t.waiting ++ .scanned :: later, goesOn)

/- The tracks are those of the scan, in the order asked for. -/
def Ordered
    (dj : PlayerConfig)
    (t : Turn Sample) : Prop :=
  ∀ scanned ∈ scan t.folder,
    RustyIce.Ordered dj.order scanned t.tracks

instance (dj : PlayerConfig) (t : Turn Sample) :
    Decidable (t.Ordered dj) :=
  inferInstanceAs
    (Decidable
      (∀ scanned ∈ scan t.folder,
        RustyIce.Ordered dj.order scanned t.tracks))

end Turn

def LoopState.start : LoopState where
  running := true
  log := []

def LoopState.step
    (dj : PlayerConfig)
    (s : LoopState)
    (t : Turn Sample) : Option LoopState :=
  if s.running ∧ t.Ordered dj then
    some
      { running := (t.exec lib E dj).2
        log := s.log ++ (t.exec lib E dj).1 }
  else
    none

/- The loop of a rotation over its turns. -/
def playerLoop (dj : PlayerConfig) :
    Library.Machine LoopState (Turn Sample) where
  init := fun s => s = .start
  step := LoopState.step lib E dj

/- Something comes between two scans. -/
def NeverSpins (log : List LoopEvent) : Prop :=
  Library.Spaced .scanned log

instance (log : List LoopEvent) : Decidable (NeverSpins log) :=
  inferInstanceAs (Decidable (Library.Spaced _ log))

end AutoDj

end RustyIce

------------------------------------------------------------
-- What Comes Out Of A Pass First
------------------------------------------------------------

namespace RustyIce

namespace AutoDj

open Transcode

variable {Sample : Type}
variable {lib : Symphonia Sample}
variable {E : Engines Sample}

/-
  The looks at the token of a pass that publishes nothing,
  each with the chunk that is decoded behind it, if any: one
  ahead of each track, one for each chunk of a file that can
  be opened, and one at its end.
-/
def lookPoints
    (opens : TrackPath → Except String (FileDecoder Sample))
    (tracks : List TrackPath) : List (Option (Pcm Sample)) :=
  tracks.flatMap fun track =>
    none ::
      match opens track with
      | .error _ => []
      | .ok decoder => decoder.chunks.map some ++ [none]

/- The pipeline puts something out for the chunk. -/
def PutsOut
    (p : TranscodePipeline lib E)
    (chunk : Pcm Sample) : Prop :=
  ∃ out, (p.pushPcm chunk).1 = .ok out ∧ out ≠ []

/- The pipeline behind one look, and behind some of them. -/
def pushPoint
    (p : TranscodePipeline lib E)
    (point : Option (Pcm Sample)) :
    TranscodePipeline lib E :=
  match point with
  | none => p
  | some chunk => (p.pushPcm chunk).2

def pushed
    (p : TranscodePipeline lib E)
    (points : List (Option (Pcm Sample))) :
    TranscodePipeline lib E :=
  points.foldl pushPoint p

/-
  A chunk the pipeline puts something out for is reached
  before the token is cancelled.
-/
def Heard
    (p : TranscodePipeline lib E)
    (looks : List Bool)
    (points : List (Option (Pcm Sample))) : Prop :=
  ∃ before chunk after,
    points = before ++ some chunk :: after ∧
      PutsOut (pushed p before) chunk ∧
        true ∉ looks.take (before.length + 1)

/- One of the looks finds the token cancelled. -/
def Stopped
    (looks : List Bool)
    (points : List (Option (Pcm Sample))) : Prop :=
  true ∈ looks.take points.length

/- How a stretch of a pass ends that published nothing yet. -/
inductive Listening
    (lib : Symphonia Sample)
    (E : Engines Sample) where
| heard
| stopped
| silent (p : TranscodePipeline lib E) (looks : List Bool)

/- Behind one look, unless something comes out. -/
def hear
    (p : TranscodePipeline lib E)
    (point : Option (Pcm Sample)) :
    Option (TranscodePipeline lib E) :=
  match point with
  | none => some p
  | some chunk =>
      match p.pushPcm chunk with
      | (.error _, next) => some next
      | (.ok out, next) => if out = [] then some next else none

/- A pass up to its first packet. -/
def listen
    (p : TranscodePipeline lib E)
    (looks : List Bool) :
    List (Option (Pcm Sample)) → Listening lib E
| [] => .silent p looks
| point :: points =>
    if looks.headD false then .stopped
    else
      match hear p point with
      | none => .heard
      | some next => listen next looks.tail points

variable {p : TranscodePipeline lib E}
variable {looks : List Bool}
variable {point : Option (Pcm Sample)}
variable {points : List (Option (Pcm Sample))}

theorem listen_append
    (before after : List (Option (Pcm Sample))) :
    listen p looks (before ++ after) =
      match listen p looks before with
      | .heard => .heard
      | .stopped => .stopped
      | .silent next later => listen next later after := by
  induction before generalizing p looks with
  | nil => rfl
  | cons point before ih =>
      rw [List.cons_append, listen, listen]
      split
      · rfl
      · cases hear p point with
        | none => rfl
        | some next => exact ih

theorem hear_eq_none_iff :
    hear p point = none ↔
      ∃ chunk, point = some chunk ∧ PutsOut p chunk := by
  cases point with
  | none => simp [hear]
  | some chunk =>
      simp only [hear, PutsOut, Option.some.injEq,
        exists_eq_left']
      rcases p.pushPcm chunk with ⟨result, next⟩
      cases result with
      | error e => simp
      | ok out => simp

theorem pushPoint_of_hear
    {next : TranscodePipeline lib E}
    (hHear : hear p point = some next) :
    pushPoint p point = next := by
  cases point with
  | none =>
      cases hHear
      rfl
  | some chunk =>
      simp only [hear] at hHear
      split at hHear
      · rename_i hPush
        cases hHear
        rw [pushPoint, hPush]
      · rename_i hPush
        split at hHear
        · cases hHear
          rw [pushPoint, hPush]
        · cases hHear

/- A look that finds nothing passes on to the rest. -/
theorem notMem_take_succ_iff
    (looks : List Bool)
    (count : Nat) :
    true ∉ looks.take (count + 1) ↔
      looks.headD false = false ∧
        true ∉ looks.tail.take count := by
  cases looks with
  | nil => simp
  | cons look looks => cases look <;> simp

theorem not_heard_of_headD
    (hLook : looks.headD false = true) :
    ¬ Heard p looks points := by
  rintro ⟨before, chunk, after, _, _, hQuiet⟩
  rw [notMem_take_succ_iff, hLook] at hQuiet
  cases hQuiet.1

/- The chunk is this one, or comes behind this look. -/
theorem heard_cons_iff
    (hLook : looks.headD false = false) :
    Heard p looks (point :: points) ↔
      hear p point = none ∨
        Heard (pushPoint p point) looks.tail points := by
  rw [hear_eq_none_iff]
  constructor
  · rintro ⟨before, chunk, after, hSplit, hOut, hQuiet⟩
    cases before with
    | nil =>
        cases hSplit
        exact .inl ⟨chunk, rfl, hOut⟩
    | cons first before =>
        cases hSplit
        exact
          .inr
            ⟨before, chunk, after, rfl, hOut,
              ((notMem_take_succ_iff _ _).mp hQuiet).2⟩
  · rintro (⟨chunk, rfl, hOut⟩ | hLater)
    · refine ⟨[], chunk, points, rfl, hOut, ?_⟩
      rw [List.length_nil, notMem_take_succ_iff]
      exact ⟨hLook, by simp⟩
    · rcases hLater with
        ⟨before, chunk, after, rfl, hOut, hQuiet⟩
      refine
        ⟨point :: before, chunk, after, rfl, hOut, ?_⟩
      rw [List.length_cons, notMem_take_succ_iff]
      exact ⟨hLook, hQuiet⟩

/- Two descriptions of the first packet. -/
theorem listen_eq_heard_iff
    (p : TranscodePipeline lib E)
    (looks : List Bool)
    (points : List (Option (Pcm Sample))) :
    listen p looks points = .heard ↔
      Heard p looks points := by
  induction points generalizing p looks with
  | nil =>
      refine iff_of_false (fun hHeard => by cases hHeard) ?_
      rintro ⟨before, chunk, after, hSplit, _⟩
      exact absurd hSplit (by simp)
  | cons point points ih =>
      rw [listen]
      cases hLook : looks.headD false with
      | true =>
          rw [if_pos rfl]
          exact
            iff_of_false (fun hHeard => by cases hHeard)
              (not_heard_of_headD hLook)
      | false =>
          rw [if_neg Bool.false_ne_true, heard_cons_iff hLook,
            ← ih]
          cases hHear : hear p point with
          | none => simp
          | some next => simp [pushPoint_of_hear hHear]

/- A pass that is not heard ends by its token or by itself. -/
theorem listen_eq_stopped_iff
    (hNot : ¬ Heard p looks points) :
    listen p looks points = .stopped ↔
      Stopped looks points := by
  induction points generalizing p looks with
  | nil =>
      refine iff_of_false (fun hStop => by cases hStop) ?_
      simp [Stopped]
  | cons point points ih =>
      have hTake := notMem_take_succ_iff looks points.length
      rw [listen, Stopped, List.length_cons, ← not_iff_not,
        hTake]
      cases hLook : looks.headD false with
      | true => simp
      | false =>
          rw [heard_cons_iff hLook, not_or] at hNot
          cases hHear : hear p point with
          | none => exact absurd hHear hNot.1
          | some next =>
              have hNext := hNot.2
              rw [pushPoint_of_hear hHear] at hNext
              simp [ih hNext, Stopped]

end AutoDj

end RustyIce

------------------------------------------------------------
-- A Pass And Its First Packet
------------------------------------------------------------

namespace RustyIce

namespace AutoDj

open Transcode

variable {Sample : Type}
variable {lib : Symphonia Sample}
variable {E : Engines Sample}
variable {s t u : PlaySession lib E}

/- What is published stays, and only more comes. -/
def Grows (s t : PlaySession lib E) : Prop :=
  s.publisher.bus.length ≤ t.publisher.bus.length

/-
  A stretch of a pass that ends as listening does: once it
  was heard, there is more on the bus.
-/
def Follows
    (s t : PlaySession lib E)
    (cancelled : Prop) : Listening lib E → Prop
| .heard =>
    s.publisher.bus.length < t.publisher.bus.length
| .stopped => cancelled ∧ t.publisher = s.publisher
| .silent p looks =>
    ¬ cancelled ∧ t.publisher = s.publisher ∧
      t.pipeline = p ∧ t.looks = looks

/- A stretch that published nothing may come before. -/
theorem Follows.after
    {cancelled : Prop}
    {ending : Listening lib E}
    (hFollows : Follows t u cancelled ending)
    (hSilent : t.publisher = s.publisher) :
    Follows s u cancelled ending := by
  cases ending with
  | heard =>
      simp only [Follows] at hFollows ⊢
      rwa [← hSilent]
  | stopped => exact ⟨hFollows.1, hFollows.2.trans hSilent⟩
  | silent p looks =>
      exact
        ⟨hFollows.1, hFollows.2.1.trans hSilent, hFollows.2.2⟩

namespace PlaySession

variable {codec : CodecId}
variable {outputBps fuel : Nat}
variable {decoder : FileDecoder Sample}
variable {result : Except PlayError Unit}
variable {ending : Option (Except PlayError Unit)}
variable {data : Bytes}

theorem isCancelled_headD (s : PlaySession lib E) :
    s.isCancelled =
      (s.looks.headD false,
        { s with looks := s.looks.tail }) := by
  unfold isCancelled
  rcases s with ⟨pipeline, publisher, bytes, title, looks⟩
  cases looks with
  | nil => rfl
  | cons look looks => rfl

theorem length_publishEncoded
    (s : PlaySession lib E)
    (codec : CodecId)
    (data : Bytes) :
    (s.publishEncoded codec data).publisher.bus.length =
      s.publisher.bus.length + 1 := by
  simp [PlaySession.publishEncoded, Publisher.publishEncoded,
    (s.publisher.captureHeaders_frame data).1]

/- A packet, and the wait for its playback time. -/
theorem length_pace
    (hPace :
      (s.publishEncoded codec data).pace outputBps =
        (result, t)) :
    t.publisher.bus.length =
      s.publisher.bus.length + 1 := by
  rw [pace_eq hPace]
  exact length_publishEncoded s codec data

theorem grows_playChunks
    (hPlay :
      s.playChunks codec outputBps fuel decoder =
        (ending, t)) :
    Grows s t := by
  unfold Grows
  induction fuel generalizing s decoder with
  | zero =>
      cases hPlay
      exact Nat.le_refl _
  | succ fuel ih =>
      rw [playChunks, isCancelled_headD] at hPlay
      cases hLook : s.looks.headD false with
      | true =>
          rw [hLook] at hPlay
          cases hPlay
          exact Nat.le_refl _
      | false =>
          rw [hLook] at hPlay
          simp only at hPlay
          split at hPlay
          · cases hPlay
            exact Nat.le_refl _
          · cases hPlay
            exact Nat.le_refl _
          · split at hPlay
            · cases hPlay
              exact Nat.le_refl _
            · have hRest := ih hPlay
              exact hRest
            · split at hPlay
              · have hRest := ih hPlay
                exact hRest
              · split at hPlay
                · rename_i hPace
                  have hMore := length_pace hPace
                  cases hPlay
                  exact Nat.le_trans (Nat.le_succ _) hMore.ge
                · rename_i hPace
                  have hMore := length_pace hPace
                  have hRest := ih hPlay
                  exact
                    Nat.le_trans (Nat.le_succ _)
                      (hMore.ge.trans hRest)

theorem listen_of_headD
    {p : TranscodePipeline lib E}
    {looks : List Bool}
    {points : List (Option (Pcm Sample))}
    (hLook : looks.headD false = true)
    (hSome : points ≠ []) :
    listen p looks points = .stopped := by
  cases points with
  | nil => exact absurd rfl hSome
  | cons point points => rw [listen, if_pos hLook]

/- A look without a chunk behind it. -/
theorem listen_none
    {p : TranscodePipeline lib E}
    {looks : List Bool}
    (hLook : looks.headD false = false)
    (points : List (Option (Pcm Sample))) :
    listen p looks (none :: points) =
      listen p looks.tail points := by
  rw [listen, hLook, if_neg Bool.false_ne_true, hear]

/- A file, chunk by chunk, unless the pipeline panics. -/
theorem follows_playChunks
    (hFuel : decoder.packets.length < fuel)
    (hPlay :
      s.playChunks codec outputBps fuel decoder =
        (some result, t)) :
    Follows s t (result = .error .cancelled)
      (listen s.pipeline s.looks
        (decoder.chunks.map some ++ [none])) := by
  induction fuel generalizing s decoder with
  | zero => exact absurd hFuel (Nat.not_lt_zero _)
  | succ fuel ih =>
      rw [playChunks, isCancelled_headD] at hPlay
      cases hLook : s.looks.headD false with
      | true =>
          rw [hLook] at hPlay
          cases hPlay
          rw [listen_of_headD hLook (by simp)]
          exact ⟨rfl, rfl⟩
      | false =>
          rw [hLook] at hPlay
          simp only at hPlay
          split at hPlay
          · rename_i hNext
            cases hPlay
            rw [FileDecoder.chunks_of_next hNext (by simp),
              List.map_nil, List.nil_append,
              listen_none hLook]
            exact ⟨by simp, rfl, rfl, rfl⟩
          · rename_i hNext
            cases hPlay
            rw [FileDecoder.chunks_of_next hNext (by simp),
              List.map_nil, List.nil_append,
              listen_none hLook]
            exact ⟨by simp, rfl, rfl, rfl⟩
          · rename_i chunk rest hNext
            obtain ⟨hChunks, hLess⟩ :=
              FileDecoder.next_some hNext
            have hRest : rest.packets.length < fuel := by
              omega
            rw [hChunks, List.map_cons, List.cons_append,
              listen, hLook, if_neg Bool.false_ne_true, hear]
            rcases hPush : s.pipeline.pushPcm chunk with
              ⟨pushed, pipeline⟩
            cases pushed with
            | error e =>
                simp only [hPush] at hPlay ⊢
                cases e with
                | panicked => cases hPlay
                | failed message => exact ih hRest hPlay
            | ok encoded =>
                simp only [hPush] at hPlay ⊢
                by_cases hEmpty : encoded = []
                · simp only [if_pos hEmpty] at hPlay ⊢
                  exact ih hRest hPlay
                · simp only [if_neg hEmpty, Follows]
                    at hPlay ⊢
                  split at hPlay
                  · rename_i hPace
                    have hMore := length_pace hPace
                    cases hPlay
                    exact hMore.ge
                  · rename_i hPace
                    have hMore := length_pace hPace
                    exact
                      Nat.lt_of_lt_of_le hMore.ge
                        (grows_playChunks hPlay)

end PlaySession

variable {opens : TrackPath → Except String (FileDecoder Sample)}
variable {readTag : TrackPath → Option Tag}
variable {config : TranscodeConfig}
variable {track : TrackPath}
variable {tracks : List TrackPath}
variable {outcome : PassOutcome}

theorem grows_playTrack
    {ending : Option (Except PlayError Unit)}
    (hPlay :
      playTrack opens readTag config s track = (ending, t)) :
    Grows s t := by
  unfold playTrack at hPlay
  split at hPlay
  · cases hPlay
    exact Nat.le_refl _
  · have hChunks := PlaySession.grows_playChunks hPlay
    exact hChunks

/- A track behind the look ahead of it. -/
theorem follows_playTrack
    {result : Except PlayError Unit}
    (hPlay :
      playTrack opens readTag config s track =
        (some result, t)) :
    Follows s t (result = .error .cancelled)
      (listen s.pipeline s.looks
        (match opens track with
        | .error _ => []
        | .ok decoder => decoder.chunks.map some ++ [none])) := by
  unfold playTrack at hPlay
  cases hOpen : opens track with
  | error e =>
      simp only [hOpen] at hPlay
      cases hPlay
      exact ⟨by simp, rfl, rfl, rfl⟩
  | ok decoder =>
      simp only [hOpen] at hPlay
      have hChunks :=
        PlaySession.follows_playChunks (Nat.lt_succ_self _)
          hPlay
      exact hChunks

theorem grows_playTracks
    {ending : Option PassOutcome}
    (hPlay :
      playTracks opens readTag config s tracks =
        (ending, t)) :
    Grows s t := by
  induction tracks generalizing s with
  | nil =>
      cases hPlay
      exact Nat.le_refl _
  | cons track tracks ih =>
      rw [playTracks, PlaySession.isCancelled_headD] at hPlay
      cases hLook : s.looks.headD false with
      | true =>
          rw [hLook] at hPlay
          cases hPlay
          exact Nat.le_refl _
      | false =>
          rw [hLook] at hPlay
          simp only at hPlay
          split at hPlay
          · rename_i hTrack
            have hFirst := grows_playTrack hTrack
            cases hPlay
            exact hFirst
          · rename_i hTrack
            have hFirst := grows_playTrack hTrack
            cases hPlay
            exact hFirst
          · rename_i hTrack
            have hFirst := grows_playTrack hTrack
            exact Nat.le_trans hFirst (ih hPlay)

theorem follows_playTracks
    (hPlay :
      playTracks opens readTag config s tracks =
        (some outcome, t)) :
    Follows s t (outcome = .cancelled)
      (listen s.pipeline s.looks (lookPoints opens tracks)) := by
  induction tracks generalizing s with
  | nil =>
      cases hPlay
      exact ⟨by simp, rfl, rfl, rfl⟩
  | cons track tracks ih =>
      rw [playTracks, PlaySession.isCancelled_headD] at hPlay
      rw [lookPoints, List.flatMap_cons, ← lookPoints,
        List.cons_append]
      cases hLook : s.looks.headD false with
      | true =>
          rw [hLook] at hPlay
          cases hPlay
          rw [PlaySession.listen_of_headD hLook (by simp)]
          exact ⟨rfl, rfl⟩
      | false =>
          rw [hLook] at hPlay
          simp only at hPlay
          rw [PlaySession.listen_none hLook, listen_append]
          split at hPlay
          · cases hPlay
          · rename_i e ended hTrack
            have hFirst := follows_playTrack hTrack
            cases hPlay
            split <;> rename_i hListen <;>
              rw [hListen] at hFirst
            · exact hFirst
            · exact ⟨rfl, hFirst.2⟩
            · exact absurd rfl hFirst.1
          · rename_i next hTrack
            have hFirst := follows_playTrack hTrack
            split <;> rename_i hListen <;>
              rw [hListen] at hFirst
            · have hRest := grows_playTracks hPlay
              exact Nat.lt_of_lt_of_le hFirst hRest
            · cases hFirst.1
            · obtain ⟨-, hSilent, rfl, rfl⟩ := hFirst
              exact (ih hPlay).after hSilent

/-
  When a pass is heard, and how one that is not ends. The
  slot may have been emptied before its token is read.
-/
def PassHeard
    (lib : Symphonia Sample)
    (E : Engines Sample)
    (config : TranscodeConfig)
    (comments : List (String × String))
    (sourceCancel : Option (List Bool))
    (points : List (Option (Pcm Sample))) : Prop :=
  ∃ looks ∈ sourceCancel,
    Heard
      (.new config .MP3 comments : TranscodePipeline lib E)
      looks points

def PassStopped
    (sourceCancel : Option (List Bool))
    (points : List (Option (Pcm Sample))) : Prop :=
  ∀ looks ∈ sourceCancel, Stopped looks points

theorem playPlaylist_follows
    {comments : List (String × String)}
    {sourceCancel : Option (List Bool)}
    (hPlay :
      playPlaylist opens readTag config comments sourceCancel
          tracks =
        (some outcome, s)) :
    (s.publisher.bus ≠ [] ↔
        PassHeard lib E config comments sourceCancel
          (lookPoints opens tracks)) ∧
      (s.publisher.bus = [] →
        (outcome = .cancelled ↔
          PassStopped sourceCancel
            (lookPoints opens tracks))) := by
  unfold playPlaylist at hPlay
  cases sourceCancel with
  | none =>
      cases hPlay
      simp [PassHeard, PassStopped, PlaySession.start,
        Publisher.start]
  | some looks =>
      have hFollows := follows_playTracks hPlay
      simp only [PassHeard, PassStopped, Option.mem_def,
        Option.some.injEq, exists_eq_left', forall_eq']
      have hHeard :=
        listen_eq_heard_iff
          (.new config .MP3 comments :
            TranscodePipeline lib E)
          looks (lookPoints opens tracks)
      rw [← hHeard]
      cases hListen :
          listen
            (.new config .MP3 comments :
              TranscodePipeline lib E)
            looks (lookPoints opens tracks) with
      | heard =>
          simp only [PlaySession.start, hListen, Follows]
            at hFollows
          have hSome := List.ne_nil_of_length_pos
            (Nat.zero_lt_of_lt hFollows)
          exact ⟨iff_of_true hSome rfl, fun h => absurd h hSome⟩
      | stopped =>
          simp only [PlaySession.start, hListen, Follows]
            at hFollows
          rw [hListen] at hHeard
          have hStopped :=
            (listen_eq_stopped_iff fun h =>
              by cases hHeard.mpr h).mp hListen
          rw [hFollows.2]
          exact
            ⟨iff_of_false (not_not_intro rfl) (by simp),
              fun _ => iff_of_true hFollows.1 hStopped⟩
      | silent p later =>
          simp only [PlaySession.start, hListen, Follows]
            at hFollows
          rw [hListen] at hHeard
          have hNot :
              ¬ Stopped looks (lookPoints opens tracks) := by
            intro hStopped
            have hOther :=
              (listen_eq_stopped_iff fun h =>
                by cases hHeard.mpr h).mpr hStopped
            rw [hListen] at hOther
            cases hOther
          rw [hFollows.2.1]
          exact
            ⟨iff_of_false (not_not_intro rfl) (by simp),
              fun _ => iff_of_false hFollows.1 hNot⟩

end AutoDj

end RustyIce

------------------------------------------------------------
-- From Scan To Scan
------------------------------------------------------------

namespace RustyIce

namespace AutoDj

open Transcode Library

variable {Sample : Type}
variable (lib : Symphonia Sample)
variable (E : Engines Sample)

namespace Turn

/-
  Behind the scan the loop waits or publishes: the folder has
  no audio file, or the slot is claimed and the pass is heard
  or preempted.
-/
def Progresses
    (dj : PlayerConfig)
    (t : Turn Sample) : Prop :=
  scan t.folder = some [] ∨
    (t.claims = true ∧
      (PassHeard lib E dj.transcode dj.vorbisComments
          t.sourceCancel (lookPoints t.opens t.tracks) ∨
        (PassStopped t.sourceCancel
            (lookPoints t.opens t.tracks) ∧
          t.preemptPending = true)))

/- The slot is taken, and still is at the second look. -/
def Waits (t : Turn Sample) : Prop :=
  t.connected = true ∧ 0 < t.rounds

/- Something comes between the scans of two turns. -/
def Apart
    (dj : PlayerConfig)
    (t next : Turn Sample) : Prop :=
  next.scans = true → t.Progresses lib E dj ∨ next.Waits

variable {lib : Symphonia Sample}
variable {E : Engines Sample}
variable {dj : PlayerConfig}
variable {t : Turn Sample}

theorem notMem_waiting (t : Turn Sample) :
    .scanned ∉ t.waiting := by
  unfold waiting
  split <;> simp

theorem waiting_eq_nil_iff (t : Turn Sample) :
    t.waiting = [] ↔ ¬ t.Waits := by
  unfold waiting Waits
  split
  · rename_i hConnected
    simp [hConnected]
  · rename_i hFree
    simp [hFree]

theorem notMem_played
    (outcome : Option PassOutcome × PlaySession lib E) :
    .scanned ∉ (t.played lib E dj outcome).1 := by
  unfold played
  simp only
  split
  · simp
  · simp
  · split
    · simp
    · split <;> simp

theorem notMem_afterScan :
    .scanned ∉ (t.afterScan lib E dj).1 := by
  unfold afterScan
  split
  · simp
  · simp
  · split
    · exact notMem_played _
    · simp

/- A turn that does not come to the scan ends the loop. -/
theorem exec_of_not_scans
    (lib : Symphonia Sample)
    (E : Engines Sample)
    (dj : PlayerConfig)
    (hNot : t.scans = false) :
    .scanned ∉ (t.exec lib E dj).1 ∧
      (t.exec lib E dj).2 = false := by
  unfold exec
  split
  · exact ⟨List.not_mem_nil, rfl⟩
  · rename_i hRunning
    split
    · exact ⟨t.notMem_waiting, rfl⟩
    · rename_i hWaited
      simp [scans, hRunning, hWaited] at hNot

theorem exec_of_scans (hScans : t.scans = true) :
    t.exec lib E dj =
      (t.waiting ++ .scanned :: (t.afterScan lib E dj).1,
        (t.afterScan lib E dj).2) := by
  unfold scans at hScans
  rw [Bool.and_eq_true, Bool.not_eq_true',
    Bool.not_eq_true'] at hScans
  rw [exec, hScans.1, hScans.2]
  rfl

/- The loop goes on without a wait or a packet. -/
theorem played_eq_nil_iff
    (hOn :
      (t.played lib E dj (t.pass lib E dj)).2 = true) :
    (t.played lib E dj (t.pass lib E dj)).1 = [] ↔
      ¬ (PassHeard lib E dj.transcode dj.vorbisComments
            t.sourceCancel (lookPoints t.opens t.tracks) ∨
          (PassStopped t.sourceCancel
              (lookPoints t.opens t.tracks) ∧
            t.preemptPending = true)) := by
  rcases hPass : t.pass lib E dj with ⟨_ | outcome, s⟩
  · rw [hPass] at hOn
    cases hOn
  obtain ⟨hHeard, hStopped⟩ := playPlaylist_follows hPass
  rw [hPass] at hOn
  rw [← hHeard]
  by_cases hBus : s.publisher.bus = []
  · rw [← hStopped hBus]
    cases outcome with
    | completed => simp [played, hBus]
    | cancelled =>
        simp only [played] at hOn ⊢
        split at hOn
        · cases hOn
        · rename_i hRunning
          cases hPending : t.preemptPending with
          | true => simp [hRunning]
          | false => simp [hRunning, hBus]
  · refine iff_of_false ?_ (not_not_intro (.inl hBus))
    intro hNone
    apply hBus
    unfold played at hNone
    cases outcome with
    | completed => simpa using hNone
    | cancelled =>
        simp only at hNone
        split at hNone
        · simpa using hNone
        · split at hNone
          · simp at hNone
          · simpa using hNone

theorem afterScan_eq_nil_iff
    (hOn : (t.afterScan lib E dj).2 = true) :
    (t.afterScan lib E dj).1 = [] ↔
      ¬ t.Progresses lib E dj := by
  unfold afterScan at hOn ⊢
  unfold Progresses
  split at hOn
  · cases hOn
  · rename_i hScan
    simp [hScan]
  · rename_i hScan
    rw [hScan]
    split at hOn
    · rename_i hClaims
      rw [if_pos hClaims, played_eq_nil_iff hOn]
      simp [hClaims]
    · rename_i hLost
      simp [hLost]

end Turn

section

variable {lib : Symphonia Sample}
variable {E : Engines Sample}
variable {dj : PlayerConfig}

/-
  The log of some turns: it begins with a scan if the first
  turn scans at once, and no scans in it are next to each
  other if those of consecutive turns are apart.
-/
structure TurnsLog
    (lib : Symphonia Sample)
    (E : Engines Sample)
    (dj : PlayerConfig)
    (turns : List (Turn Sample))
    (log : List LoopEvent) : Prop where
  head_iff :
    log.head? = some .scanned ↔
      ∃ t ∈ turns.head?, t.scans = true ∧ ¬ t.Waits
  apart_iff :
    NeverSpins log ↔
      turns.IsChain fun t next => t.Apart lib E dj next

theorem turnsLog_nil : TurnsLog lib E dj [] [] where
  head_iff := by simp
  apart_iff := iff_of_true .nil .nil

theorem head?_waiting_append
    (t : Turn Sample)
    (rest : List LoopEvent) :
    (t.waiting ++ .scanned :: rest).head? =
        some .scanned ↔
      t.waiting = [] := by
  have hFree := t.notMem_waiting
  cases hWaiting : t.waiting with
  | nil => simp
  | cons first waiting =>
      refine iff_of_false ?_ (List.cons_ne_nil _ _)
      intro hHead
      cases hHead
      rw [hWaiting] at hFree
      exact hFree List.mem_cons_self

/- One turn more in front, which scans if others follow. -/
theorem turnsLog_cons
    {t : Turn Sample}
    {turns : List (Turn Sample)}
    {log : List LoopEvent}
    (hLog : TurnsLog lib E dj turns log)
    (hOn : turns ≠ [] → (t.exec lib E dj).2 = true)
    (hEnd : turns = [] → log = []) :
    TurnsLog lib E dj (t :: turns)
      ((t.exec lib E dj).1 ++ log) := by
  have hChain :
      (t :: turns).IsChain
          (fun t next => t.Apart lib E dj next) ↔
        (∀ next ∈ turns.head?, t.Apart lib E dj next) ∧
          NeverSpins log := by
    rw [List.isChain_cons, hLog.apart_iff]
  cases hScans : t.scans with
  | false =>
      obtain ⟨hFree, hOff⟩ :=
        Turn.exec_of_not_scans lib E dj hScans
      have hLast : turns = [] := by
        by_contra hMore
        rw [hOn hMore] at hOff
        cases hOff
      subst hLast
      rw [hEnd rfl, List.append_nil]
      constructor
      · refine iff_of_false ?_ (by simp [hScans])
        intro hHead
        exact hFree (List.mem_of_mem_head? hHead)
      · rw [List.isChain_cons]
        exact
          iff_of_true (spaced_of_notMem hFree) ⟨by simp, .nil⟩
  | true =>
      rw [Turn.exec_of_scans hScans, List.append_assoc,
        List.cons_append]
      constructor
      · simp only [List.head?_cons, Option.mem_def,
          Option.some.injEq, exists_eq_left', hScans,
          true_and]
        rw [← Turn.waiting_eq_nil_iff]
        exact head?_waiting_append t _
      · rw [hChain, NeverSpins,
          spaced_lap_iff t.notMem_waiting
            Turn.notMem_afterScan, ← NeverSpins]
        apply and_congr_left'
        cases turns with
        | nil => simp [hEnd rfl]
        | cons next turns =>
            have hGoes := hOn (List.cons_ne_nil _ _)
            rw [Turn.exec_of_scans hScans] at hGoes
            rw [Turn.afterScan_eq_nil_iff hGoes,
              ← not_imp_not, not_not, hLog.head_iff]
            simp only [List.head?_cons, Option.mem_def,
              Option.some.injEq, exists_eq_left',
              forall_eq', Turn.Apart]
            tauto

theorem turnsLog_of_run
    {s u : LoopState}
    {turns : List (Turn Sample)}
    (hRun : (playerLoop lib E dj).run s turns = some u) :
    ∃ log,
      u.log = s.log ++ log ∧
        (turns = [] → log = []) ∧
          (turns ≠ [] → s.running = true) ∧
            TurnsLog lib E dj turns log := by
  induction turns generalizing s with
  | nil =>
      cases hRun
      exact
        ⟨[], by simp, fun _ => rfl, fun h => absurd rfl h,
          turnsLog_nil⟩
  | cons t turns ih =>
      rw [Machine.run] at hRun
      split at hRun
      · cases hRun
      · rename_i next hStep
        simp only [playerLoop, LoopState.step] at hStep
        split at hStep
        · rename_i hReady
          cases hStep
          obtain ⟨log, hWhole, hEnd, hOn, hLog⟩ := ih hRun
          refine
            ⟨(t.exec lib E dj).1 ++ log, ?_, by simp,
              fun _ => hReady.1, turnsLog_cons hLog hOn hEnd⟩
          rw [hWhole, List.append_assoc]
        · cases hStep

end

/-
  Every run of the loop publishes or waits between each two
  scans exactly if any two turns are apart: the first waits
  or publishes behind its scan, or the other waits before it.
-/
theorem neverSpins_iff
    (dj : PlayerConfig)
    (turns : List (Turn Sample))
    (s : LoopState)
    (hRun : (playerLoop lib E dj).run .start turns = some s) :
    NeverSpins s.log ↔
      turns.IsChain fun t next => t.Apart lib E dj next := by
  obtain ⟨log, hWhole, -, -, hLog⟩ := turnsLog_of_run hRun
  rw [hWhole]
  exact hLog.apart_iff

/- A rotation that starts over at the end of its list. -/
def looping : PlayerConfig where
  order := .sequential
  loopPlaylist := true
  transcode := at48000
  vorbisComments := []
  readTag := fun _ => none

/- An idle mount, and a folder with one file in it. -/
def quietTurn
    (opens : TrackPath → Except String (FileDecoder Nat)) :
    Turn Nat where
  shutdown := false
  connected := false
  rounds := 0
  shutdownWaiting := false
  folder :=
    { isDir := true
      entries := [{ path := song, isFile := true }]
      distinct := by simp }
  tracks := [song]
  opens := opens
  claims := true
  sourceCancel := some []
  shutdownAfter := false
  preemptPending := false

/- No file can be opened. -/
def brokenTurn : Turn Nat :=
  quietTurn fun _ => .error "no MP3 frame"

/- The folder is scanned again at once. -/
theorem brokenTurn_spins :
    ∃ s,
      (playerLoop idle recorder looping).run .start
          [brokenTurn, brokenTurn] =
        some s ∧
        ¬ NeverSpins s.log := by
  refine ⟨_, rfl, ?_⟩
  decide

/- With a file that can be played it is not. -/
theorem neverSpins_oneSong :
    ∃ s,
      (playerLoop idle recorder looping).run .start
          [quietTurn oneSong, brokenTurn] =
        some s ∧
        NeverSpins s.log := by
  refine ⟨_, rfl, ?_⟩
  apply
    (neverSpins_iff idle recorder looping
      [quietTurn oneSong, brokenTurn] _ rfl).mpr
  rw [List.isChain_pair]
  intro _
  refine .inl (.inr ⟨rfl, .inl ⟨[], rfl, ?_⟩⟩)
  exact
    ⟨[none], (oneFrame 48000 (by decide)).pcm, [none], rfl,
      ⟨[7], rfl, List.cons_ne_nil _ _⟩, by simp⟩

end AutoDj

end RustyIce
