import RustyIce.Server.IngestTasks
import RustyIce.Transcode.FrameConservation

/-
  What the two tasks of an ingest publish between them: at
  any time the beginning of what a loop alone publishes for
  the same reads, and all of it once the loop has returned
  its stats undisturbed; an error is the one that happened.

  Main declarations:
    * `IngestBuild.RunsAs`
    * `ingest_front`
    * `ingest_complete`
    * `ingest_honest`
-/

------------------------------------------------------------
-- The Loop Alone
------------------------------------------------------------

namespace RustyIce

open Ingest Transcode

variable {Sample : Type}
variable {lib : Symphonia Sample}
variable {E : Engines Sample}
variable {build : IngestBuild}
variable {codec : CodecId}

namespace Ingest

/- A loop that no rate of zero stops goes over all chunks. -/
theorem PublishLoop.publishAll_of_rates
    {st : PublishLoop}
    {chunks : List Bytes}
    (hRates :
      ∀ front,
        front ≠ [] →
          front <+: chunks →
            (front.foldl (publishChunk codec)
                st).sourceRate ≠
              some 0) :
    st.publishAll codec chunks =
      { bus :=
          (chunks.foldl (publishChunk codec) st).publisher.bus
        stats :=
          some
            (IngestLoop.stats
              (chunks.foldl (publishChunk codec) st)
              (chunks.foldl (publishChunk codec)
                st).publisher) } := by
  induction chunks generalizing st with
  | nil => rfl
  | cons data rest ih =>
      have hNow :
          (publishChunk codec st data).sourceRate ≠ some 0 :=
        hRates [data] (by simp) ⟨rest, rfl⟩
      rw [publishAll]
      rw [if_neg hNow, List.foldl_cons]
      apply ih
      intro front hSome hFront
      exact
        hRates (data :: front) (by simp)
          (List.cons_prefix_cons.mpr ⟨rfl, hFront⟩)

theorem TranscodeLoop.pushAll_of_rates
    {config : TranscodeConfig}
    {st : TranscodeLoop lib E}
    {chunks : List Bytes}
    (hQuiet :
      ∀ front data,
        front ++ [data] <+: chunks →
          (front.foldl
              (pushChunk codec
                (outputCodecFor config.format))
              st).panicsAt data =
            false)
    (hRates :
      ∀ front,
        front ≠ [] →
          front <+: chunks →
            (front.foldl
                  (pushChunk codec
                    (outputCodecFor config.format))
                  st).pacingBps
                config ≠
              some 0) :
    st.pushAll codec config chunks =
      some
        (chunks.foldl
          (pushChunk codec (outputCodecFor config.format))
          st) := by
  induction chunks generalizing st with
  | nil => rfl
  | cons data rest ih =>
      have hNow :
          (pushChunk codec (outputCodecFor config.format) st
                data).pacingBps
              config ≠
            some 0 :=
        hRates [data] (by simp) ⟨rest, rfl⟩
      have hFirst : st.panicsAt data = false :=
        hQuiet [] data ⟨rest, rfl⟩
      rw [pushAll, if_neg (by simp [hFirst])]
      simp only
      rw [if_neg hNow, List.foldl_cons]
      apply ih
      · intro front other hFront
        exact
          hQuiet (data :: front) other
            (List.cons_prefix_cons.mpr ⟨rfl, hFront⟩)
      · intro front hSome hFront
        exact
          hRates (data :: front) (by simp)
            (List.cons_prefix_cons.mpr ⟨rfl, hFront⟩)

end Ingest

/- A chunk does not change what kind of loop it is. -/
theorem foldl_chunk_passthrough
    (st : PublishLoop)
    (chunks : List Bytes) :
    chunks.foldl (fun loop data => loop.chunk codec data)
        (.passthrough st : IngestLoop lib E) =
      .passthrough
        (chunks.foldl (PublishLoop.publishChunk codec) st) := by
  induction chunks generalizing st with
  | nil => rfl
  | cons data rest ih => exact ih _

theorem foldl_chunk_transcoding
    (config : TranscodeConfig)
    (st : TranscodeLoop lib E)
    (chunks : List Bytes) :
    chunks.foldl (fun loop data => loop.chunk codec data)
        (.transcoding config st : IngestLoop lib E) =
      .transcoding config
        (chunks.foldl
          (TranscodeLoop.pushChunk codec
            (outputCodecFor config.format))
          st) := by
  induction chunks generalizing st with
  | nil => rfl
  | cons data rest ih => exact ih _

theorem behind_loopAfter (chunks : List Bytes) :
    Behind build codec chunks
      (build.loopAfter lib E codec chunks) := by
  induction chunks using List.reverseRecOn with
  | nil =>
      rcases behind_start lib E build codec with
        ⟨loop, hStart, hBehind⟩
      rw [IngestBuild.start_eq_selecting] at hStart
      cases hStart
      exact hBehind
  | append_singleton chunks data ih =>
      rw [IngestBuild.loopAfter_snoc]
      exact behind_chunk ih data

namespace IngestBuild

/- The run of one task over these reads leaves this. -/
def RunsAs
    (lib : Symphonia Sample)
    (E : Engines Sample)
    (build : IngestBuild)
    (codec : CodecId)
    (given : List Bytes)
    (bus : List StreamPacket)
    (stats : SourceStats) : Prop :=
  match build.transcode with
  | none =>
      build.ingest.run codec given =
        { bus := bus
          stats := some stats }
  | some config =>
      ∃ publisher,
        runTranscode lib E build.ingest config
              build.transcodeComments codec given =
            some (publisher, stats.bytesReceived) ∧
          bus = publisher.bus ∧
            stats.packetsPublished = publisher.sequence

theorem runsAs_of_paced
    {given : List Bytes}
    (hFits :
      ∀ data ∈ given,
        data ≠ [] ∧ data.length ≤ build.ingest.chunkSize)
    (hPaced :
      build.Paced lib E codec (drainReader codec given))
    (hChunks :
      ¬ build.Unbuilt lib E codec (drainReader codec given))
    (hEnd :
      ¬ build.UnbuiltAtEnd lib E codec
        (drainReader codec given)) :
    build.RunsAs lib E codec given
      (build.loopAfter lib E codec
        (drainReader codec given)).finishBus
      (build.loopAfter lib E codec
        (drainReader codec given)).finish := by
  have hRates :
      ∀ front,
        front ≠ [] →
          front <+: drainReader codec given →
            (build.loopAfter lib E codec front).pacingBps ≠
              some 0 := by
    intro front hSome hFront hZero
    exact
      hPaced front hSome hFront
        ((pacingBps_eq_zero_iff
          (behind_loopAfter front)).mp hZero)
  have hQuiet :
      ∀ front data,
        front ++ [data] <+: drainReader codec given →
          (build.loopAfter lib E codec front).panicsAt data =
            false := by
    intro front data hFront
    have hBefore := (List.prefix_append _ _).trans hFront
    rw [← Bool.not_eq_true,
      panicsAt_iff (behind_loopAfter front)
        (mt (unbuilt_prefix_chunks hBefore) hChunks)]
    exact mt (unbuilt_prefix_chunks hFront) hChunks
  have hQuietEnd :
      (build.loopAfter lib E codec
          (drainReader codec given)).panicsAtEnd =
        false := by
    rw [← Bool.not_eq_true,
      panicsAtEnd_iff (behind_loopAfter _) hChunks]
    exact hEnd
  unfold RunsAs
  unfold loopAfter loop at hRates hQuiet hQuietEnd ⊢
  cases hBuild : build.transcode with
  | none =>
      simp only [hBuild, foldl_chunk_passthrough] at hRates ⊢
      rw [IcecastIngest.run, reads_of_fit hFits]
      exact PublishLoop.publishAll_of_rates hRates
  | some config =>
      simp only [hBuild, foldl_chunk_transcoding]
        at hRates hQuiet hQuietEnd ⊢
      rw [runTranscode, reads_of_fit hFits,
        TranscodeLoop.pushAll_of_rates hQuiet hRates]
      refine ⟨_, if_neg ?_, rfl, rfl⟩
      rw [Bool.not_eq_true]
      exact hQuietEnd

end IngestBuild

end RustyIce

------------------------------------------------------------
-- A Beginning At Any Time
------------------------------------------------------------

namespace RustyIce

open Ingest Transcode

variable {Sample : Type}
variable {lib : Symphonia Sample}
variable {E : Engines Sample}
variable {build : IngestBuild}
variable {codec : CodecId}
variable {s : IngestTasks lib E}

theorem bus_prefix_loopAfter
    {front chunks : List Bytes}
    (hFront : front <+: chunks) :
    (build.loopAfter lib E codec front).bus <+:
      (build.loopAfter lib E codec chunks).bus := by
  rcases hFront with ⟨rest, rfl⟩
  induction rest using List.reverseRecOn with
  | nil =>
      rw [List.append_nil]
  | append_singleton rest data ih =>
      rw [← List.append_assoc, IngestBuild.loopAfter_snoc]
      exact ih.trans (IngestLoop.bus_prefix_chunk _ data)

/- What was sent is the beginning of all there will be. -/
theorem sent_isPrefix
    {more : List Bytes}
    (hMore : s.ended = true → more = []) :
    s.sent codec <+: drainReader codec (s.given ++ more) := by
  unfold IngestTasks.sent
  split_ifs with hEnded
  · rw [hMore hEnded, List.append_nil]
  · exact feed_isPrefix_drainReader codec s.given more

/- Only the end of the source makes a loop return stats. -/
theorem closed_mem_of_run
    {phase : IngestPhase lib E}
    {events : List IngestEvent}
    {stats : SourceStats}
    (hGoing : phase ≠ .returned (.ok stats))
    (hRun :
      (ingestMachine lib E build codec).run phase events =
        some (.returned (.ok stats))) :
    .closed ∈ events := by
  induction events generalizing phase with
  | nil =>
      cases hRun
      exact absurd rfl hGoing
  | cons event events ih =>
      rw [Library.Machine.run] at hRun
      split at hRun
      · cases hRun
      · rename_i next hStep
        by_cases hNext : next = .returned (.ok stats)
        · have hNow : event = .closed := by
            subst hNext
            simp only [ingestMachine, IngestPhase.step]
              at hStep
            split at hStep <;> try cases hStep
            · split_ifs at hStep
              rename_i loop data _
              have hCases :
                  (IngestPhase.onChunk codec loop
                        data).unlessLate
                      false =
                    .selecting (loop.chunk codec data) ∨ _ :=
                IngestLoop.onChunk_cases false loop data
              rcases hCases with hOne | hOne | hOne
              all_goals
                simp only [Option.some.injEq] at hStep
                rw [hStep] at hOne
                cases hOne
            · rfl
          rw [hNow]
          exact List.mem_cons_self
        · exact List.mem_cons_of_mem _ (ih hNext hRun)

/- A source of no probed codec, as it comes. -/
def plainBuild : IngestBuild where
  ingest :=
    { chunkSize := 4096
      maxRateBps := none
      headerCaptureSink := true }
  transcode := none
  transcodeComments := []

/- A poll of the loop that gets past both tokens. -/
def wholePoll : List TasksLabel :=
  [.loopPolls true, .loopPolls true, .loopPolls true]

/- One read, the end of the source, and both are published. -/
def oneChunk : List TasksLabel :=
  [.readerPolls, .gives [1, 2, 3], .readerPolls, .ends,
    .readerGoes] ++
    wholePoll ++ wholePoll

def runPlain
    (labels : List TasksLabel) :
    Option (IngestTasks Transcode.idle Transcode.recorder) :=
  (tasksMachine Transcode.idle Transcode.recorder plainBuild
      .AAC).run
    (.start Transcode.idle Transcode.recorder plainBuild .AAC
      false)
    labels

theorem reachable_of_runPlain
    {labels : List TasksLabel}
    {s : IngestTasks Transcode.idle Transcode.recorder}
    (hRun : runPlain labels = some s) :
    (tasksMachine Transcode.idle Transcode.recorder plainBuild
        .AAC).Reachable s :=
  Library.Machine.reachable_of_run ⟨false, rfl⟩ hRun

/-
  However the two tasks run, what is on the bus is the
  beginning of what a loop alone publishes over the same
  reads, whatever the source still gives; only a pipeline's
  tail comes behind it, at the end.
-/
theorem ingest_front
    (hReach : (tasksMachine lib E build codec).Reachable s)
    {more : List Bytes}
    (hMore : s.ended = true → more = []) :
    ∃ chunks,
      chunks <+: drainReader codec (s.given ++ more) ∧
        s.phase.LeftBy build codec chunks s.bus ∧
          (build.loopAfter lib E codec chunks).bus <+:
            (build.loopAfter lib E codec
              (drainReader codec (s.given ++ more))).bus := by
  rcases (TasksInv.of_reachable hReach).loop with
    ⟨events, hLoop⟩
  have hFront := hLoop.front.trans (sent_isPrefix hMore)
  exact ⟨_, hFront, hLoop.left, bus_prefix_loopAfter hFront⟩

/- Over the first read of a source that goes on. -/
theorem ingest_front_oneChunk :
    ∃ s chunks,
      runPlain (oneChunk.take 2 ++ wholePoll) = some s ∧
        chunks <+: [[1, 2, 3], [4]] ∧
          s.phase.LeftBy plainBuild .AAC chunks s.bus ∧
            (plainBuild.loopAfter Transcode.idle
                  Transcode.recorder .AAC chunks).bus <+:
              (plainBuild.loopAfter Transcode.idle
                Transcode.recorder .AAC
                [[1, 2, 3], [4]]).bus := by
  have hRun :
      runPlain (oneChunk.take 2 ++ wholePoll) = some _ :=
    rfl
  rcases
    ingest_front (reachable_of_runPlain hRun)
      nofun with
    ⟨chunks, hFront, hLeft, hBus⟩
  exact ⟨_, chunks, hRun, hFront, hLeft, hBus⟩

/-
  A loop that returns its stats with its token untouched and
  no error of its reader has seen the end of the source, and
  has published what the source alone says.
-/
theorem ingest_complete
    {stats : SourceStats}
    (hReach : (tasksMachine lib E build codec).Reachable s)
    (hReturned : s.phase = .returned (.ok stats))
    (hCancelled : s.cancelled = false)
    (hAborted : s.aborted = false) :
    s.ended = true ∧
      build.RunsAs lib E codec s.given s.bus stats := by
  have hInv := TasksInv.of_reachable hReach
  rcases hInv.loop with ⟨events, hLoop⟩
  have hExcused := hLoop.excused
  have hLeft := hLoop.left
  have hRun := hLoop.run
  rw [hReturned] at hExcused hLeft hRun
  rcases hExcused with ⟨-, hAll, hWhy⟩
  have hEnded : s.ended = true := by
    simpa [hCancelled, hAborted] using hWhy
  rw [IngestTasks.sent, if_pos hEnded] at hAll
  obtain ⟨hPaced, hEncodes⟩ :=
    (ingest_endings hRun).2.mp (by simp)
  rcases hEncodes with ⟨hChunks, hEnd⟩
  have hClosed : .closed ∈ events := by
    refine closed_mem_of_run ?_ hRun
    rw [IngestBuild.start_eq_selecting]
    intro hNever
    cases hNever
  have hTail := hEnd hClosed
  rw [hAll] at hLeft hPaced hChunks hTail
  refine ⟨hEnded, ?_⟩
  rw [hLeft.1, hLeft.2]
  exact
    IngestBuild.runsAs_of_paced hInv.fits hPaced hChunks
      hTail

theorem ingest_complete_oneChunk :
    ∃ s,
      runPlain oneChunk = some s ∧
        s.ended = true ∧
          plainBuild.RunsAs Transcode.idle Transcode.recorder
            .AAC [[1, 2, 3]] s.bus
            { bytesReceived := 3
              packetsPublished := 1 } := by
  have hRun : runPlain oneChunk = some _ := rfl
  exact
    ⟨_, hRun,
      ingest_complete (reachable_of_runPlain hRun) rfl rfl
        rfl⟩

/-
  An error that is returned is the one that happened, and the
  loop never finds the slot of an announced error empty: it
  panics at a rate of zero, or over samples for which no
  encoder could be built.
-/
theorem ingest_honest
    (hReach : (tasksMachine lib E build codec).Reachable s) :
    (∀ error,
        s.phase = .returned (.error error) →
          (error = .cancelled ∧ s.cancelled = true) ∨
            ∃ io,
              error = .io io ∧ s.failure = some io ∧
                s.aborted = true) ∧
      (s.phase = .panicked →
        ∃ chunks,
          chunks <+: s.sent codec ∧
            (build.ZeroRate lib E codec chunks ∨
              build.Unbuilt lib E codec chunks ∨
                build.UnbuiltAtEnd lib E codec chunks)) := by
  rcases (TasksInv.of_reachable hReach).loop with
    ⟨events, hLoop⟩
  have hExcused := hLoop.excused
  have hRun := hLoop.run
  constructor
  · rintro error hError
    rw [hError] at hExcused
    cases error with
    | cancelled => exact Or.inl ⟨rfl, hExcused⟩
    | io io => exact Or.inr ⟨io, rfl, hExcused.2, hExcused.1⟩
    | mountBusy => exact hExcused.elim
    | transcodeInit message => exact hExcused.elim
  · intro hPanicked
    rw [hPanicked] at hRun
    have hFatal := mt (ingest_endings hRun).2.mpr (by simp)
    rw [not_and_or] at hFatal
    rcases hFatal with hZero | hEncodes
    · unfold IngestBuild.Paced at hZero
      push Not at hZero
      rcases hZero with ⟨front, -, hFront, hNow⟩
      exact ⟨front, hFront.trans hLoop.front, .inl hNow⟩
    · refine ⟨_, hLoop.front, ?_⟩
      by_contra hNone
      rw [not_or, not_or] at hNone
      exact hEncodes ⟨hNone.2.1, fun _ => hNone.2.2⟩

/- A reset of the connection, as the reader sees it. -/
def reset : IoError where
  kind := .other
  message := "reset"

/- The reader's way out behind a read that failed. -/
def failing : List TasksLabel :=
  [.fails reset, .readerGoes, .readerGoes, .readerGoes]

theorem ingest_honest_failing :
    ∃ s,
      runPlain ([.readerPolls] ++ failing ++ wholePoll.take 2) =
          some s ∧
        s.phase = .returned (.error (.io reset)) ∧
          s.failure = some reset := by
  have hRun :
      runPlain ([.readerPolls] ++ failing ++ wholePoll.take 2) =
        some _ :=
    rfl
  rcases
    (ingest_honest (reachable_of_runPlain hRun)).1 _ rfl with
    ⟨hOther, -⟩ | ⟨io, hIo, hFailure, -⟩
  · cases hOther
  · cases hIo
    exact ⟨_, hRun, rfl, hFailure⟩

/-
  A reader that fails between two branches of one poll is
  taken for the end of the source: the stats are returned.
-/
example :
    (runPlain
        ([.readerPolls] ++ wholePoll.take 2 ++ failing ++
          wholePoll.take 1)).any
        (fun s =>
          s.aborted && !s.ended &&
            match s.phase with
            | .returned (.ok _) => true
            | _ => false) =
      true := by
  rfl

end RustyIce
