import RustyIce.Ingest.PacingRate
import RustyIce.Ingest.Transcoding
import RustyIce.Library.Machine
import RustyIce.Server.Chunked
import RustyIce.Server.TranscodeDecision

/-
  Every way the ingest of a source can end: the publish loop
  with its cancellation, the errors of its reader and the
  waits of its pacing, the division that panics, and the
  pipeline that panics over an encoder it could not build.

  Main declarations:
    * `IngestError`, `IngestLoop`
    * `IngestPhase`, `IngestEvent`, `ingestMachine`
    * `IngestBuild.ZeroRate`, `IngestBuild.Paced`
    * `IngestBuild.Unbuilt`, `IngestBuild.Encodes`
    * `ingest_endings`
-/

------------------------------------------------------------
-- The Loop And Its Endings
------------------------------------------------------------

namespace RustyIce

open Ingest Transcode

inductive IngestError where
| io (error : IoError)
| mountBusy
| cancelled
| transcodeInit (message : String)
deriving DecidableEq, Repr

variable {Sample : Type}

/- `TranscodePipeline::new`, which may fail by its type. -/
def newPipeline
    (lib : Symphonia Sample)
    (E : Engines Sample)
    (config : TranscodeConfig)
    (sourceCodec : CodecId)
    (comments : List (String × String)) :
    Except String (TranscodePipeline lib E) :=
  .ok (.new config sourceCodec comments)

/- The variables of the loop, with or without a pipeline. -/
inductive IngestLoop
    (lib : Symphonia Sample)
    (E : Engines Sample) where
| passthrough (st : PublishLoop)
| transcoding
    (config : TranscodeConfig)
    (st : TranscodeLoop lib E)

namespace IngestLoop

variable {lib : Symphonia Sample}
variable {E : Engines Sample}

/- The pipeline panics over a chunk, or at the end. -/
def panicsAt (data : Bytes) : IngestLoop lib E → Bool
| .passthrough _ => false
| .transcoding _ st => st.panicsAt data

def panicsAtEnd : IngestLoop lib E → Bool
| .passthrough _ => false
| .transcoding _ st => st.panicsAtEnd

/- One chunk up to the pacing. -/
def chunk
    (codec : CodecId)
    (data : Bytes) : IngestLoop lib E → IngestLoop lib E
| .passthrough st => .passthrough (st.publishChunk codec data)
| .transcoding config st =>
    .transcoding config
      (st.pushChunk codec (outputCodecFor config.format) data)

def pacingBps : IngestLoop lib E → Option Nat
| .passthrough st => st.sourceRate
| .transcoding config st => st.pacingBps config

def stats
    (source : PublishLoop)
    (publisher : Publisher) : SourceStats where
  bytesReceived := source.bytesReceived
  packetsPublished := publisher.sequence

/- The source has disconnected. -/
def finish : IngestLoop lib E → SourceStats
| .passthrough st => stats st st.publisher
| .transcoding config st =>
    stats st.source
      (finishPipeline (outputCodecFor config.format)
        st.pipeline st.source.publisher)

end IngestLoop

/-
  Where the loop is: at its `select!`, in the wait of its
  pacing, or at an end.
-/
inductive IngestPhase
    (lib : Symphonia Sample)
    (E : Engines Sample) where
| selecting (loop : IngestLoop lib E)
| pacing (loop : IngestLoop lib E)
| returned (result : Except IngestError SourceStats)
| panicked

/-
  What the loop is woken by: its token, an error of the
  reader, a chunk from the reader or the end of them, and
  the end of a wait.
-/
inductive IngestEvent where
| cancelled
| aborted (error : IoError)
| received (data : Bytes)
| closed
| paced
deriving DecidableEq, Repr

namespace IngestPhase

variable {lib : Symphonia Sample}
variable {E : Engines Sample}

/- Behind a chunk: the rate is what the loop divides by. -/
def afterChunk (loop : IngestLoop lib E) : IngestPhase lib E :=
  match loop.pacingBps with
  | none => .selecting loop
  | some 0 => .panicked
  | some (_ + 1) => .pacing loop

/- One chunk with what follows it. -/
def onChunk
    (codec : CodecId)
    (loop : IngestLoop lib E)
    (data : Bytes) : IngestPhase lib E :=
  if loop.panicsAt data then .panicked
  else afterChunk (loop.chunk codec data)

/- The source has disconnected. -/
def onEnd (loop : IngestLoop lib E) : IngestPhase lib E :=
  if loop.panicsAtEnd then .panicked
  else .returned (.ok loop.finish)

/- The reader sends no empty chunk. -/
def step
    (codec : CodecId)
    (phase : IngestPhase lib E)
    (event : IngestEvent) : Option (IngestPhase lib E) :=
  match phase, event with
  | .selecting _, .cancelled =>
      some (.returned (.error .cancelled))
  | .selecting _, .aborted e =>
      some (.returned (.error (.io e)))
  | .selecting loop, .received data =>
      if data = [] then none
      else some (onChunk codec loop data)
  | .selecting loop, .closed => some (onEnd loop)
  | .pacing _, .cancelled =>
      some (.returned (.error .cancelled))
  | .pacing _, .aborted e =>
      some (.returned (.error (.io e)))
  | .pacing loop, .paced => some (.selecting loop)
  | _, _ => none

end IngestPhase

/- The loop a build starts with, once it has its pipeline. -/
def IngestBuild.start
    (lib : Symphonia Sample)
    (E : Engines Sample)
    (build : IngestBuild)
    (codec : CodecId) : IngestPhase lib E :=
  match build.transcode with
  | none => .selecting (.passthrough (.start build.ingest codec))
  | some config =>
      match
          newPipeline lib E config codec
            build.transcodeComments with
      | .error e => .returned (.error (.transcodeInit e))
      | .ok pipeline =>
          .selecting
            (.transcoding config
              { source :=
                  .start build.ingest
                    (outputCodecFor config.format)
                pipeline := pipeline
                outputBytes := 0 })

/- `IcecastIngest::run`. -/
def ingestMachine
    (lib : Symphonia Sample)
    (E : Engines Sample)
    (build : IngestBuild)
    (codec : CodecId) :
    Library.Machine (IngestPhase lib E) IngestEvent where
  init := fun phase => phase = build.start lib E codec
  step := IngestPhase.step codec

end RustyIce

------------------------------------------------------------
-- The Rate Behind Some Chunks
------------------------------------------------------------

namespace RustyIce

open Ingest Transcode

variable {Sample : Type}

/- The chunks among some events. -/
def receivedChunks (events : List IngestEvent) : List Bytes :=
  events.filterMap fun event =>
    match event with
    | .received data => some data
    | _ => none

/- Some chunk makes the pipeline put something out. -/
def AnyOutput
    {lib : Symphonia Sample}
    {E : Engines Sample}
    (p : TranscodePipeline lib E) : List Bytes → Prop
| [] => False
| data :: rest =>
    (∃ out, (p.push data).1 = .ok out ∧ out ≠ []) ∨
      AnyOutput (p.push data).2 rest

namespace IngestBuild

/-
  The rate the source is paced at behind these chunks is
  zero: the maximum, or else a Vorbis nominal bitrate that
  is below a thousand.
-/
def ZeroSource
    (build : IngestBuild)
    (codec : CodecId)
    (chunks : List Bytes) : Prop :=
  match build.ingest.maxRateBps with
  | some bps => bps = 0
  | none =>
      codec = .VORBIS ∧
        ∃ nominal < 1000,
          chunks.findSome? firstNominal = some nominal

/- With a transcode that rate rules up to its first output. -/
def ZeroRate
    (lib : Symphonia Sample)
    (E : Engines Sample)
    (build : IngestBuild)
    (codec : CodecId)
    (chunks : List Bytes) : Prop :=
  match build.transcode with
  | none => build.ZeroSource codec chunks
  | some config =>
      let p : TranscodePipeline lib E :=
        .new config codec build.transcodeComments
      (AnyOutput p chunks ∧ config.bitrateKbps = 0) ∨
        (¬ AnyOutput p chunks ∧ build.ZeroSource codec chunks)

/- Behind none of the chunks the rate is zero. -/
def Paced
    (lib : Symphonia Sample)
    (E : Engines Sample)
    (build : IngestBuild)
    (codec : CodecId)
    (chunks : List Bytes) : Prop :=
  ∀ front, front ≠ [] → front <+: chunks →
    ¬ build.ZeroRate lib E codec front

end IngestBuild

/- The formats of the samples decoded from some chunks. -/
def decodedFormats
    {lib : Symphonia Sample}
    (d : StreamDecoder lib) : List Bytes → List (Nat × Nat)
| [] => []
| data :: rest =>
    decodedFormat (d.push data).1 ++
      decodedFormats (d.push data).2 rest

/- The decoder behind them. -/
def decoderBehind
    {lib : Symphonia Sample}
    (d : StreamDecoder lib)
    (chunks : List Bytes) : StreamDecoder lib :=
  chunks.foldl (fun d data => (d.push data).2) d

namespace IngestBuild

/-
  With a transcode: samples of these chunks come in a format
  that had no encoder when the samples before came in it.
-/
def Unbuilt
    (lib : Symphonia Sample)
    (E : Engines Sample)
    (build : IngestBuild)
    (codec : CodecId)
    (chunks : List Bytes) : Prop :=
  ∃ config ∈ build.transcode,
    Transcode.Unbuilt E config build.transcodeComments
      (decodedFormats
        (.new codec : StreamDecoder lib) chunks)

/- So do they with what is decoded at the end of them. -/
def UnbuiltAtEnd
    (lib : Symphonia Sample)
    (E : Engines Sample)
    (build : IngestBuild)
    (codec : CodecId)
    (chunks : List Bytes) : Prop :=
  ∃ config ∈ build.transcode,
    Transcode.Unbuilt E config build.transcodeComments
      (decodedFormats
          (.new codec : StreamDecoder lib) chunks ++
        flushedFormat
          (decoderBehind
            (.new codec : StreamDecoder lib)
              chunks).flushEof.1)

/- The samples of a source have an encoder to go to. -/
structure Encodes
    (lib : Symphonia Sample)
    (E : Engines Sample)
    (build : IngestBuild)
    (codec : CodecId)
    (events : List IngestEvent) : Prop where
  chunks :
    ¬ build.Unbuilt lib E codec (receivedChunks events)
  atEnd :
    .closed ∈ events →
      ¬ build.UnbuiltAtEnd lib E codec
        (receivedChunks events)

/- What a loop does not survive. -/
def Fatal
    (lib : Symphonia Sample)
    (E : Engines Sample)
    (build : IngestBuild)
    (codec : CodecId)
    (chunks : List Bytes) : Prop :=
  build.ZeroRate lib E codec chunks ∨
    build.Unbuilt lib E codec chunks

end IngestBuild

end RustyIce

------------------------------------------------------------
-- The Loop Behind Some Chunks
------------------------------------------------------------

namespace RustyIce

open Ingest Transcode

variable {Sample : Type}
variable {lib : Symphonia Sample}
variable {E : Engines Sample}
variable {build : IngestBuild}
variable {codec : CodecId}
variable {front : List Bytes}
variable {data : Bytes}

/- The rate that is shown behind these chunks, if any. -/
def IngestBuild.shownRate
    (build : IngestBuild)
    (codec : CodecId)
    (chunks : List Bytes) : Option Nat :=
  match build.ingest.maxRateBps with
  | some bps => some bps
  | none => chunks.findSome? (PublishLoop.detectRate codec)

theorem shownRate_eq_zero_iff :
    build.shownRate codec front = some 0 ↔
      build.ZeroSource codec front := by
  unfold IngestBuild.shownRate IngestBuild.ZeroSource
  cases build.ingest.maxRateBps with
  | some bps => simp
  | none =>
      have hShown := detectRate_ne_zero_iff codec front
      rw [← not_iff_not]
      refine hShown.trans ?_
      push Not
      constructor
      · intro hHigh hVorbis nominal hLow hFirst
        have := hHigh hVorbis nominal hFirst
        omega
      · intro hHigh hVorbis nominal hFirst
        by_contra hLow
        exact hHigh hVorbis nominal (by omega) hFirst

/- The source's rate and its lock are those of the chunks. -/
structure RateBehind
    (build : IngestBuild)
    (codec : CodecId)
    (front : List Bytes)
    (st : PublishLoop) : Prop where
  rate : st.sourceRate = build.shownRate codec front
  locked :
    st.sourceRateLocked =
      (build.shownRate codec front).isSome

theorem rateBehind_start (codec' : CodecId) :
    RateBehind build codec []
      (.start build.ingest codec') where
  rate := by
    unfold IngestBuild.shownRate PublishLoop.start
    cases build.ingest.maxRateBps <;> rfl
  locked := by
    unfold IngestBuild.shownRate PublishLoop.start
    cases build.ingest.maxRateBps <;> rfl

theorem shownRate_snoc :
    build.shownRate codec (front ++ [data]) =
      (build.shownRate codec front).or
        (PublishLoop.detectRate codec data) := by
  unfold IngestBuild.shownRate
  cases build.ingest.maxRateBps with
  | some bps => rfl
  | none =>
      rw [List.findSome?_append, List.findSome?_singleton]

theorem RateBehind.lockRate
    {st : PublishLoop}
    (hRate : RateBehind build codec front st)
    (data : Bytes) :
    RateBehind build codec (front ++ [data])
      (st.lockRate codec data) := by
  unfold PublishLoop.lockRate
  rw [hRate.locked]
  cases hShown : build.shownRate codec front with
  | some bps =>
      constructor
      · rw [shownRate_snoc, hShown]
        simp [hRate.rate, hShown]
      · rw [shownRate_snoc, hShown]
        simp [hRate.locked, hShown]
  | none =>
      cases hData : PublishLoop.detectRate codec data with
      | some bps =>
          constructor
          · rw [shownRate_snoc, hShown, hData]
            rfl
          · rw [shownRate_snoc, hShown, hData]
            rfl
      | none =>
          constructor
          · rw [shownRate_snoc, hShown, hData]
            simp [hRate.rate, hShown]
          · rw [shownRate_snoc, hShown, hData]
            simp [hRate.locked, hShown]

/- The pipeline behind some chunks. -/
def pushedChunks
    (p : TranscodePipeline lib E)
    (chunks : List Bytes) : TranscodePipeline lib E :=
  chunks.foldl (fun p data => (p.push data).2) p

theorem anyOutput_snoc
    {p : TranscodePipeline lib E} :
    AnyOutput p (front ++ [data]) ↔
      AnyOutput p front ∨
        ∃ out,
          ((pushedChunks p front).push data).1 = .ok out ∧
            out ≠ [] := by
  induction front generalizing p with
  | nil => simp [AnyOutput, pushedChunks]
  | cons first front ih =>
      rw [List.cons_append, AnyOutput, AnyOutput, ih,
        or_assoc]
      rfl

namespace Ingest.TranscodeLoop

variable {st : TranscodeLoop lib E}
variable {outputCodec : CodecId}

theorem publishOutput_frame
    (st : TranscodeLoop lib E)
    (out : Bytes) :
    (st.publishOutput outputCodec out).source.sourceRate =
        st.source.sourceRate ∧
      (st.publishOutput outputCodec
            out).source.sourceRateLocked =
          st.source.sourceRateLocked ∧
        (st.publishOutput outputCodec out).outputBytes =
          st.outputBytes + out.length := by
  unfold publishOutput
  split
  · rename_i hEmpty
    rw [hEmpty]
    exact ⟨rfl, rfl, rfl⟩
  · exact ⟨rfl, rfl, rfl⟩

/- A chunk, by what the pipeline makes of it. -/
theorem pushChunk_frame
    (st : TranscodeLoop lib E)
    (codec outputCodec : CodecId)
    (data : Bytes) :
    (st.pushChunk codec outputCodec data).source.sourceRate =
        (st.source.lockRate codec data).sourceRate ∧
      (st.pushChunk codec outputCodec
            data).source.sourceRateLocked =
          (st.source.lockRate codec data).sourceRateLocked ∧
        (st.pushChunk codec outputCodec data).pipeline =
            (st.pipeline.push data).2 ∧
          (0 < (st.pushChunk codec outputCodec
                data).outputBytes ↔
            0 < st.outputBytes ∨
              ∃ out,
                (st.pipeline.push data).1 = .ok out ∧
                  out ≠ []) := by
  rcases hPush : st.pipeline.push data with ⟨result, next⟩
  cases result with
  | error e => simp [pushChunk, hPush]
  | ok out =>
      simp only [pushChunk, hPush]
      rw [(publishOutput_frame _ out).1,
        (publishOutput_frame _ out).2.1,
        (publishOutput_frame _ out).2.2,
        (publishOutput_spec _ out).2]
      simp [List.length_pos_iff]

end Ingest.TranscodeLoop

/- The loop behind some chunks. -/
def Behind
    (build : IngestBuild)
    (codec : CodecId)
    (front : List Bytes) : IngestLoop lib E → Prop
| .passthrough st =>
    build.transcode = none ∧ RateBehind build codec front st
| .transcoding config st =>
    let p : TranscodePipeline lib E :=
      .new config codec build.transcodeComments
    build.transcode = some config ∧
      RateBehind build codec front st.source ∧
        st.pipeline = pushedChunks p front ∧
          (0 < st.outputBytes ↔ AnyOutput p front)

theorem behind_chunk
    {loop : IngestLoop lib E}
    (hBehind : Behind build codec front loop)
    (data : Bytes) :
    Behind build codec (front ++ [data])
      (loop.chunk codec data) := by
  cases loop with
  | passthrough st =>
      have hRate := hBehind.2.lockRate data
      exact ⟨hBehind.1, hRate.rate, hRate.locked⟩
  | transcoding config st =>
      obtain ⟨hBuild, hRate, hPipeline, hBytes⟩ := hBehind
      have hNext := hRate.lockRate data
      obtain ⟨hSource, hLocked, hPushed, hOutput⟩ :=
        st.pushChunk_frame codec
          (outputCodecFor config.format) data
      refine ⟨hBuild, ⟨?_, ?_⟩, ?_, ?_⟩
      · exact hSource.trans hNext.rate
      · exact hLocked.trans hNext.locked
      · rw [hPushed, hPipeline, pushedChunks, pushedChunks,
          List.foldl_concat]
      · rw [hOutput, hBytes, hPipeline, anyOutput_snoc]

/- Such a loop divides by zero exactly at a zero rate. -/
theorem pacingBps_eq_zero_iff
    {loop : IngestLoop lib E}
    (hBehind : Behind build codec front loop) :
    loop.pacingBps = some 0 ↔
      build.ZeroRate lib E codec front := by
  cases loop with
  | passthrough st =>
      obtain ⟨hBuild, hRate⟩ := hBehind
      rw [IngestLoop.pacingBps, hRate.rate,
        shownRate_eq_zero_iff, IngestBuild.ZeroRate, hBuild]
  | transcoding config st =>
      obtain ⟨hBuild, hRate, -, hBytes⟩ := hBehind
      rw [IngestLoop.pacingBps, TranscodeLoop.pacingBps,
        IngestBuild.ZeroRate, hBuild]
      by_cases hOutput : 0 < st.outputBytes
      · have hAny := hBytes.mp hOutput
        rw [if_pos hOutput]
        simp only [Option.some.injEq, hAny, true_and,
          not_true_eq_false, false_and, or_false]
        omega
      · have hNone := mt hBytes.mpr hOutput
        rw [if_neg hOutput, hRate.rate, shownRate_eq_zero_iff]
        simp only [hNone, false_and, not_false_eq_true,
          true_and, false_or]

theorem behind_start
    (lib : Symphonia Sample)
    (E : Engines Sample)
    (build : IngestBuild)
    (codec : CodecId) :
    ∃ loop,
      build.start lib E codec = .selecting loop ∧
        Behind build codec [] loop := by
  unfold IngestBuild.start
  cases hBuild : build.transcode with
  | none =>
      exact ⟨_, rfl, hBuild, rateBehind_start codec⟩
  | some config =>
      refine ⟨_, rfl, hBuild, ?_, rfl, ?_⟩
      · exact rateBehind_start _
      · simp [AnyOutput]

theorem decodedFormats_snoc
    (d : StreamDecoder lib)
    (front : List Bytes)
    (data : Bytes) :
    decodedFormats d (front ++ [data]) =
      decodedFormats d front ++
        decodedFormat ((decoderBehind d front).push data).1 := by
  induction front generalizing d with
  | nil => simp [decodedFormats, decoderBehind]
  | cons first front ih =>
      rw [List.cons_append, decodedFormats, ih,
        decodedFormats, List.append_assoc]
      rfl

theorem unbuilt_prefix_chunks
    {chunks : List Bytes}
    (hFront : front <+: chunks)
    (hUnbuilt : build.Unbuilt lib E codec front) :
    build.Unbuilt lib E codec chunks := by
  rcases hFront with ⟨rest, rfl⟩
  induction rest using List.reverseRecOn with
  | nil => simpa using hUnbuilt
  | append_singleton rest data ih =>
      rcases ih with ⟨config, hBuild, hSome⟩
      refine ⟨config, hBuild, ?_⟩
      rw [← List.append_assoc, decodedFormats_snoc]
      exact unbuilt_mono (List.prefix_append _ _) hSome

/- The pipeline behind chunks that did not make it panic. -/
structure PushedBehind
    (config : TranscodeConfig)
    (comments : List (String × String))
    (codec : CodecId)
    (front : List Bytes)
    (p : TranscodePipeline lib E) : Prop where
  standing :
    p.Standing
      (decodedFormats
        (.new codec : StreamDecoder lib) front)
  config_eq : p.config = config
  comments_eq : p.comments = comments
  decoder_eq : p.decoder = decoderBehind (.new codec) front

theorem pushedBehind
    {config : TranscodeConfig}
    {comments : List (String × String)}
    (hNot :
      ¬ Transcode.Unbuilt E config comments
        (decodedFormats
          (.new codec : StreamDecoder lib) front)) :
    PushedBehind config comments codec front
      (pushedChunks
        (.new config codec comments :
          TranscodePipeline lib E)
        front) := by
  induction front using List.reverseRecOn with
  | nil =>
      exact
        ⟨TranscodePipeline.standing_new config codec comments,
          rfl, rfl, rfl⟩
  | append_singleton front data ih =>
      rw [decodedFormats_snoc] at hNot
      have hBefore :=
        ih fun hSome =>
          hNot (unbuilt_mono (List.prefix_append _ _) hSome)
      rw [pushedChunks, List.foldl_concat, ← pushedChunks]
      generalize pushedChunks (.new config codec comments) front
        = p at hBefore
      rcases hPush : p.push data with ⟨result, next⟩
      obtain ⟨hPanics, hNext, hConfig, hComments, hDecoder⟩ :=
        TranscodePipeline.push_panics_iff hBefore.standing
          (by
            rw [hBefore.config_eq, hBefore.comments_eq]
            exact fun hSome =>
              hNot
                (unbuilt_mono (List.prefix_append _ _)
                  hSome))
          hPush
      rw [hBefore.config_eq, hBefore.comments_eq,
        hBefore.decoder_eq] at hPanics
      have hQuiet : panics result = false := by
        rw [← Bool.not_eq_true, hPanics]
        exact hNot
      refine
        { standing := ?_
          config_eq := hConfig.trans hBefore.config_eq
          comments_eq := hComments.trans hBefore.comments_eq
          decoder_eq := ?_ }
      · rw [decodedFormats_snoc, ← hBefore.decoder_eq]
        exact hNext hQuiet
      · rw [hDecoder, hBefore.decoder_eq, decoderBehind,
          decoderBehind, List.foldl_concat]

/- Such a loop panics over a chunk without an encoder. -/
theorem panicsAt_iff
    {loop : IngestLoop lib E}
    (hBehind : Behind build codec front loop)
    (hNot : ¬ build.Unbuilt lib E codec front)
    (data : Bytes) :
    loop.panicsAt data = true ↔
      build.Unbuilt lib E codec (front ++ [data]) := by
  cases loop with
  | passthrough st =>
      simp [IngestLoop.panicsAt, IngestBuild.Unbuilt,
        hBehind.1]
  | transcoding config st =>
      obtain ⟨hBuild, -, hPipeline, -⟩ := hBehind
      have hOne :
          ¬ Transcode.Unbuilt E config build.transcodeComments
            (decodedFormats
              (.new codec : StreamDecoder lib) front) :=
        fun hSome => hNot ⟨config, hBuild, hSome⟩
      have hPushed := pushedBehind hOne
      rw [← hPipeline] at hPushed
      rcases hPush : st.pipeline.push data with ⟨result, next⟩
      obtain ⟨hPanics, -⟩ :=
        TranscodePipeline.push_panics_iff hPushed.standing
          (by
            rw [hPushed.config_eq, hPushed.comments_eq]
            exact hOne)
          hPush
      rw [hPushed.config_eq, hPushed.comments_eq,
        hPushed.decoder_eq, ← decodedFormats_snoc] at hPanics
      simp only [IngestLoop.panicsAt, TranscodeLoop.panicsAt,
        hPush, IngestBuild.Unbuilt, hBuild, Option.mem_def,
        Option.some.injEq, exists_eq_left']
      exact hPanics

theorem panicsAtEnd_iff
    {loop : IngestLoop lib E}
    (hBehind : Behind build codec front loop)
    (hNot : ¬ build.Unbuilt lib E codec front) :
    loop.panicsAtEnd = true ↔
      build.UnbuiltAtEnd lib E codec front := by
  cases loop with
  | passthrough st =>
      simp [IngestLoop.panicsAtEnd, IngestBuild.UnbuiltAtEnd,
        hBehind.1]
  | transcoding config st =>
      obtain ⟨hBuild, -, hPipeline, -⟩ := hBehind
      have hOne :
          ¬ Transcode.Unbuilt E config build.transcodeComments
            (decodedFormats
              (.new codec : StreamDecoder lib) front) :=
        fun hSome => hNot ⟨config, hBuild, hSome⟩
      have hPushed := pushedBehind hOne
      rw [← hPipeline] at hPushed
      have hPanics :=
        TranscodePipeline.flush_panics_iff hPushed.standing
          (by
            rw [hPushed.config_eq, hPushed.comments_eq]
            exact hOne)
      rw [hPushed.config_eq, hPushed.comments_eq,
        hPushed.decoder_eq] at hPanics
      simp only [IngestLoop.panicsAtEnd,
        TranscodeLoop.panicsAtEnd, IngestBuild.UnbuiltAtEnd,
        hBuild, Option.mem_def, Option.some.injEq,
        exists_eq_left']
      exact hPanics

/- How far a run of the ingest has come. -/
def PhaseBehind
    (build : IngestBuild)
    (codec : CodecId)
    (front : List Bytes) : IngestPhase lib E → Prop
| .selecting loop =>
    Behind build codec front loop ∧
      ¬ build.Unbuilt lib E codec front
| .pacing loop =>
    Behind build codec front loop ∧
      ¬ build.Unbuilt lib E codec front
| .returned result =>
    ∀ message, result ≠ .error (.transcodeInit message)
| .panicked =>
    build.Fatal lib E codec front ∨
      build.UnbuiltAtEnd lib E codec front

/- A chunk: the loop goes on, or it was fatal. -/
theorem phaseBehind_onChunk
    {loop : IngestLoop lib E}
    (hBehind : Behind build codec front loop)
    (hNot : ¬ build.Unbuilt lib E codec front)
    (data : Bytes) :
    PhaseBehind build codec (front ++ [data])
        (IngestPhase.onChunk codec loop data) ∧
      (IngestPhase.onChunk codec loop data = .panicked ↔
        build.Fatal lib E codec (front ++ [data])) := by
  have hPanics := panicsAt_iff hBehind hNot data
  have hChunk := behind_chunk hBehind data
  have hZero := pacingBps_eq_zero_iff hChunk
  unfold IngestPhase.onChunk IngestPhase.afterChunk
  split_ifs with hNow
  · have hFatal :
        build.Fatal lib E codec (front ++ [data]) :=
      .inr (hPanics.mp hNow)
    exact ⟨.inl hFatal, iff_of_true rfl hFatal⟩
  · have hBuilt :
        ¬ build.Unbuilt lib E codec (front ++ [data]) :=
      mt hPanics.mpr hNow
    have hQuiet :
        (loop.chunk codec data).pacingBps ≠ some 0 →
          ¬ build.Fatal lib E codec (front ++ [data]) := by
      rintro hRate (hNull | hSome)
      · exact hRate (hZero.mpr hNull)
      · exact hBuilt hSome
    cases hRate : (loop.chunk codec data).pacingBps with
    | none =>
        rw [hRate] at hQuiet
        refine ⟨⟨hChunk, hBuilt⟩, iff_of_false (by simp) ?_⟩
        exact hQuiet (by simp)
    | some bps =>
        rw [hRate] at hZero hQuiet
        cases bps with
        | zero =>
            have hFatal :
                build.Fatal lib E codec (front ++ [data]) :=
              .inl (hZero.mp rfl)
            exact ⟨.inl hFatal, iff_of_true rfl hFatal⟩
        | succ bps =>
            refine
              ⟨⟨hChunk, hBuilt⟩, iff_of_false (by simp) ?_⟩
            exact hQuiet (by simp)

/- Its chunk, or the end, is what a loop panics at. -/
def PanicsNow
    (lib : Symphonia Sample)
    (E : Engines Sample)
    (build : IngestBuild)
    (codec : CodecId)
    (front : List Bytes)
    (event : IngestEvent) : Prop :=
  (receivedChunks [event] ≠ [] ∧
      build.Fatal lib E codec
        (front ++ receivedChunks [event])) ∨
    (event = .closed ∧ build.UnbuiltAtEnd lib E codec front)

/-
  One event: a chunk is added and decides between going on
  and panicking, anything else keeps the chunks.
-/
theorem phaseBehind_step
    {phase next : IngestPhase lib E}
    {event : IngestEvent}
    (hBehind : PhaseBehind build codec front phase)
    (hStep : phase.step codec event = some next) :
    phase ≠ .panicked ∧
      PhaseBehind build codec
          (front ++ receivedChunks [event]) next ∧
        (next = .panicked ↔
          PanicsNow lib E build codec front event) := by
  -- An event that is no chunk ends the run or a wait.
  have hReturned :
      ∀ result : Except IngestError SourceStats,
        (∀ message, result ≠ .error (.transcodeInit message)) →
          ¬ PanicsNow lib E build codec front event →
            next = .returned result →
              PhaseBehind build codec
                  (front ++ receivedChunks [event]) next ∧
                (next = .panicked ↔
                  PanicsNow lib E build codec front event) := by
    rintro result hOther hQuiet rfl
    exact ⟨hOther, iff_of_false (by simp) hQuiet⟩
  unfold IngestPhase.step at hStep
  split at hStep
  · cases hStep
    exact
      ⟨by simp, hReturned _ (by simp)
        (by simp [PanicsNow, receivedChunks]) rfl⟩
  · cases hStep
    exact
      ⟨by simp, hReturned _ (by simp)
        (by simp [PanicsNow, receivedChunks]) rfl⟩
  · split at hStep
    · cases hStep
    · rename_i loop data _
      cases hStep
      obtain ⟨hNext, hPanics⟩ :=
        phaseBehind_onChunk hBehind.1 hBehind.2 data
      refine ⟨by simp, hNext, hPanics.trans ?_⟩
      simp [PanicsNow, receivedChunks]
  · rename_i loop
    cases hStep
    have hPanics := panicsAtEnd_iff hBehind.1 hBehind.2
    unfold IngestPhase.onEnd
    split_ifs with hNow
    · have hEnd := hPanics.mp hNow
      refine
        ⟨by simp, .inr ?_, iff_of_true rfl (.inr ⟨rfl, hEnd⟩)⟩
      simpa [receivedChunks] using hEnd
    · have hQuiet := mt hPanics.mpr hNow
      refine
        ⟨by simp, by simp [PhaseBehind],
          iff_of_false (by simp) ?_⟩
      simpa [PanicsNow, receivedChunks] using hQuiet
  · cases hStep
    exact
      ⟨by simp, hReturned _ (by simp)
        (by simp [PanicsNow, receivedChunks]) rfl⟩
  · cases hStep
    exact
      ⟨by simp, hReturned _ (by simp)
        (by simp [PanicsNow, receivedChunks]) rfl⟩
  · rename_i loop
    cases hStep
    have hLoop := hBehind
    refine ⟨by simp, ?_, by simp [PanicsNow, receivedChunks]⟩
    simpa [receivedChunks, PhaseBehind] using hLoop
  · cases hStep

/- The first of some chunks behind which something holds. -/
theorem exists_prefix_append_iff
    {P : List Bytes → Prop}
    {first rest : List Bytes}
    (hOne : first.length ≤ 1)
    (hFirst : first ≠ [] → ¬ P first) :
    (∃ more, more ≠ [] ∧ more <+: first ++ rest ∧ P more) ↔
      ∃ more,
        more ≠ [] ∧ more <+: rest ∧ P (first ++ more) := by
  constructor
  · rintro ⟨more, hSome, hPrefix, hP⟩
    rcases List.prefix_or_prefix_of_prefix hPrefix
        (List.prefix_append first rest) with hIn | ⟨tail, rfl⟩
    · have hSame : more = first := by
        apply hIn.eq_of_length
        have hLong := List.length_pos_of_ne_nil hSome
        have hShort := hIn.length_le
        omega
      rw [hSame] at hSome hP
      exact absurd hP (hFirst hSome)
    · refine ⟨tail, ?_, ?_, hP⟩
      · rintro rfl
        rw [List.append_nil] at hSome hP
        exact hFirst hSome hP
      · exact (List.prefix_append_right_inj first).mp hPrefix
  · rintro ⟨more, hSome, hPrefix, hP⟩
    refine ⟨first ++ more, ?_, ?_, hP⟩
    · intro hNone
      exact hSome (List.append_eq_nil_iff.mp hNone).2
    · exact (List.prefix_append_right_inj first).mpr hPrefix

theorem length_receivedChunks_le (event : IngestEvent) :
    (receivedChunks [event]).length ≤ 1 := by
  cases event <;> simp [receivedChunks]

theorem receivedChunks_cons
    (event : IngestEvent)
    (events : List IngestEvent) :
    receivedChunks (event :: events) =
      receivedChunks [event] ++ receivedChunks events :=
  List.filterMap_append (l := [event])

theorem panicked_of_run
    {phase last : IngestPhase lib E}
    {events : List IngestEvent}
    (hBehind : PhaseBehind build codec front phase)
    (hGoing : phase ≠ .panicked)
    (hRun :
      (ingestMachine lib E build codec).run phase events =
        some last) :
    (∃ all, PhaseBehind build codec all last) ∧
      (last = .panicked ↔
        (∃ more,
            more ≠ [] ∧ more <+: receivedChunks events ∧
              build.Fatal lib E codec (front ++ more)) ∨
          (.closed ∈ events ∧
            build.UnbuiltAtEnd lib E codec
              (front ++ receivedChunks events))) := by
  induction events generalizing phase front with
  | nil =>
      cases hRun
      refine ⟨⟨front, hBehind⟩, iff_of_false hGoing ?_⟩
      rintro (⟨more, hSome, hPrefix, -⟩ | ⟨hMem, -⟩)
      · exact hSome (List.prefix_nil.mp hPrefix)
      · cases hMem
  | cons event events ih =>
      rw [Library.Machine.run] at hRun
      split at hRun
      · cases hRun
      · rename_i next hStep
        obtain ⟨-, hNext, hPanics⟩ :=
          phaseBehind_step hBehind hStep
        rw [receivedChunks_cons]
        by_cases hEnded : next = .panicked
        · have hLast : events = [] ∧ last = .panicked := by
            subst hEnded
            cases events with
            | nil =>
                cases hRun
                exact ⟨rfl, rfl⟩
            | cons other events => cases hRun
          rw [hLast.1, hLast.2, ← hEnded]
          refine ⟨⟨_, hNext⟩, iff_of_true rfl ?_⟩
          rcases hPanics.mp hEnded with
            ⟨hSome, hFatal⟩ | ⟨rfl, hEnd⟩
          · exact
              .inl
                ⟨receivedChunks [event], hSome,
                  List.prefix_append _ _, hFatal⟩
          · refine .inr ⟨List.mem_cons_self, ?_⟩
            simpa [receivedChunks] using hEnd
        · obtain ⟨hAll, hRest⟩ := ih hNext hEnded hRun
          have hQuiet := mt hPanics.mpr hEnded
          refine ⟨hAll, ?_⟩
          rw [hRest,
            exists_prefix_append_iff
              (P := fun more =>
                build.Fatal lib E codec (front ++ more))
              (length_receivedChunks_le event)
              fun hSome hFatal =>
                hQuiet (.inl ⟨hSome, hFatal⟩)]
          simp only [List.append_assoc, List.mem_cons]
          refine or_congr_right (and_congr_left ?_)
          intro hEnd
          refine (or_iff_right ?_).symm
          -- Behind the end of the source comes nothing.
          rintro rfl
          have hNothing : events = [] := by
            cases events with
            | nil => rfl
            | cons other events =>
                exfalso
                cases phase with
                | selecting loop =>
                    cases hStep
                    unfold IngestPhase.onEnd at hRun hEnded
                    split_ifs at hRun hEnded
                    · exact hEnded rfl
                    · cases hRun
                | pacing loop => cases hStep
                | returned result => cases hStep
                | panicked => cases hStep
          subst hNothing
          refine hQuiet (.inr ⟨rfl, ?_⟩)
          simpa [receivedChunks] using hEnd

/-
  A run of the ingest, however it ends: building its pipeline
  never fails, and it panics exactly if some chunk brought
  its rate to zero, or samples to an encoder that could not
  be built.
-/
theorem ingest_endings
    {events : List IngestEvent}
    {last : IngestPhase lib E}
    (hRun :
      (ingestMachine lib E build codec).run
          (build.start lib E codec) events =
        some last) :
    (∀ message,
        last ≠ .returned (.error (.transcodeInit message))) ∧
      (last ≠ .panicked ↔
        build.Paced lib E codec (receivedChunks events) ∧
          build.Encodes lib E codec events) := by
  obtain ⟨loop, hStart, hBehind⟩ :=
    behind_start lib E build codec
  have hNone : ¬ build.Unbuilt lib E codec [] := by
    rintro ⟨config, -, before, format, after, hSplit, -⟩
    simp [decodedFormats] at hSplit
  have hPhase :
      PhaseBehind build codec [] (.selecting loop) :=
    ⟨hBehind, hNone⟩
  rw [hStart] at hRun
  obtain ⟨⟨all, hLast⟩, hPanics⟩ :=
    panicked_of_run hPhase (by simp) hRun
  constructor
  · rintro message rfl
    exact hLast message rfl
  · rw [ne_eq, hPanics]
    simp only [List.nil_append]
    constructor
    · intro hQuiet
      rw [not_or] at hQuiet
      refine ⟨?_, ?_, ?_⟩
      · intro front hSome hFront hZero
        exact hQuiet.1 ⟨front, hSome, hFront, .inl hZero⟩
      · intro hUnbuilt
        refine
          hQuiet.1
            ⟨_, ?_, List.prefix_refl _, .inr hUnbuilt⟩
        intro hEmpty
        rw [hEmpty] at hUnbuilt
        exact hNone hUnbuilt
      · exact fun hMem hEnd => hQuiet.2 ⟨hMem, hEnd⟩
    · rintro ⟨hPaced, hEncodes⟩
      rintro (⟨front, hSome, hFront, hZero | hUnbuilt⟩ | hEnd)
      · exact hPaced front hSome hFront hZero
      · exact
          hEncodes.chunks
            (unbuilt_prefix_chunks hFront hUnbuilt)
      · exact hEncodes.atEnd hEnd.1 hEnd.2

end RustyIce
