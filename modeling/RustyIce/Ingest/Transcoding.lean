import RustyIce.Ingest.Icecast
import RustyIce.Output.HttpPassthrough
import RustyIce.Transcode.Pipeline

/-
  The ingest of one source connection with a transcode: each
  chunk goes into the pipeline, what comes out is published,
  and at the end of the source so is the pipeline's tail. A
  pipeline that panics ends the run.

  Main declarations:
    * `TranscodePipeline.outputs`
    * `Publisher.audio`
    * `finishPipeline`, `TranscodeLoop`
    * `audio_finishPipeline`, `audio_transcoded`
-/

------------------------------------------------------------
-- All Outputs Of A Pipeline
------------------------------------------------------------

namespace RustyIce

namespace Transcode

namespace TranscodePipeline

variable {Sample α : Type}
variable {lib : Symphonia Sample}
variable {E : Engines Sample}

/- The outputs of some calls without an error. -/
def outputs
    (call :
      TranscodePipeline lib E → α →
        Call (TranscodePipeline lib E) Bytes)
    (p : TranscodePipeline lib E) :
    List α → Option (Bytes × TranscodePipeline lib E)
| [] => some ([], p)
| input :: inputs =>
    match call p input with
    | (.error _, _) => none
    | (.ok out, next) =>
        match next.outputs call inputs with
        | none => none
        | some (later, last) => some (out ++ later, last)

variable
  {call :
    TranscodePipeline lib E → α →
      Call (TranscodePipeline lib E) Bytes}
variable {p last : TranscodePipeline lib E}

theorem outputs_cons
    {input : α}
    {inputs : List α}
    {out : Bytes}
    (hOutputs :
      p.outputs call (input :: inputs) = some (out, last)) :
    ∃ first next later,
      call p input = (.ok first, next) ∧
        next.outputs call inputs = some (later, last) ∧
        out = first ++ later := by
  rw [outputs] at hOutputs
  split at hOutputs
  · cases hOutputs
  · rename_i first next hCall
    split at hOutputs
    · cases hOutputs
    · rename_i later last' hLater
      cases hOutputs
      exact ⟨first, next, later, hCall, hLater, rfl⟩

theorem outputs_append
    {before after : List α}
    {out : Bytes}
    (hOutputs :
      p.outputs call (before ++ after) = some (out, last)) :
    ∃ first mid later,
      p.outputs call before = some (first, mid) ∧
        mid.outputs call after = some (later, last) ∧
        out = first ++ later := by
  induction before generalizing p out with
  | nil => exact ⟨[], p, out, rfl, hOutputs, rfl⟩
  | cons input inputs ih =>
      obtain ⟨first, next, later, hCall, hLater, rfl⟩ :=
        outputs_cons hOutputs
      obtain ⟨second, mid, rest, hSecond, hRest, rfl⟩ :=
        ih hLater
      refine
        ⟨first ++ second, mid, rest, ?_, hRest,
          (List.append_assoc _ _ _).symm⟩
      simp only [outputs, hCall, hSecond]

end TranscodePipeline

end Transcode

end RustyIce

------------------------------------------------------------
-- What Is Published
------------------------------------------------------------

namespace RustyIce

namespace Publisher

/- The audio handed to the bus, in order. -/
def audio (st : Publisher) : Bytes :=
  st.bus.flatMap Output.packetAudio

/- A packet past the header capture. -/
def publishPacket
    (outputCodec : CodecId)
    (st : Publisher)
    (data : Bytes) : Publisher :=
  { st with
    bus :=
      st.bus ++
        [{ payload :=
             .encoded { codec := outputCodec, data := data }
           sequence := st.sequence }]
    sequence := st.sequence + 1 }

@[simp] theorem audio_publishPacket
    (outputCodec : CodecId)
    (st : Publisher)
    (data : Bytes) :
    (st.publishPacket outputCodec data).audio =
      st.audio ++ data := by
  simp [audio, publishPacket, Output.packetAudio]

@[simp] theorem audio_publishEncoded
    (outputCodec : CodecId)
    (st : Publisher)
    (data : Bytes) :
    (st.publishEncoded outputCodec data).audio =
      st.audio ++ data := by
  simp only [audio, publishEncoded,
    (st.captureHeaders_frame data).1, List.flatMap_append]
  simp [Output.packetAudio]

end Publisher

end RustyIce

------------------------------------------------------------
-- The Publish Loop With A Pipeline
------------------------------------------------------------

namespace RustyIce

namespace Ingest

open Transcode

variable {Sample : Type}
variable {lib : Symphonia Sample}
variable {E : Engines Sample}

/- The codec of what a transcode puts out. -/
def outputCodecFor : TranscodeFormat → CodecId
| .mp3 => .MP3
| .vorbis => .VORBIS

/-
  The source has disconnected: its pipeline's tail, unless
  the pipeline fails.
-/
def finishPipeline
    (outputCodec : CodecId)
    (pipeline : TranscodePipeline lib E)
    (publisher : Publisher) : Publisher :=
  match pipeline.flush.1 with
  | .error _ => publisher
  | .ok tail =>
      if tail = [] then publisher
      else publisher.publishPacket outputCodec tail

/- The variables of the loop. -/
structure TranscodeLoop
    (lib : Symphonia Sample)
    (E : Engines Sample) where
  source : PublishLoop
  pipeline : TranscodePipeline lib E
  outputBytes : Nat

namespace TranscodeLoop

def start
    (ingest : IcecastIngest)
    (config : TranscodeConfig)
    (comments : List (String × String))
    (codec : CodecId) : TranscodeLoop lib E where
  source := .start ingest (outputCodecFor config.format)
  pipeline := .new config codec comments
  outputBytes := 0

/- What the pipeline made of a chunk, if anything. -/
def publishOutput
    (outputCodec : CodecId)
    (st : TranscodeLoop lib E)
    (out : Bytes) : TranscodeLoop lib E :=
  if out = [] then st
  else
    { st with
      source :=
        { st.source with
          publisher :=
            st.source.publisher.publishEncoded outputCodec
              out }
      outputBytes := st.outputBytes + out.length }

/- The pipeline panics over a chunk. -/
def panicsAt
    (st : TranscodeLoop lib E)
    (data : Bytes) : Bool :=
  panics (st.pipeline.push data).1

/- It panics at the end of the source. -/
def panicsAtEnd (st : TranscodeLoop lib E) : Bool :=
  panics st.pipeline.flush.1

/-
  One chunk up to the pacing, and what a panic leaves of the
  loop.
-/
def pushChunk
    (codec outputCodec : CodecId)
    (st : TranscodeLoop lib E)
    (data : Bytes) : TranscodeLoop lib E :=
  let source := st.source.lockRate codec data
  let st :=
    { st with
      source :=
        { source with
          bytesReceived :=
            source.bytesReceived + data.length } }
  match st.pipeline.push data with
  | (.error _, pipeline) => { st with pipeline := pipeline }
  | (.ok out, pipeline) =>
      ({ st with pipeline := pipeline } :
        TranscodeLoop lib E).publishOutput outputCodec out

/- The rate a chunk is paced at. -/
def pacingBps
    (config : TranscodeConfig)
    (st : TranscodeLoop lib E) : Option Nat :=
  if st.outputBytes > 0 then
    some (config.bitrateKbps * 1000 / 8)
  else
    st.source.sourceRate

/-
  The loop over the chunks, which panics with its pipeline,
  and where it divides by a rate of zero.
-/
def pushAll
    (codec : CodecId)
    (config : TranscodeConfig)
    (st : TranscodeLoop lib E) :
    List Bytes → Option (TranscodeLoop lib E)
| [] => some st
| data :: rest =>
    if st.panicsAt data then none
    else
      let st :=
        st.pushChunk codec (outputCodecFor config.format) data
      if st.pacingBps config = some 0 then none
      else st.pushAll codec config rest

end TranscodeLoop

/-
  A run over fragments that end with the end of the source,
  and the bytes it has received.
-/
def runTranscode
    (lib : Symphonia Sample)
    (E : Engines Sample)
    (ingest : IcecastIngest)
    (config : TranscodeConfig)
    (comments : List (String × String))
    (codec : CodecId)
    (fragments : List Bytes) : Option (Publisher × Nat) :=
  match
      (TranscodeLoop.start ingest config comments codec :
        TranscodeLoop lib E).pushAll codec config
          (drainReader codec
            (reads ingest.chunkSize fragments)) with
  | none => none
  | some st =>
      if st.panicsAtEnd then none
      else
        some
          (finishPipeline (outputCodecFor config.format)
              st.pipeline st.source.publisher,
            st.source.bytesReceived)

end Ingest

end RustyIce

------------------------------------------------------------
-- Nothing Is Missing At The End
------------------------------------------------------------

namespace RustyIce

namespace Ingest

open Transcode

variable {Sample : Type}
variable {lib : Symphonia Sample}
variable {E : Engines Sample}

theorem audio_finishPipeline
    (outputCodec : CodecId)
    {pipeline final : TranscodePipeline lib E}
    {tail : Bytes}
    (hFlush : pipeline.flush = (.ok tail, final))
    (publisher : Publisher) :
    (finishPipeline outputCodec pipeline publisher).audio =
      publisher.audio ++ tail := by
  simp only [finishPipeline, hFlush]
  split
  · rename_i hNone
    rw [hNone, List.append_nil]
  · exact Publisher.audio_publishPacket _ _ _

namespace TranscodeLoop

variable {codec outputCodec : CodecId}
variable {config : TranscodeConfig}
variable {st done : TranscodeLoop lib E}

/- An output is published, and nothing else is. -/
theorem publishOutput_spec
    (st : TranscodeLoop lib E)
    (out : Bytes) :
    (st.publishOutput outputCodec out).source.publisher.audio =
        st.source.publisher.audio ++ out ∧
      (st.publishOutput outputCodec out).pipeline =
        st.pipeline := by
  unfold publishOutput
  split
  · rename_i hNone
    rw [hNone, List.append_nil]
    exact ⟨rfl, rfl⟩
  · exact ⟨Publisher.audio_publishEncoded _ _ _, rfl⟩

theorem pushChunk_ok
    (codec outputCodec : CodecId)
    {data out : Bytes}
    {next : TranscodePipeline lib E}
    (hPush : st.pipeline.push data = (.ok out, next)) :
    (st.pushChunk codec outputCodec
            data).source.publisher.audio =
        st.source.publisher.audio ++ out ∧
      (st.pushChunk codec outputCodec data).pipeline =
        next := by
  obtain ⟨hPublisher, _⟩ :=
    st.source.lockRate_frame codec data
  simp only [pushChunk, hPush]
  rw [(publishOutput_spec _ out).1,
    (publishOutput_spec _ out).2]
  simp only [hPublisher, and_self]

/- A loop publishes all that its pipeline puts out. -/
theorem pushAll_ok
    {chunks : List Bytes}
    (hDone : st.pushAll codec config chunks = some done)
    {out : Bytes}
    {last : TranscodePipeline lib E}
    (hOutputs :
      st.pipeline.outputs TranscodePipeline.push chunks =
        some (out, last)) :
    done.source.publisher.audio =
        st.source.publisher.audio ++ out ∧
      done.pipeline = last := by
  induction chunks generalizing st out with
  | nil =>
      cases hDone
      cases hOutputs
      simp
  | cons data rest ih =>
      obtain ⟨first, next, later, hPush, hLater, rfl⟩ :=
        TranscodePipeline.outputs_cons hOutputs
      obtain ⟨hAudio, hPipeline⟩ :=
        pushChunk_ok codec (outputCodecFor config.format)
          hPush
      simp only [pushAll] at hDone
      split_ifs at hDone
      · rw [← hPipeline] at hLater
        obtain ⟨hRest, hLast⟩ := ih hDone hLater
        rw [hRest, hAudio, List.append_assoc]
        exact ⟨rfl, hLast⟩

end TranscodeLoop

/-
  A source session with a transcode publishes the outputs of
  its pipeline and then the pipeline's tail.
-/
theorem audio_runTranscode
    {ingest : IcecastIngest}
    {config : TranscodeConfig}
    {comments : List (String × String)}
    {codec : CodecId}
    {fragments : List Bytes}
    {publisher : Publisher}
    {received : Nat}
    (hRun :
      runTranscode lib E ingest config comments codec
          fragments =
        some (publisher, received))
    {out tail : Bytes}
    {last final : TranscodePipeline lib E}
    (hOutputs :
      (TranscodePipeline.new config codec comments).outputs
          TranscodePipeline.push
          (drainReader codec
            (reads ingest.chunkSize fragments)) =
        some (out, last))
    (hFlush : last.flush = (.ok tail, final)) :
    publisher.audio = out ++ tail := by
  unfold runTranscode at hRun
  split at hRun
  · cases hRun
  · rename_i st hDone
    split_ifs at hRun
    cases hRun
    obtain ⟨hAudio, hLast⟩ :=
      TranscodeLoop.pushAll_ok hDone hOutputs
    rw [← hLast] at hFlush
    rw [audio_finishPipeline _ hFlush, hAudio]
    rfl

end Ingest

end RustyIce
