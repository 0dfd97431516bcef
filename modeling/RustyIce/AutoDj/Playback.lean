import RustyIce.AutoDj.Player
import RustyIce.AutoDj.Playlist
import RustyIce.Ingest.Transcoding
import RustyIce.Transcode.FrameConservation

/-
  The playback of a rotation: each file of a pass is decoded
  into the one pipeline of the pass, and what comes out is
  published.

  A file is what the decoding library reads off it, packet
  by packet. The cancellation token is what it answers each
  time it is looked at; waiting for the playback time is a
  look at it. Where the pipeline panics there is no result.

  Main declarations:
    * `PacketRead`, `FileDecoder.next`
    * `PlaySession`, `playTrack`, `playPlaylist`
    * `decodedChunks`, `audio_playPlaylist`
    * `TailWriter`, `FinishesLikeIngest`
    * `finishesLikeIngest_iff`
-/

------------------------------------------------------------
-- Files
------------------------------------------------------------

namespace RustyIce

namespace AutoDj

open Transcode

variable {Sample : Type}

/-
  What reading and decoding one packet gives. A failure ends
  the file, a packet that cannot be decoded does not.
-/
inductive PacketRead (Sample : Type) where
| otherTrack
| decoded (chunk : Pcm Sample)
| decodeError
| failed (message : String)

/- The packets of a file up to its end. -/
structure FileDecoder (Sample : Type) where
  packets : List (PacketRead Sample)

namespace FileDecoder

/- The next chunk with samples, and what is left. -/
def next (decoder : FileDecoder Sample) :
    Except String (Option (Pcm Sample)) ×
      FileDecoder Sample :=
  go decoder.packets
where
  go :
    List (PacketRead Sample) →
      Except String (Option (Pcm Sample)) ×
        FileDecoder Sample
  | [] => (.ok none, ⟨[]⟩)
  | .otherTrack :: rest => go rest
  | .decoded chunk :: rest =>
      if chunk.samples = [] then go rest
      else (.ok (some chunk), ⟨rest⟩)
  | .decodeError :: rest => go rest
  | .failed message :: rest => (.error message, ⟨rest⟩)

/- All the chunks a file gives before it ends or fails. -/
def chunks (decoder : FileDecoder Sample) :
    List (Pcm Sample) :=
  go decoder.packets
where
  go : List (PacketRead Sample) → List (Pcm Sample)
  | [] => []
  | .otherTrack :: rest => go rest
  | .decoded chunk :: rest =>
      if chunk.samples = [] then go rest
      else chunk :: go rest
  | .decodeError :: rest => go rest
  | .failed _ :: _ => []

/- The next chunk is the first, and costs a packet. -/
theorem next_some
    {decoder rest : FileDecoder Sample}
    {chunk : Pcm Sample}
    (hNext : decoder.next = (.ok (some chunk), rest)) :
    decoder.chunks = chunk :: rest.chunks ∧
      rest.packets.length < decoder.packets.length := by
  obtain ⟨packets⟩ := decoder
  simp only [next, chunks] at hNext ⊢
  induction packets with
  | nil => cases hNext
  | cons packet packets ih =>
      cases packet with
      | otherTrack =>
          obtain ⟨hChunks, hLess⟩ := ih hNext
          exact ⟨hChunks, Nat.lt_succ_of_lt hLess⟩
      | decoded pcm =>
          rw [next.go] at hNext
          rw [chunks.go]
          split at hNext
          · rename_i hEmpty
            rw [if_pos hEmpty]
            obtain ⟨hChunks, hLess⟩ := ih hNext
            exact ⟨hChunks, Nat.lt_succ_of_lt hLess⟩
          · rename_i hSome
            rw [if_neg hSome]
            cases hNext
            exact ⟨rfl, Nat.lt_succ_self _⟩
      | decodeError =>
          obtain ⟨hChunks, hLess⟩ := ih hNext
          exact ⟨hChunks, Nat.lt_succ_of_lt hLess⟩
      | failed message => cases hNext

/- Where there is no next chunk there are none. -/
theorem chunks_of_next
    {decoder rest : FileDecoder Sample}
    {result : Except String (Option (Pcm Sample))}
    (hNext : decoder.next = (result, rest))
    (hNone : ∀ chunk, result ≠ .ok (some chunk)) :
    decoder.chunks = [] := by
  obtain ⟨packets⟩ := decoder
  simp only [next, chunks] at hNext ⊢
  induction packets with
  | nil => rfl
  | cons packet packets ih =>
      cases packet with
      | otherTrack => exact ih hNext
      | decoded pcm =>
          rw [next.go] at hNext
          rw [chunks.go]
          split at hNext
          · rename_i hEmpty
            rw [if_pos hEmpty]
            exact ih hNext
          · cases hNext
            exact absurd rfl (hNone pcm)
      | decodeError => exact ih hNext
      | failed message => rfl

end FileDecoder

end AutoDj

end RustyIce

------------------------------------------------------------
-- A Pass
------------------------------------------------------------

namespace RustyIce

namespace AutoDj

open Transcode

variable {Sample : Type}
variable {lib : Symphonia Sample}
variable {E : Engines Sample}

inductive PlayError where
| cancelled
deriving DecidableEq, Repr

/-
  What the tracks of a pass share: the pipeline, what is
  published and counted, the title on display, and what the
  token will answer.
-/
structure PlaySession
    (lib : Symphonia Sample)
    (E : Engines Sample) where
  pipeline : TranscodePipeline lib E
  publisher : Publisher
  outputBytes : Nat
  currentTitle : Option String
  looks : List Bool

namespace PlaySession

def start
    (config : TranscodeConfig)
    (comments : List (String × String))
    (looks : List Bool) : PlaySession lib E where
  pipeline := .new config .MP3 comments
  publisher := .start (Ingest.outputCodecFor config.format)
  outputBytes := 0
  currentTitle := none
  looks := looks

/- The token is looked at. -/
def isCancelled
    (s : PlaySession lib E) : Bool × PlaySession lib E :=
  match s.looks with
  | [] => (false, s)
  | answer :: later => (answer, { s with looks := later })

def publishEncoded
    (codec : CodecId)
    (s : PlaySession lib E)
    (data : Bytes) : PlaySession lib E :=
  { s with
    outputBytes := s.outputBytes + data.length
    publisher := s.publisher.publishEncoded codec data }

/- The wait for the playback time, if there is a rate. -/
def pace
    (outputBps : Nat)
    (s : PlaySession lib E) :
    Except PlayError Unit × PlaySession lib E :=
  if outputBps = 0 then (.ok (), s)
  else
    match s.isCancelled with
    | (true, s) => (.error .cancelled, s)
    | (false, s) => (.ok (), s)

/-
  The loop over the chunks of a file. One unit of fuel is one
  chunk; there are no more of them than packets.
-/
def playChunks
    (codec : CodecId)
    (outputBps : Nat) :
    Nat → FileDecoder Sample → PlaySession lib E →
      Option (Except PlayError Unit) × PlaySession lib E
| 0, _, s => (some (.ok ()), s)
| fuel + 1, decoder, s =>
    match s.isCancelled with
    | (true, s) => (some (.error .cancelled), s)
    | (false, s) =>
        match decoder.next with
        | (.ok none, _) => (some (.ok ()), s)
        | (.error _, _) => (some (.ok ()), s)
        | (.ok (some chunk), decoder) =>
            match s.pipeline.pushPcm chunk with
            | (.error .panicked, pipeline) =>
                (none, { s with pipeline := pipeline })
            | (.error (.failed _), pipeline) =>
                playChunks codec outputBps fuel decoder
                  { s with pipeline := pipeline }
            | (.ok encoded, pipeline) =>
                let s := { s with pipeline := pipeline }
                if encoded = [] then
                  playChunks codec outputBps fuel decoder s
                else
                  match
                      (s.publishEncoded codec encoded).pace
                        outputBps with
                  | (.error e, s) => (some (.error e), s)
                  | (.ok _, s) =>
                      playChunks codec outputBps fuel
                        decoder s

end PlaySession

variable
  (opens : TrackPath → Except String (FileDecoder Sample))
variable (readTag : TrackPath → Option Tag)
variable (config : TranscodeConfig)

/- One file; one that cannot be opened is skipped. -/
def playTrack
    (s : PlaySession lib E)
    (track : TrackPath) :
    Option (Except PlayError Unit) × PlaySession lib E :=
  let s :=
    { s with
      currentTitle := some (displayTitle readTag track) }
  match opens track with
  | .error _ => (some (.ok ()), s)
  | .ok decoder =>
      s.playChunks (Ingest.outputCodecFor config.format)
        (config.bitrateKbps * 1000 / 8)
        (decoder.packets.length + 1) decoder

def playTracks
    (s : PlaySession lib E) :
    List TrackPath → Option PassOutcome × PlaySession lib E
| [] => (some .completed, s)
| track :: tracks =>
    match s.isCancelled with
    | (true, s) => (some .cancelled, s)
    | (false, s) =>
        match playTrack opens readTag config s track with
        | (none, s) => (none, s)
        | (some (.error _), s) => (some .cancelled, s)
        | (some (.ok _), s) => playTracks s tracks

/- A pass over the tracks, under the mount's token if any. -/
def playPlaylist
    (comments : List (String × String))
    (sourceCancel : Option (List Bool))
    (tracks : List TrackPath) :
    Option PassOutcome × PlaySession lib E :=
  match sourceCancel with
  | none => (some .cancelled, .start config comments [])
  | some looks =>
      playTracks opens readTag config
        (.start config comments looks) tracks

end AutoDj

end RustyIce

------------------------------------------------------------
-- What A Pass Publishes
------------------------------------------------------------

namespace RustyIce

namespace AutoDj

open Transcode

variable {Sample : Type}
variable {lib : Symphonia Sample}
variable {E : Engines Sample}

/- The chunks of all tracks that can be opened, in order. -/
def decodedChunks
    (opens : TrackPath → Except String (FileDecoder Sample))
    (tracks : List TrackPath) : List (Pcm Sample) :=
  tracks.flatMap fun track =>
    match opens track with
    | .error _ => []
    | .ok decoder => decoder.chunks

/-
  A stretch of a pass that handles some chunks: it publishes
  what the pipeline puts out for them, and nothing else.
-/
def Publishes
    (s t : PlaySession lib E)
    (chunks : List (Pcm Sample)) : Prop :=
  ∀ out last,
    s.pipeline.outputs TranscodePipeline.pushPcm chunks =
        some (out, last) →
      t.publisher.audio = s.publisher.audio ++ out ∧
        t.pipeline = last

variable {s t u : PlaySession lib E}
variable {before after : List (Pcm Sample)}

theorem publishes_nil
    (hPipeline : t.pipeline = s.pipeline)
    (hPublisher : t.publisher = s.publisher) :
    Publishes s t [] := by
  intro out last hOutputs
  cases hOutputs
  rw [hPublisher, List.append_nil]
  exact ⟨rfl, hPipeline⟩

theorem Publishes.trans
    (hFirst : Publishes s t before)
    (hSecond : Publishes t u after) :
    Publishes s u (before ++ after) := by
  intro out last hOutputs
  obtain ⟨first, mid, later, hBefore, hAfter, rfl⟩ :=
    TranscodePipeline.outputs_append hOutputs
  obtain ⟨hAudio, hMid⟩ := hFirst first mid hBefore
  rw [← hMid] at hAfter
  obtain ⟨hLater, hLast⟩ := hSecond later last hAfter
  rw [hLater, hAudio, List.append_assoc]
  exact ⟨rfl, hLast⟩

namespace PlaySession

/- A look at the token changes only what it answers next. -/
theorem isCancelled_eq
    {answer : Bool}
    (hLook : s.isCancelled = (answer, t)) :
    t = { s with looks := t.looks } := by
  unfold isCancelled at hLook
  split at hLook <;> cases hLook <;> rfl

theorem pace_eq
    {outputBps : Nat}
    {result : Except PlayError Unit}
    (hPace : s.pace outputBps = (result, t)) :
    t = { s with looks := t.looks } := by
  unfold pace at hPace
  split at hPace
  · cases hPace
    rfl
  · split at hPace
    · rename_i answer hLook
      cases hPace
      exact isCancelled_eq hLook
    · rename_i answer hLook
      cases hPace
      exact isCancelled_eq hLook

/- Nothing is published by looking at the token. -/
theorem publishes_after_look
    {answer : Bool}
    (hLook : s.isCancelled = (answer, t))
    {chunks : List (Pcm Sample)}
    (hLater : Publishes t u chunks) :
    Publishes s u chunks := by
  rw [isCancelled_eq hLook] at hLater
  exact (publishes_nil rfl rfl).trans hLater

variable {codec : CodecId}
variable {outputBps : Nat}

/- One chunk that the pipeline takes without an error. -/
theorem publishes_chunk
    {chunk : Pcm Sample}
    {encoded : Bytes}
    {pipeline : TranscodePipeline lib E}
    (hPush : s.pipeline.pushPcm chunk = (.ok encoded, pipeline))
    (hPipeline : t.pipeline = pipeline)
    (hAudio :
      t.publisher.audio = s.publisher.audio ++ encoded) :
    Publishes s t [chunk] := by
  intro out last hOutputs
  obtain ⟨first, next, later, hCall, hLater, rfl⟩ :=
    TranscodePipeline.outputs_cons hOutputs
  cases hLater
  rw [hPush] at hCall
  cases hCall
  rw [List.append_nil]
  exact ⟨hAudio, hPipeline⟩

/-
  A file that is played to its end. The fuel is enough for
  the packets that are left.
-/
theorem publishes_playChunks
    {fuel : Nat}
    {decoder : FileDecoder Sample}
    (hFuel : decoder.packets.length < fuel)
    (hPlay :
      s.playChunks codec outputBps fuel decoder =
        (some (.ok ()), t)) :
    Publishes s t decoder.chunks := by
  induction fuel generalizing s decoder with
  | zero => exact absurd hFuel (Nat.not_lt_zero _)
  | succ fuel ih =>
      rw [playChunks] at hPlay
      split at hPlay
      · cases hPlay
      · rename_i looked hLook
        apply publishes_after_look hLook
        split at hPlay
        · rename_i rest hNext
          cases hPlay
          rw [decoder.chunks_of_next hNext
            fun chunk hSome => by cases hSome]
          exact publishes_nil rfl rfl
        · rename_i message rest hNext
          cases hPlay
          rw [decoder.chunks_of_next hNext
            fun chunk hSome => by cases hSome]
          exact publishes_nil rfl rfl
        · rename_i chunk rest hNext
          obtain ⟨hChunks, hLess⟩ :=
            FileDecoder.next_some hNext
          have hRest : rest.packets.length < fuel := by omega
          rw [hChunks]
          split at hPlay
          · cases hPlay
          · rename_i e pipeline hPush
            intro out last hOutputs
            obtain ⟨first, next, later, hCall, _⟩ :=
              TranscodePipeline.outputs_cons hOutputs
            rw [hPush] at hCall
            cases hCall
          · rename_i encoded pipeline hPush
            split at hPlay
            · rename_i hEmpty
              exact
                (publishes_chunk hPush rfl (by simp [hEmpty])
                  ).trans (ih hRest hPlay)
            · simp only at hPlay
              split at hPlay
              · cases hPlay
              · rename_i paced hPace
                have hPaced := pace_eq hPace
                refine
                  (publishes_chunk hPush ?_ ?_).trans
                    (ih hRest hPlay)
                · rw [hPaced]
                  rfl
                · rw [hPaced]
                  exact
                    Publisher.audio_publishEncoded _ _ _

end PlaySession

/- A track that is played to its end. -/
theorem publishes_playTrack
    {opens : TrackPath → Except String (FileDecoder Sample)}
    {readTag : TrackPath → Option Tag}
    {config : TranscodeConfig}
    {track : TrackPath}
    (hPlay :
      playTrack opens readTag config s track =
        (some (.ok ()), t)) :
    Publishes s t (decodedChunks opens [track]) := by
  unfold playTrack at hPlay
  simp only [decodedChunks, List.flatMap_cons,
    List.flatMap_nil, List.append_nil]
  split at hPlay
  · cases hPlay
    exact publishes_nil rfl rfl
  · simp only at hPlay
    have hTitled :=
      PlaySession.publishes_playChunks (Nat.lt_succ_self _)
        hPlay
    exact (publishes_nil rfl rfl).trans hTitled

/- A pass that completes. -/
theorem publishes_playTracks
    {opens : TrackPath → Except String (FileDecoder Sample)}
    {readTag : TrackPath → Option Tag}
    {config : TranscodeConfig}
    {tracks : List TrackPath}
    (hPlay :
      playTracks opens readTag config s tracks =
        (some .completed, t)) :
    Publishes s t (decodedChunks opens tracks) := by
  induction tracks generalizing s with
  | nil =>
      cases hPlay
      exact publishes_nil rfl rfl
  | cons track tracks ih =>
      rw [playTracks] at hPlay
      split at hPlay
      · cases hPlay
      · rename_i looked hLook
        split at hPlay
        · cases hPlay
        · cases hPlay
        · rename_i played hTrack
          have hChunks :
              decodedChunks opens (track :: tracks) =
                decodedChunks opens [track] ++
                  decodedChunks opens tracks := by
            simp [decodedChunks]
          rw [hChunks]
          exact
            PlaySession.publishes_after_look hLook
              ((publishes_playTrack hTrack).trans (ih hPlay))

/-
  A pass that completes publishes what its pipeline puts out
  for the chunks, and ends there.
-/
theorem audio_playPlaylist
    {opens : TrackPath → Except String (FileDecoder Sample)}
    {readTag : TrackPath → Option Tag}
    {config : TranscodeConfig}
    {comments : List (String × String)}
    {sourceCancel : Option (List Bool)}
    {tracks : List TrackPath}
    (hPass :
      playPlaylist opens readTag config comments sourceCancel
          tracks =
        (some .completed, s))
    {out : Bytes}
    {last : TranscodePipeline lib E}
    (hOutputs :
      (TranscodePipeline.new config .MP3 comments).outputs
          TranscodePipeline.pushPcm
          (decodedChunks opens tracks) =
        some (out, last)) :
    s.publisher.audio = out ∧ s.pipeline = last := by
  unfold playPlaylist at hPass
  split at hPass
  · cases hPass
  · exact publishes_playTracks hPass out last hOutputs

end AutoDj

end RustyIce

------------------------------------------------------------
-- What Is Missing At The End
------------------------------------------------------------

namespace RustyIce

namespace AutoDj

open Transcode

variable {Sample : Type}
variable {lib : Symphonia Sample}
variable {E : Engines Sample}

/-
  Encoders that have something to write until they are
  finalised: the frames they still hold, or the last page.
-/
structure TailWriter (E : Engines Sample) where
  isOpen : E.Encoder → Prop
  build :
    ∀ {config channels comments encoder},
      E.build config channels comments = .ok encoder →
        isOpen encoder
  encode :
    ∀ {encoder pcm out next},
      isOpen encoder →
        E.encode encoder pcm = (.ok out, next) →
          isOpen next
  flush :
    ∀ {encoder out next},
      isOpen encoder →
        E.flush encoder = (.ok out, next) → out ≠ []

/- What a pipeline passes over. -/
def Skipped (chunk : Pcm Sample) : Prop :=
  chunk.samples = [] ∨ chunk.sampleRate = 0 ∨
    chunk.channels = 0

instance [DecidableEq Sample] (chunk : Pcm Sample) :
    Decidable (Skipped chunk) := by
  unfold Skipped
  infer_instance

/-
  A pass publishes all that its pipeline puts out and then
  the pipeline's tail, as an ingest does that ends with the
  same pipeline.
-/
structure FinishesLikeIngest
    (codec : CodecId)
    (s : PlaySession lib E)
    (outputs tail : Bytes) : Prop where
  whole : s.publisher.audio = outputs ++ tail
  alike :
    s.publisher.audio =
      (Ingest.finishPipeline codec s.pipeline
        s.publisher).audio

/- A pipeline whose encoder is built and not finalised. -/
structure Encoding
    (W : TailWriter E)
    (codec : CodecId)
    (p : TranscodePipeline lib E) : Prop where
  decoder_new : p.decoder = .new codec
  built :
    ∃ encoder, p.encoder = some encoder ∧ W.isOpen encoder

variable {W : TailWriter E}
variable {codec : CodecId}
variable {p next : TranscodePipeline lib E}

theorem encoding_of_encode
    (hEncoding : Encoding W codec p)
    {pcm : List Sample}
    {out : Bytes}
    (hEncode : p.encode pcm = (.ok out, next)) :
    Encoding W codec next := by
  obtain ⟨encoder, after, hEncoder, hStep, rfl⟩ :=
    TranscodePipeline.encode_ok hEncode
  obtain ⟨built, hBuilt, hOpen⟩ := hEncoding.built
  rw [hEncoder] at hBuilt
  cases hBuilt
  exact
    { decoder_new := hEncoding.decoder_new
      built := ⟨after, rfl, W.encode hOpen hStep⟩ }

theorem encoding_of_feed
    (hEncoding : Encoding W codec p)
    {pcm : List Sample}
    {out : Bytes}
    (hFeed : p.feed pcm = (.ok out, next)) :
    Encoding W codec next := by
  obtain ⟨given, q, hResample, hGiven⟩ :=
    TranscodePipeline.feed_ok hFeed
  have hSame : Encoding W codec q := by
    rw [TranscodePipeline.resample_eq hResample]
    exact
      { decoder_new := hEncoding.decoder_new
        built := hEncoding.built }
  rcases hGiven with ⟨_, _, rfl⟩ | ⟨_, hEncode⟩
  · exact hSame
  · exact encoding_of_encode hSame hEncode

/- A chunk that is skipped leaves the pipeline alone. -/
theorem pushPcm_of_skipped
    {chunk : Pcm Sample}
    (hSkipped : Skipped chunk) :
    p.pushPcm chunk = (.ok [], p) := by
  unfold TranscodePipeline.pushPcm
  exact if_pos hSkipped

/- One that is not goes through an encoder. -/
theorem encoding_of_pushPcm
    (hNew : p.decoder = .new codec)
    (hStart :
      p.sourceSampleRate = none ∨ Encoding W codec p)
    {chunk : Pcm Sample}
    (hChunk : ¬ Skipped chunk)
    {out : Bytes}
    (hPush : p.pushPcm chunk = (.ok out, next)) :
    Encoding W codec next := by
  unfold Skipped at hChunk
  unfold TranscodePipeline.pushPcm at hPush
  rw [if_neg hChunk] at hPush
  obtain ⟨before, q, encoded, hFirst, hFeed, _⟩ :=
    TranscodePipeline.processPcm_ok hPush
  apply encoding_of_feed ?_ hFeed
  rcases hFirst with ⟨hFormat, _, rfl⟩ | ⟨_, hRebuild⟩
  · rcases hStart with hNone | hEncoding
    · rw [hFormat.1] at hNone
      cases hNone
    · exact hEncoding
  · obtain ⟨encoder, resampler, hBuild, _, rfl⟩ :=
      TranscodePipeline.rebuild_ok hRebuild
    exact
      { decoder_new := hNew
        built := ⟨encoder, rfl, W.build hBuild⟩ }

/- Chunks that are all skipped put nothing out. -/
theorem outputs_of_skipped
    {chunks : List (Pcm Sample)}
    (hSkipped : ∀ chunk ∈ chunks, Skipped chunk) :
    p.outputs TranscodePipeline.pushPcm chunks =
      some ([], p) := by
  induction chunks with
  | nil => rfl
  | cons chunk chunks ih =>
      obtain ⟨hFirst, hRest⟩ :=
        List.forall_mem_cons.mp hSkipped
      simp only [TranscodePipeline.outputs,
        pushPcm_of_skipped hFirst, ih hRest, List.append_nil]

/- From the first chunk on that is not skipped. -/
theorem encoding_of_outputs
    {chunks : List (Pcm Sample)}
    (hNew : p.decoder = .new codec)
    (hStart :
      (p.sourceSampleRate = none ∧
          ∃ chunk ∈ chunks, ¬ Skipped chunk) ∨
        Encoding W codec p)
    {out : Bytes}
    {last : TranscodePipeline lib E}
    (hOutputs :
      p.outputs TranscodePipeline.pushPcm chunks =
        some (out, last)) :
    Encoding W codec last := by
  induction chunks generalizing p out with
  | nil =>
      cases hOutputs
      rcases hStart with ⟨_, chunk, hMem, _⟩ | hEncoding
      · cases hMem
      · exact hEncoding
  | cons chunk chunks ih =>
      obtain ⟨first, next, later, hPush, hLater, _⟩ :=
        TranscodePipeline.outputs_cons hOutputs
      by_cases hSkipped : Skipped chunk
      · rw [pushPcm_of_skipped hSkipped] at hPush
        cases hPush
        refine ih hNew ?_ hLater
        refine hStart.imp_left ?_
        rintro ⟨hNone, other, hMem, hOther⟩
        refine ⟨hNone, other, ?_, hOther⟩
        rcases List.mem_cons.mp hMem with rfl | hMem
        · exact absurd hSkipped hOther
        · exact hMem
      · have hNext : Encoding W codec next :=
          encoding_of_pushPcm hNew
            (hStart.imp_left And.left) hSkipped hPush
        exact ih hNext.decoder_new (.inr hNext) hLater

/- An encoder that is open has a tail. -/
theorem tail_of_encoding
    (hEncoding : Encoding W codec p)
    {tail : Bytes}
    (hFlush : p.flush = (.ok tail, next)) :
    tail ≠ [] := by
  obtain ⟨combined, q, flushed, hDecoder, hEnd, rfl⟩ :=
    TranscodePipeline.flush_ok hFlush
  rw [TranscodePipeline.flushDecoder_of_new
    hEncoding.decoder_new] at hDecoder
  cases hDecoder
  obtain ⟨encoder, hEncoder, hOpen⟩ := hEncoding.built
  rcases TranscodePipeline.flushEncoder_ok hEnd with
    ⟨hNone, _⟩ | ⟨_, combined, q, hResampler, hLast⟩
  · rw [hEncoder] at hNone
    cases hNone
  · have hOpenLast :
        ∃ after, q.encoder = some after ∧ W.isOpen after := by
      rcases TranscodePipeline.flushResampler_ok hResampler
        with ⟨_, _, rfl⟩ | ⟨r, r', rest, _, _, hGiven⟩
      · exact ⟨encoder, hEncoder, hOpen⟩
      · rcases hGiven with ⟨_, _, rfl⟩ | hEncode
        · exact ⟨encoder, hEncoder, hOpen⟩
        · obtain ⟨built, after, hBuilt, hStep, rfl⟩ :=
            TranscodePipeline.encode_ok hEncode
          rw [hEncoder] at hBuilt
          cases hBuilt
          exact ⟨after, rfl, W.encode hOpen hStep⟩
    obtain ⟨after, hAfter, hOpen⟩ := hOpenLast
    rcases hLast with
      ⟨hNone, _⟩ | ⟨built, last, final, hBuilt, hStep, rfl, _⟩
    · rw [hAfter] at hNone
      cases hNone
    · rw [hAfter] at hBuilt
      cases hBuilt
      intro hNone
      exact
        W.flush hOpen hStep
          (List.append_eq_nil_iff.mp
            (List.append_eq_nil_iff.mp hNone).2).2

/- A pipeline that never built an encoder has none. -/
theorem tail_of_new
    {config : TranscodeConfig}
    {comments : List (String × String)}
    {tail : Bytes}
    (hFlush :
      (TranscodePipeline.new config codec comments).flush =
        (.ok tail, next)) :
    tail = [] := by
  obtain ⟨combined, q, flushed, hDecoder, hEnd, rfl⟩ :=
    TranscodePipeline.flush_ok hFlush
  rw [TranscodePipeline.flushDecoder_of_new rfl] at hDecoder
  cases hDecoder
  cases hEnd
  rfl

/-
  A pass that completes without encode errors finishes like
  an ingest exactly if none of its tracks gives a chunk with
  samples, a rate and channels.
-/
theorem finishesLikeIngest_iff
    (W : TailWriter E)
    (opens : TrackPath → Except String (FileDecoder Sample))
    (readTag : TrackPath → Option Tag)
    (config : TranscodeConfig)
    (comments : List (String × String))
    (sourceCancel : Option (List Bool))
    (tracks : List TrackPath)
    (s : PlaySession lib E)
    (outputs tail : Bytes)
    (last final : TranscodePipeline lib E)
    (hPass :
      playPlaylist opens readTag config comments sourceCancel
          tracks =
        (some .completed, s))
    (hOutputs :
      (TranscodePipeline.new config .MP3 comments).outputs
          TranscodePipeline.pushPcm
          (decodedChunks opens tracks) =
        some (outputs, last))
    (hFlush : last.flush = (.ok tail, final)) :
    FinishesLikeIngest
        (Ingest.outputCodecFor config.format) s outputs tail ↔
      ∀ chunk ∈ decodedChunks opens tracks, Skipped chunk := by
  obtain ⟨hAudio, rfl⟩ := audio_playPlaylist hPass hOutputs
  constructor
  · intro hFinishes
    have hWhole := hFinishes.whole
    rw [hAudio, List.self_eq_append_right] at hWhole
    by_contra hNot
    push Not at hNot
    have hEncoding : Encoding W .MP3 s.pipeline :=
      encoding_of_outputs rfl (.inl ⟨rfl, hNot⟩) hOutputs
    exact tail_of_encoding hEncoding hFlush hWhole
  · intro hSkipped
    have hNone : tail = [] := by
      rw [outputs_of_skipped hSkipped] at hOutputs
      have hLast :
          TranscodePipeline.new config .MP3 comments =
            s.pipeline :=
        congrArg Prod.snd (Option.some.inj hOutputs)
      rw [← hLast] at hFlush
      exact tail_of_new hFlush
    exact
      { whole := by rw [hAudio, hNone, List.append_nil]
        alike := by
          rw [Ingest.audio_finishPipeline _ hFlush, hNone,
            List.append_nil] }

/- A recorder's tail is the byte it ends with. -/
def recorderTail : TailWriter recorder where
  isOpen := fun _ => True
  build := fun _ => trivial
  encode := fun _ _ => trivial
  flush := by
    intro encoder out next _ hFlush
    cases hFlush
    exact List.cons_ne_nil _ _

def song : TrackPath := [utf8Bytes "song.mp3"]

/- One file that can be opened, with one chunk. -/
def oneSong (track : TrackPath) :
    Except String (FileDecoder Nat) :=
  if track = song then
    .ok ⟨[.decoded (oneFrame 48000 (by decide)).pcm]⟩
  else
    .error "no such file"

/- The pass of one song lacks the encoder's tail. -/
theorem oneSong_truncated :
    ∃ (s : PlaySession idle recorder) (outputs tail : Bytes)
      (last final : TranscodePipeline idle recorder),
      playPlaylist oneSong (fun _ => none) at48000 []
            (some []) [song] =
          (some .completed, s) ∧
        (TranscodePipeline.new at48000 .MP3 []).outputs
            TranscodePipeline.pushPcm
            (decodedChunks oneSong [song]) =
          some (outputs, last) ∧
        last.flush = (.ok tail, final) ∧
        ¬ FinishesLikeIngest
          (Ingest.outputCodecFor at48000.format) s outputs
          tail := by
  refine ⟨_, [7], [0], _, _, rfl, rfl, rfl, ?_⟩
  intro hFinishes
  exact absurd hFinishes.whole (by decide)

/- One file, whose only chunk with samples has no rate. -/
def unratedSong (track : TrackPath) :
    Except String (FileDecoder Nat) :=
  if track = song then
    .ok
      ⟨[.otherTrack, .decodeError,
        .decoded
          { samples := [7]
            sampleRate := 0
            channels := 1 }]⟩
  else
    .error "no such file"

/- A pass that plays it through lacks nothing. -/
theorem unratedSong_finishes :
    ∃ s : PlaySession idle recorder,
      playPlaylist unratedSong (fun _ => none) at48000 []
            (some [false, false])
            [song, [utf8Bytes "gone.mp3"]] =
          (some .completed, s) ∧
        FinishesLikeIngest
          (Ingest.outputCodecFor at48000.format) s [] [] := by
  refine ⟨_, rfl, ?_⟩
  apply
    (finishesLikeIngest_iff recorderTail unratedSong
      (fun _ => none) at48000 [] (some [false, false])
      [song, [utf8Bytes "gone.mp3"]] _ [] [] _ _ rfl rfl
      rfl).mpr
  intro chunk hMem
  rcases List.mem_singleton.mp hMem with rfl
  exact .inr (.inl rfl)

end AutoDj

end RustyIce
