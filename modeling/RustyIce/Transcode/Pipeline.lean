import RustyIce.Core.Config
import RustyIce.Library.Columns
import RustyIce.Transcode.StreamDecoder

/-
  The transcode pipeline: decoded samples through a
  resampler, if the rates differ, into an encoder that is
  built anew for each format.

  The encoders and the resampler core are parameters, and do
  not panic. An operation that fails says so beside the state
  it leaves; a call of the pipeline may panic as well, where
  it expects an encoder that could not be built.

  Main declarations:
    * `Engines`, `Fault`
    * `PcmResampler`
    * `TranscodePipeline.processPcm`, `push`, `pushPcm` and
      `flush`
    * `TranscodePipeline.processPcm_panics_iff`
-/

------------------------------------------------------------
-- Encoders And Resampler Cores
------------------------------------------------------------

namespace RustyIce

namespace Transcode

/- What an operation returns, and the state it leaves. -/
abbrev Step (State α : Type) := Except String α × State

/- What goes wrong in a call of the pipeline. -/
inductive Fault where
| failed (message : String)
| panicked
deriving DecidableEq, Repr

/- What a call returns, and the state it leaves. -/
abbrev Call (State α : Type) := Except Fault α × State

/- The call did not return. -/
def panics {α : Type} : Except Fault α → Bool
| .error .panicked => true
| .error (.failed _) => false
| .ok _ => false

/-
  The encoder for a number of channels, and the resampler
  core between two rates, which takes one column of samples
  for each channel.
-/
structure Engines (Sample : Type) where
  Encoder : Type
  build :
    TranscodeConfig → Nat → List (String × String) →
      Except String Encoder
  encode : Encoder → List Sample → Step Encoder Bytes
  flush : Encoder → Step Encoder Bytes
  Core : Type
  newCore : Nat → Nat → Nat → Except String Core
  inputFramesNext : Core → Nat
  process :
    Core → List (List Sample) →
      Step Core (List (List Sample))
  processPartial :
    Core → Option (List (List Sample)) →
      Step Core (List (List Sample))

variable {Sample : Type}

/- The samples of all columns, frame by frame. -/
def interleave (cols : List (List Sample)) : List Sample :=
  (List.range (cols.headD []).length).flatMap fun i =>
    cols.filterMap fun col => col[i]?

end Transcode

end RustyIce

------------------------------------------------------------
-- The Resampler
------------------------------------------------------------

namespace RustyIce

namespace Transcode

variable {Sample : Type}

structure PcmResampler (E : Engines Sample) where
  inner : E.Core
  channels : Nat
  leftover : List (List Sample)

namespace PcmResampler

variable {E : Engines Sample}

def new
    (fromRate toRate channels : Nat) :
    Except String (PcmResampler E) :=
  match E.newCore fromRate toRate channels with
  | .error e => .error e
  | .ok inner =>
      .ok
        { inner := inner
          channels := channels
          leftover := List.replicate channels [] }

/- The frames held back. -/
def held (r : PcmResampler E) : Nat :=
  (r.leftover.headD []).length

/-
  Feed the core whole chunks. One unit of fuel is one chunk;
  there are no more of them than frames.
-/
def drainChunks
    (chunkSize : Nat) :
    Nat → PcmResampler E → List Sample →
      Step (PcmResampler E) (List Sample)
| 0, r, output => (.ok output, r)
| fuel + 1, r, output =>
    if chunkSize ≤ r.held then
      match
          E.process r.inner
            (r.leftover.map (·.take chunkSize)) with
      | (.error e, inner) =>
          (.error e, { r with inner := inner })
      | (.ok chunkOut, inner) =>
          drainChunks chunkSize fuel
            { r with
              inner := inner
              leftover :=
                r.leftover.map (·.drop chunkSize) }
            (output ++ interleave chunkOut)
    else
      (.ok output, r)

def process
    (r : PcmResampler E)
    (samples : List Sample) :
    Step (PcmResampler E) (List Sample) :=
  if samples = [] then
    (.ok [], r)
  else
    let r :=
      { r with
        leftover :=
          r.leftover.mapIdx fun ch buf =>
            buf ++ Library.everyNth r.channels ch samples }
    drainChunks (E.inputFramesNext r.inner) r.held r []

/- What is held back goes in as a last, short chunk. -/
def flushLeftover
    (r : PcmResampler E) :
    Step (PcmResampler E) (List Sample) :=
  if r.held = 0 then
    (.ok [], r)
  else
    match E.processPartial r.inner (some r.leftover) with
    | (.error e, inner) =>
        (.error e, { r with inner := inner })
    | (.ok chunkOut, inner) =>
        (.ok (interleave chunkOut),
          { r with
            inner := inner
            leftover := r.leftover.map fun _ => [] })

def flush
    (r : PcmResampler E) :
    Step (PcmResampler E) (List Sample) :=
  match r.flushLeftover with
  | (.error e, r) => (.error e, r)
  | (.ok output, r) =>
      match E.processPartial r.inner none with
      | (.error e, inner) =>
          (.error e, { r with inner := inner })
      | (.ok chunkOut, inner) =>
          (.ok (output ++ interleave chunkOut),
            { r with inner := inner })

end PcmResampler

end Transcode

end RustyIce

------------------------------------------------------------
-- The Pipeline
------------------------------------------------------------

namespace RustyIce

namespace Transcode

variable {Sample : Type}

/-
  An encoder and the resampler in front of it, with the
  format they take.
-/
structure Stage (E : Engines Sample) where
  sampleRate : Option Nat
  channels : Option Nat
  encoder : E.Encoder
  resampler : Option (PcmResampler E)

/- What it has replaced is kept to speak of. -/
structure TranscodePipeline
    (lib : Symphonia Sample)
    (E : Engines Sample) where
  config : TranscodeConfig
  decoder : StreamDecoder lib
  encoder : Option E.Encoder
  comments : List (String × String)
  sourceSampleRate : Option Nat
  sourceChannels : Option Nat
  resampler : Option (PcmResampler E)
  replaced : List (Stage E)

namespace TranscodePipeline

variable {lib : Symphonia Sample}
variable {E : Engines Sample}

def new
    (config : TranscodeConfig)
    (sourceCodec : CodecId)
    (comments : List (String × String)) :
    TranscodePipeline lib E where
  config := config
  decoder := .new sourceCodec
  encoder := none
  comments := comments
  sourceSampleRate := none
  sourceChannels := none
  resampler := none
  replaced := []

/- The encoder as it is, if it is built. -/
def stage
    (p : TranscodePipeline lib E) : List (Stage E) :=
  match p.encoder with
  | none => []
  | some encoder =>
      [{ sampleRate := p.sourceSampleRate
         channels := p.sourceChannels
         encoder := encoder
         resampler := p.resampler }]

/- The tail of the encoder that is about to be replaced. -/
def drainOld
    (p : TranscodePipeline lib E) :
    Bytes × TranscodePipeline lib E :=
  match p.encoder with
  | none => ([], p)
  | some old =>
      match E.flush old with
      | (.ok tail, old) =>
          (tail, { p with encoder := some old })
      | (.error _, old) =>
          ([], { p with encoder := some old })

/- The resampler of a source rate, if it takes one. -/
def newResampler
    (config : TranscodeConfig)
    (sampleRate channels : Nat) :
    Except String (Option (PcmResampler E)) :=
  if sampleRate ≠ config.sampleRate then
    match
        PcmResampler.new sampleRate config.sampleRate
          channels with
    | .error e => .error e
    | .ok r => .ok (some r)
  else
    .ok none

/- A new encoder and resampler for a new format. -/
def rebuild
    (p : TranscodePipeline lib E)
    (sampleRate channels : Nat) :
    Call (TranscodePipeline lib E) Bytes :=
  let (output, p) := p.drainOld
  let old := p.stage
  let p :=
    { p with
      sourceSampleRate := some sampleRate
      sourceChannels := some channels }
  match E.build p.config channels p.comments with
  | .error e => (.error (.failed e), p)
  | .ok encoder =>
      let p :=
        { p with
          encoder := some encoder
          replaced := p.replaced ++ old }
      match newResampler p.config sampleRate channels with
      | .error e => (.error (.failed e), p)
      | .ok resampler =>
          (.ok output, { p with resampler := resampler })

/- The samples as they go to the encoder. -/
def resample
    (p : TranscodePipeline lib E)
    (pcm : List Sample) :
    Call (TranscodePipeline lib E) (List Sample) :=
  match p.resampler with
  | none => (.ok pcm, p)
  | some r =>
      match r.process pcm with
      | (.error e, r) =>
          (.error (.failed e), { p with resampler := some r })
      | (.ok pcm, r) => (.ok pcm, { p with resampler := some r })

/-
  The encoder is expected here, "built above when source
  format changed".
-/
def encode
    (p : TranscodePipeline lib E)
    (pcm : List Sample) :
    Call (TranscodePipeline lib E) Bytes :=
  match p.encoder with
  | none => (.error .panicked, p)
  | some encoder =>
      match E.encode encoder pcm with
      | (.error e, encoder) =>
          (.error (.failed e),
            { p with encoder := some encoder })
      | (.ok encoded, encoder) =>
          (.ok encoded, { p with encoder := some encoder })

/- The format the encoder was built for. -/
def HasFormat
    (p : TranscodePipeline lib E)
    (sampleRate channels : Nat) : Prop :=
  p.sourceSampleRate = some sampleRate ∧
    p.sourceChannels = some channels

instance
    (p : TranscodePipeline lib E)
    (sampleRate channels : Nat) :
    Decidable (p.HasFormat sampleRate channels) := by
  unfold HasFormat
  infer_instance

/- Samples in the format the encoder is built for. -/
def feed
    (p : TranscodePipeline lib E)
    (pcm : List Sample) :
    Call (TranscodePipeline lib E) Bytes :=
  match p.resample pcm with
  | (.error e, p) => (.error e, p)
  | (.ok pcm, p) =>
      if pcm = [] then (.ok [], p) else p.encode pcm

def processPcm
    (p : TranscodePipeline lib E)
    (pcm : List Sample)
    (sampleRate channels : Nat) :
    Call (TranscodePipeline lib E) Bytes :=
  let (rebuilt, p) :=
    if p.HasFormat sampleRate channels then (.ok [], p)
    else p.rebuild sampleRate channels
  match rebuilt with
  | .error e => (.error e, p)
  | .ok output =>
      match p.feed pcm with
      | (.error e, p) => (.error e, p)
      | (.ok encoded, p) => (.ok (output ++ encoded), p)

/- Bytes from the source. -/
def push
    (p : TranscodePipeline lib E)
    (data : Bytes) :
    Call (TranscodePipeline lib E) Bytes :=
  if data = [] then
    (.ok [], p)
  else
    let (pcm, decoder) := p.decoder.push data
    let p := { p with decoder := decoder }
    if pcm.samples = [] ∨ pcm.sampleRate = 0 then
      (.ok [], p)
    else
      p.processPcm pcm.samples pcm.sampleRate pcm.channels

/- Samples that are decoded already. -/
def pushPcm
    (p : TranscodePipeline lib E)
    (pcm : Pcm Sample) :
    Call (TranscodePipeline lib E) Bytes :=
  if pcm.samples = [] ∨ pcm.sampleRate = 0 ∨
      pcm.channels = 0 then
    (.ok [], p)
  else
    p.processPcm pcm.samples pcm.sampleRate pcm.channels

/- What the decoder still holds. -/
def flushDecoder
    (p : TranscodePipeline lib E) :
    Call (TranscodePipeline lib E) Bytes :=
  let (pcm, decoder) := p.decoder.flushEof
  let p := { p with decoder := decoder }
  if pcm.sampleRate ≠ 0 ∧ pcm.channels ≠ 0 then
    p.processPcm pcm.samples pcm.sampleRate pcm.channels
  else
    (.ok [], p)

/- What the resampler still holds, encoded. -/
def flushResampler
    (p : TranscodePipeline lib E) :
    Call (TranscodePipeline lib E) Bytes :=
  match p.resampler with
  | none => (.ok [], p)
  | some r =>
      match r.flush with
      | (.error e, r) =>
          (.error (.failed e), { p with resampler := some r })
      | (.ok tail, r) =>
          let p := { p with resampler := some r }
          if tail = [] then (.ok [], p) else p.encode tail

/- What the encoder still holds, once it is built. -/
def flushEncoder
    (p : TranscodePipeline lib E) :
    Call (TranscodePipeline lib E) Bytes :=
  match p.encoder with
  | none => (.ok [], p)
  | some _ =>
      match p.flushResampler with
      | (.error e, p) => (.error e, p)
      | (.ok combined, p) =>
          match p.encoder with
          | none => (.ok combined, p)
          | some encoder =>
              match E.flush encoder with
              | (.error e, encoder) =>
                  (.error (.failed e),
                    { p with encoder := some encoder })
              | (.ok flushed, encoder) =>
                  (.ok (combined ++ flushed),
                    { p with encoder := some encoder })

/- The end of the stream. -/
def flush
    (p : TranscodePipeline lib E) :
    Call (TranscodePipeline lib E) Bytes :=
  match p.flushDecoder with
  | (.error e, p) => (.error e, p)
  | (.ok combined, p) =>
      match p.flushEncoder with
      | (.error e, p) => (.error e, p)
      | (.ok flushed, p) => (.ok (combined ++ flushed), p)

end TranscodePipeline

end Transcode

end RustyIce

------------------------------------------------------------
-- Steps Without An Error
------------------------------------------------------------

namespace RustyIce

namespace Transcode

namespace TranscodePipeline

variable {Sample : Type}
variable {lib : Symphonia Sample}
variable {E : Engines Sample}
variable {p next : TranscodePipeline lib E}

/- Draining an encoder changes that encoder only. -/
theorem drainOld_frame (p : TranscodePipeline lib E) :
    p.drainOld.2 =
      { p with encoder := p.drainOld.2.encoder } := by
  unfold drainOld
  split
  · rfl
  · split <;> rfl

theorem rebuild_ok
    {sampleRate channels : Nat}
    {out : Bytes}
    (hRebuild :
      p.rebuild sampleRate channels = (.ok out, next)) :
    ∃ encoder resampler,
      E.build p.config channels p.comments = .ok encoder ∧
        newResampler p.config sampleRate channels =
          .ok resampler ∧
        next =
          { p with
            encoder := some encoder
            resampler := resampler
            sourceSampleRate := some sampleRate
            sourceChannels := some channels
            replaced :=
              p.replaced ++ p.drainOld.2.stage } := by
  simp only [rebuild] at hRebuild
  generalize hOld : p.drainOld.2.stage = old at hRebuild ⊢
  rw [drainOld_frame] at hRebuild
  split at hRebuild
  · cases hRebuild
  · rename_i encoder hBuild
    split at hRebuild
    · cases hRebuild
    · rename_i resampler hResampler
      cases hRebuild
      exact ⟨encoder, resampler, hBuild, hResampler, rfl⟩

theorem encode_ok
    {pcm : List Sample}
    {out : Bytes}
    (hEncode : p.encode pcm = (.ok out, next)) :
    ∃ encoder after,
      p.encoder = some encoder ∧
        E.encode encoder pcm = (.ok out, after) ∧
        next = { p with encoder := some after } := by
  unfold encode at hEncode
  split at hEncode
  · cases hEncode
  · rename_i encoder hEncoder
    split at hEncode
    · cases hEncode
    · rename_i encoded after hStep
      cases hEncode
      exact ⟨encoder, after, hEncoder, hStep, rfl⟩

/- Resampling changes the resampler only. -/
theorem resample_eq
    {pcm : List Sample}
    {result : Except Fault (List Sample)}
    (hResample : p.resample pcm = (result, next)) :
    next = { p with resampler := next.resampler } := by
  unfold resample at hResample
  split at hResample
  · cases hResample
    rfl
  · split at hResample <;> cases hResample <;> rfl

/- Samples that come out of the resampler it has. -/
theorem resample_ok
    {pcm given : List Sample}
    (hResample : p.resample pcm = (.ok given, next)) :
    (p.resampler = none ∧ given = pcm ∧ next = p) ∨
      ∃ r r',
        p.resampler = some r ∧
          r.process pcm = (.ok given, r') ∧
            next = { p with resampler := some r' } := by
  unfold resample at hResample
  split at hResample
  · rename_i hNone
    cases hResample
    exact .inl ⟨hNone, rfl, rfl⟩
  · rename_i r hResampler
    split at hResample
    · cases hResample
    · rename_i out r' hProcess
      cases hResample
      exact .inr ⟨r, r', hResampler, hProcess, rfl⟩

/-
  Samples go through the resampler, and if anything comes out
  of it, into the encoder.
-/
theorem feed_ok
    {pcm : List Sample}
    {out : Bytes}
    (hFeed : p.feed pcm = (.ok out, next)) :
    ∃ given q,
      p.resample pcm = (.ok given, q) ∧
        ((given = [] ∧ out = [] ∧ next = q) ∨
          (given ≠ [] ∧ q.encode given = (.ok out, next))) := by
  unfold feed at hFeed
  split at hFeed
  · cases hFeed
  · rename_i given q hResample
    refine ⟨given, q, hResample, ?_⟩
    split at hFeed
    · rename_i hNone
      cases hFeed
      exact .inl ⟨hNone, rfl, rfl⟩
    · rename_i hSome
      exact .inr ⟨hSome, hFeed⟩

/- Samples in the format of the encoder, or in a new one. -/
theorem processPcm_ok
    {pcm : List Sample}
    {sampleRate channels : Nat}
    {out : Bytes}
    (hProcess :
      p.processPcm pcm sampleRate channels =
        (.ok out, next)) :
    ∃ before q encoded,
      ((p.HasFormat sampleRate channels ∧ before = [] ∧
            q = p) ∨
          (¬ p.HasFormat sampleRate channels ∧
            p.rebuild sampleRate channels =
              (.ok before, q))) ∧
        q.feed pcm = (.ok encoded, next) ∧
        out = before ++ encoded := by
  simp only [processPcm] at hProcess
  by_cases hFormat : p.HasFormat sampleRate channels
  · simp only [if_pos hFormat] at hProcess
    split at hProcess
    · cases hProcess
    · rename_i encoded q hFeed
      cases hProcess
      exact
        ⟨[], p, encoded, .inl ⟨hFormat, rfl, rfl⟩, hFeed,
          rfl⟩
  · simp only [if_neg hFormat] at hProcess
    cases hStep : p.rebuild sampleRate channels with
    | mk rebuilt q =>
        simp only [hStep] at hProcess
        split at hProcess
        · cases hProcess
        · rename_i before
          split at hProcess
          · cases hProcess
          · rename_i encoded after hFeed
            cases hProcess
            exact
              ⟨before, q, encoded, .inr ⟨hFormat, rfl⟩,
                hFeed, rfl⟩

/- A decoder that was given nothing has nothing left. -/
theorem flushDecoder_of_new
    {codec : CodecId}
    (hNew : p.decoder = .new codec) :
    p.flushDecoder =
      (.ok [],
        { p with
          decoder := (StreamDecoder.new codec).flushEof.2 }) := by
  unfold flushDecoder
  rw [hNew]
  rfl

/- The resampler's tail goes into the encoder, if it has one. -/
theorem flushResampler_ok
    {out : Bytes}
    (hFlush : p.flushResampler = (.ok out, next)) :
    (p.resampler = none ∧ out = [] ∧ next = p) ∨
      ∃ r r' tail,
        p.resampler = some r ∧ r.flush = (.ok tail, r') ∧
          ((tail = [] ∧ out = [] ∧
              next = { p with resampler := some r' }) ∨
            ({ p with resampler := some r' } :
                TranscodePipeline lib E).encode tail =
              (.ok out, next)) := by
  unfold flushResampler at hFlush
  split at hFlush
  · rename_i hNone
    cases hFlush
    exact .inl ⟨hNone, rfl, rfl⟩
  · rename_i r hResampler
    split at hFlush
    · cases hFlush
    · rename_i tail r' hTail
      refine .inr ⟨r, r', tail, hResampler, hTail, ?_⟩
      split at hFlush
      · rename_i hNone
        cases hFlush
        exact .inl ⟨hNone, rfl, rfl⟩
      · exact .inr hFlush

/- The encoder is finalised after the resampler. -/
theorem flushEncoder_ok
    {out : Bytes}
    (hFlush : p.flushEncoder = (.ok out, next)) :
    (p.encoder = none ∧ out = [] ∧ next = p) ∨
      p.encoder.isSome ∧
        ∃ combined q,
          p.flushResampler = (.ok combined, q) ∧
            ((q.encoder = none ∧ out = combined ∧ next = q) ∨
              ∃ encoder flushed after,
                q.encoder = some encoder ∧
                  E.flush encoder = (.ok flushed, after) ∧
                  out = combined ++ flushed ∧
                  next = { q with encoder := some after }) := by
  unfold flushEncoder at hFlush
  split at hFlush
  · rename_i hNone
    cases hFlush
    exact .inl ⟨hNone, rfl, rfl⟩
  · rename_i built hBuilt
    refine .inr ⟨by rw [hBuilt]; rfl, ?_⟩
    split at hFlush
    · cases hFlush
    · rename_i combined q hResampler
      refine ⟨combined, q, hResampler, ?_⟩
      split at hFlush
      · rename_i hNone
        cases hFlush
        exact .inl ⟨hNone, rfl, rfl⟩
      · rename_i encoder hEncoder
        split at hFlush
        · cases hFlush
        · rename_i flushed after hEnd
          cases hFlush
          exact
            .inr
              ⟨encoder, flushed, after, hEncoder, hEnd, rfl,
                rfl⟩

theorem flush_ok
    {out : Bytes}
    (hFlush : p.flush = (.ok out, next)) :
    ∃ combined q flushed,
      p.flushDecoder = (.ok combined, q) ∧
        q.flushEncoder = (.ok flushed, next) ∧
        out = combined ++ flushed := by
  unfold flush at hFlush
  split at hFlush
  · cases hFlush
  · rename_i combined q hDecoder
    split at hFlush
    · cases hFlush
    · rename_i flushed after hEncoder
      cases hFlush
      exact ⟨combined, q, flushed, hDecoder, hEncoder, rfl⟩

end TranscodePipeline

end Transcode

end RustyIce

------------------------------------------------------------
-- An Encoder That Cannot Be Built
------------------------------------------------------------

namespace RustyIce

namespace Transcode

variable {Sample : Type}
variable {lib : Symphonia Sample}
variable {E : Engines Sample}

/- No encoder can be built for so many channels. -/
def Engines.Refuses
    (E : Engines Sample)
    (config : TranscodeConfig)
    (comments : List (String × String))
    (channels : Nat) : Prop :=
  ∀ encoder, E.build config channels comments ≠ .ok encoder

/-
  Of formats in which samples come, two in a row are the
  same, and no encoder can be built for that format or for
  one before it.
-/
def Unbuilt
    (E : Engines Sample)
    (config : TranscodeConfig)
    (comments : List (String × String))
    (formats : List (Nat × Nat)) : Prop :=
  ∃ before format after,
    formats = before ++ format :: format :: after ∧
      ∀ f ∈ before ++ [format],
        E.Refuses config comments f.2

theorem unbuilt_mono
    {config : TranscodeConfig}
    {comments : List (String × String)}
    {front formats : List (Nat × Nat)}
    (hFront : front <+: formats)
    (hUnbuilt : Unbuilt E config comments front) :
    Unbuilt E config comments formats := by
  rcases hFront with ⟨rest, rfl⟩
  rcases hUnbuilt with ⟨before, format, after, rfl, hAll⟩
  exact ⟨before, format, after ++ rest, by simp, hAll⟩

/- Only the last two formats can be the first such pair. -/
theorem unbuilt_snoc_iff
    {config : TranscodeConfig}
    {comments : List (String × String)}
    {formats : List (Nat × Nat)}
    {format : Nat × Nat}
    (hNot : ¬ Unbuilt E config comments formats) :
    Unbuilt E config comments (formats ++ [format]) ↔
      formats.getLast? = some format ∧
        ∀ f ∈ formats, E.Refuses config comments f.2 := by
  constructor
  · rintro ⟨before, twice, after, hSplit, hAll⟩
    rcases List.eq_nil_or_concat after with
      rfl | ⟨front, last, rfl⟩
    · have hSame :
          formats ++ [format] =
            (before ++ [twice]) ++ [twice] := by
        rw [hSplit, List.append_assoc]
        rfl
      rcases List.append_inj' hSame rfl with ⟨rfl, hLast⟩
      cases hLast
      exact ⟨by simp, hAll⟩
    · have hSame :
          formats ++ [format] =
            (before ++ twice :: twice :: front) ++
              [last] := by
        rw [hSplit, List.append_assoc]
        simp
      rcases List.append_inj' hSame rfl with ⟨rfl, -⟩
      exact absurd ⟨before, twice, front, rfl, hAll⟩ hNot
  · rintro ⟨hLast, hAll⟩
    rcases List.getLast?_eq_some_iff.mp hLast with
      ⟨before, rfl⟩
    exact ⟨before, format, [], by simp, hAll⟩

namespace TranscodePipeline

/-
  A pipeline that was given samples in these formats without
  a panic: it has an encoder, or none could be built yet.
-/
inductive Standing
    (p : TranscodePipeline lib E)
    (formats : List (Nat × Nat)) : Prop
| encoding :
    p.encoder.isSome →
      (∃ f ∈ formats,
        ¬ E.Refuses p.config p.comments f.2) →
        Standing p formats
| missing :
    p.encoder = none →
      p.resampler = none →
        (∀ sampleRate channels,
          p.HasFormat sampleRate channels ↔
            formats.getLast? = some (sampleRate, channels)) →
          (∀ f ∈ formats,
            E.Refuses p.config p.comments f.2) →
            Standing p formats

theorem standing_new
    (config : TranscodeConfig)
    (codec : CodecId)
    (comments : List (String × String)) :
    (new config codec comments :
      TranscodePipeline lib E).Standing [] := by
  refine .missing rfl rfl ?_ nofun
  intro sampleRate channels
  simp [HasFormat, new]

/- What no call with samples changes. -/
structure SameSource
    (p next : TranscodePipeline lib E) : Prop where
  config : next.config = p.config
  comments : next.comments = p.comments
  decoder : next.decoder = p.decoder

variable {p next : TranscodePipeline lib E}
variable {formats : List (Nat × Nat)}
variable {sampleRate channels : Nat}
variable {pcm : List Sample}
variable {result : Except Fault Bytes}

theorem encode_cases
    (hEncode : p.encode pcm = (result, next)) :
    p.SameSource next ∧
      (panics result = true ↔ p.encoder = none) ∧
        next.encoder.isSome = p.encoder.isSome := by
  unfold encode at hEncode
  split at hEncode
  · rename_i hNone
    cases hEncode
    exact ⟨⟨rfl, rfl, rfl⟩, by simp [panics, hNone], rfl⟩
  · rename_i encoder hSome
    split at hEncode <;> cases hEncode <;>
      exact ⟨⟨rfl, rfl, rfl⟩, by simp [panics, hSome],
        by simp [hSome]⟩

/- Samples panic where there is no encoder for them. -/
theorem feed_cases
    (hFeed : p.feed pcm = (result, next)) :
    p.SameSource next ∧
      (panics result = true → p.encoder = none) ∧
        next.encoder.isSome = p.encoder.isSome ∧
          (pcm ≠ [] →
            p.encoder = none →
              p.resampler = none → panics result = true) := by
  unfold feed at hFeed
  rcases hResample : p.resample pcm with ⟨given, q⟩
  have hSame := resample_eq hResample
  rw [hResample] at hFeed
  have hKept : p.SameSource q ∧ q.encoder = p.encoder := by
    rw [hSame]
    exact ⟨⟨rfl, rfl, rfl⟩, rfl⟩
  cases given with
  | error e =>
      cases hFeed
      rcases hResampler : p.resampler with _ | r
      · simp [resample, hResampler] at hResample
      · simp only [resample, hResampler] at hResample
        split at hResample <;> cases hResample
        exact ⟨hKept.1, by simp [panics], rfl, by simp⟩
  | ok given =>
      simp only at hFeed
      split_ifs at hFeed with hNone
      · cases hFeed
        refine ⟨hKept.1, by simp [panics], ?_, ?_⟩
        · rw [hKept.2]
        · intro hSome _ hResampler
          rcases resample_ok hResample with
            ⟨-, rfl, -⟩ | ⟨r, r', hOther, -⟩
          · exact absurd hNone hSome
          · rw [hResampler] at hOther
            cases hOther
      · obtain ⟨hSource, hPanics, hEncoder⟩ :=
          encode_cases hFeed
        rw [hKept.2] at hPanics hEncoder
        refine ⟨?_, hPanics.mp, hEncoder, ?_⟩
        · exact
            ⟨hSource.config.trans hKept.1.config,
              hSource.comments.trans hKept.1.comments,
              hSource.decoder.trans hKept.1.decoder⟩
        · exact fun _ hMissing _ => hPanics.mpr hMissing

/- A new format: an encoder for it, or the old one stays. -/
theorem rebuild_cases
    (hRebuild :
      p.rebuild sampleRate channels = (result, next)) :
    p.SameSource next ∧ panics result = false ∧
      ((¬ E.Refuses p.config p.comments channels ∧
          next.encoder.isSome) ∨
        (E.Refuses p.config p.comments channels ∧
          next.HasFormat sampleRate channels ∧
            next.resampler = p.resampler ∧
              next.encoder.isSome = p.encoder.isSome ∧
                ∃ e, result = .error (.failed e))) := by
  have hDrained :
      p.drainOld.2.encoder.isSome = p.encoder.isSome := by
    unfold drainOld
    split
    · rfl
    · rename_i old hOld
      split <;> simp [hOld]
  simp only [rebuild] at hRebuild
  generalize p.drainOld.2.stage = old at hRebuild
  rw [drainOld_frame] at hRebuild
  split at hRebuild
  · rename_i e hBuild
    cases hRebuild
    refine ⟨⟨rfl, rfl, rfl⟩, rfl, .inr ?_⟩
    refine ⟨?_, ⟨rfl, rfl⟩, rfl, hDrained, e, rfl⟩
    intro encoder hOk
    cases hBuild.symm.trans hOk
  · rename_i encoder hBuild
    have hBuilds :
        ¬ E.Refuses p.config p.comments channels :=
      fun hRefuses => hRefuses encoder hBuild
    split at hRebuild <;> cases hRebuild <;>
      exact ⟨⟨rfl, rfl, rfl⟩, rfl, .inl ⟨hBuilds, rfl⟩⟩

theorem processPcm_cases
    (hProcess :
      p.processPcm pcm sampleRate channels =
        (result, next)) :
    ∃ rebuilt q,
      ((p.HasFormat sampleRate channels ∧ rebuilt = .ok [] ∧
            q = p) ∨
          (¬ p.HasFormat sampleRate channels ∧
            p.rebuild sampleRate channels = (rebuilt, q))) ∧
        ((∃ e, rebuilt = .error e ∧ result = .error e ∧
            next = q) ∨
          ∃ before fed,
            rebuilt = .ok before ∧ q.feed pcm = (fed, next) ∧
              panics result = panics fed) := by
  simp only [processPcm] at hProcess
  generalize hFirst :
    (if p.HasFormat sampleRate channels then (.ok [], p)
      else p.rebuild sampleRate channels) = first
    at hProcess
  rcases first with ⟨rebuilt, q⟩
  refine ⟨rebuilt, q, ?_, ?_⟩
  · split_ifs at hFirst with hFormat
    · cases hFirst
      exact .inl ⟨hFormat, rfl, rfl⟩
    · exact .inr ⟨hFormat, hFirst⟩
  · cases rebuilt with
    | error e =>
        cases hProcess
        exact .inl ⟨e, rfl, rfl, rfl⟩
    | ok before =>
        rcases hFeed : q.feed pcm with ⟨fed, after⟩
        simp only [hFeed] at hProcess
        cases fed with
        | error e =>
            cases hProcess
            refine .inr ⟨before, _, rfl, rfl, ?_⟩
            cases e <;> rfl
        | ok encoded =>
            cases hProcess
            exact .inr ⟨before, _, rfl, rfl, rfl⟩

theorem processPcm_sameSource
    (hProcess :
      p.processPcm pcm sampleRate channels =
        (result, next)) :
    p.SameSource next := by
  obtain ⟨rebuilt, q, hFirst, hLater⟩ :=
    processPcm_cases hProcess
  have hBefore : p.SameSource q := by
    rcases hFirst with ⟨-, -, rfl⟩ | ⟨-, hRebuild⟩
    · exact ⟨rfl, rfl, rfl⟩
    · exact (rebuild_cases hRebuild).1
  rcases hLater with ⟨e, -, -, rfl⟩ | ⟨before, fed, -, hFeed, -⟩
  · exact hBefore
  · have hAfter := (feed_cases hFeed).1
    exact
      ⟨hAfter.config.trans hBefore.config,
        hAfter.comments.trans hBefore.comments,
        hAfter.decoder.trans hBefore.decoder⟩

/-
  Samples make a pipeline panic exactly if theirs is the
  format for which no encoder was built, and else leave it
  standing.
-/
theorem processPcm_panics_iff
    (hStanding : p.Standing formats)
    (hNot : ¬ Unbuilt E p.config p.comments formats)
    (hSome : pcm ≠ [])
    (hProcess :
      p.processPcm pcm sampleRate channels =
        (result, next)) :
    (panics result = true ↔
        Unbuilt E p.config p.comments
          (formats ++ [(sampleRate, channels)])) ∧
      (panics result = false →
        next.Standing
          (formats ++ [(sampleRate, channels)])) := by
  have hSource := processPcm_sameSource hProcess
  obtain ⟨rebuilt, q, hFirst, hLater⟩ :=
    processPcm_cases hProcess
  rw [unbuilt_snoc_iff hNot]
  -- An encoder that is there once stays.
  have hKeeps :
      q.encoder.isSome →
        panics rebuilt = false →
          (∃ f ∈ formats ++ [(sampleRate, channels)],
            ¬ E.Refuses p.config p.comments f.2) →
            panics result = false ∧
              next.Standing
                (formats ++ [(sampleRate, channels)]) := by
    rintro hEncoder hQuiet ⟨f, hMem, hBuilds⟩
    rw [← hSource.config, ← hSource.comments] at hBuilds
    rcases hLater with
      ⟨e, rfl, rfl, rfl⟩ | ⟨before, fed, -, hFeed, hSame⟩
    · exact ⟨hQuiet, .encoding hEncoder ⟨f, hMem, hBuilds⟩⟩
    · obtain ⟨-, hPanics, hKept, -⟩ := feed_cases hFeed
      refine ⟨?_, .encoding ?_ ⟨f, hMem, hBuilds⟩⟩
      · rw [hSame, ← Bool.not_eq_true]
        intro hDid
        rw [hPanics hDid] at hEncoder
        cases hEncoder
      · rw [hKept]
        exact hEncoder
  cases hStanding with
  | encoding hEncoder hBuilt =>
      rcases hBuilt with ⟨f, hMem, hBuilds⟩
      have hHas : q.encoder.isSome ∧ panics rebuilt = false := by
        rcases hFirst with ⟨-, rfl, rfl⟩ | ⟨-, hRebuild⟩
        · exact ⟨hEncoder, rfl⟩
        · obtain ⟨-, hQuiet, ⟨-, hNew⟩ | ⟨-, -, -, hOld, -⟩⟩ :=
            rebuild_cases hRebuild
          · exact ⟨hNew, hQuiet⟩
          · exact ⟨hOld.trans hEncoder, hQuiet⟩
      obtain ⟨hQuiet, hNext⟩ :=
        hKeeps hHas.1 hHas.2
          ⟨f, List.mem_append_left _ hMem, hBuilds⟩
      refine ⟨?_, fun _ => hNext⟩
      rw [hQuiet]
      refine iff_of_false Bool.false_ne_true ?_
      exact fun hRefused => hBuilds (hRefused.2 f hMem)
  | missing hNone hPlain hFormats hRefused =>
      rcases hFirst with
        ⟨hFormat, rfl, rfl⟩ | ⟨hOther, hRebuild⟩
      · rcases hLater with
          ⟨e, hWrong, -⟩ | ⟨before, fed, -, hFeed, hSame⟩
        · cases hWrong
        · have hDoes :=
            (feed_cases hFeed).2.2.2 hSome hNone hPlain
          rw [hSame, hDoes]
          exact
            ⟨iff_of_true rfl
                ⟨(hFormats _ _).mp hFormat, hRefused⟩,
              nofun⟩
      · obtain ⟨-, hQuiet, hBuild⟩ := rebuild_cases hRebuild
        rcases hBuild with
          ⟨hBuilds, hNew⟩ |
            ⟨hRefuses, hFormat, hSame, hOld, e, rfl⟩
        · obtain ⟨hFine, hNext⟩ :=
            hKeeps hNew hQuiet
              ⟨(sampleRate, channels), by simp, hBuilds⟩
          refine ⟨?_, fun _ => hNext⟩
          rw [hFine]
          refine iff_of_false Bool.false_ne_true ?_
          exact fun hLast => hOther ((hFormats _ _).mpr hLast.1)
        · rcases hLater with
            ⟨e', hError, rfl, rfl⟩ | ⟨before, fed, hOk, -⟩
          · cases hError
            constructor
            · refine iff_of_false (by simp [panics]) ?_
              exact
                fun hLast => hOther ((hFormats _ _).mpr hLast.1)
            · intro _
              refine .missing ?_ ?_ ?_ ?_
              · rw [hNone] at hOld
                simpa using hOld
              · exact hSame.trans hPlain
              · intro rate count
                obtain ⟨hRate, hCount⟩ := hFormat
                simp [HasFormat, hRate, hCount]
              · intro f hMem
                rw [hSource.config, hSource.comments]
                rcases List.mem_append.mp hMem with hMem | hMem
                · exact hRefused f hMem
                · rw [List.mem_singleton.mp hMem]
                  exact hRefuses
          · cases hOk

end TranscodePipeline

end Transcode

end RustyIce

------------------------------------------------------------
-- Where A Source Makes It Panic
------------------------------------------------------------

namespace RustyIce

namespace Transcode

variable {Sample : Type}
variable {lib : Symphonia Sample}
variable {E : Engines Sample}

/- The format in which samples are decoded, if any are. -/
def decodedFormat (pcm : Pcm Sample) : List (Nat × Nat) :=
  if pcm.samples = [] ∨ pcm.sampleRate = 0 then []
  else [(pcm.sampleRate, pcm.channels)]

/- What is decoded at the end needs channels as well. -/
def flushedFormat (pcm : Pcm Sample) : List (Nat × Nat) :=
  if pcm.channels = 0 then [] else decodedFormat pcm

namespace TranscodePipeline

variable {p next : TranscodePipeline lib E}
variable {formats : List (Nat × Nat)}
variable {result : Except Fault Bytes}

/- Only what decodes the source moves ahead of the samples. -/
theorem Standing.decoder
    (hStanding : p.Standing formats)
    (decoder : StreamDecoder lib) :
    ({ p with decoder := decoder } :
      TranscodePipeline lib E).Standing formats := by
  cases hStanding with
  | encoding hEncoder hBuilt => exact .encoding hEncoder hBuilt
  | missing hNone hPlain hFormats hRefused =>
      exact .missing hNone hPlain hFormats hRefused

/-
  Bytes of the source make a pipeline panic exactly if the
  samples decoded from them do.
-/
theorem push_panics_iff
    {data : Bytes}
    (hStanding : p.Standing formats)
    (hNot : ¬ Unbuilt E p.config p.comments formats)
    (hPush : p.push data = (result, next)) :
    (panics result = true ↔
        Unbuilt E p.config p.comments
          (formats ++ decodedFormat (p.decoder.push data).1)) ∧
      (panics result = false →
        next.Standing
          (formats ++
            decodedFormat (p.decoder.push data).1)) ∧
        next.config = p.config ∧ next.comments = p.comments ∧
          next.decoder = (p.decoder.push data).2 := by
  unfold push at hPush
  split_ifs at hPush with hEmpty
  · cases hPush
    rw [hEmpty]
    have hNothing :
        (p.decoder.push []).1 = .none ∧
          (p.decoder.push []).2 = p.decoder :=
      ⟨rfl, rfl⟩
    have hNone :
        decodedFormat (Pcm.none : Pcm Sample) = [] := rfl
    rw [hNothing.1, hNothing.2, hNone, List.append_nil]
    exact
      ⟨iff_of_false (by simp [panics]) hNot,
        fun _ => hStanding, rfl, rfl, rfl⟩
  · rcases hDecoded : p.decoder.push data with ⟨pcm, decoder⟩
    simp only [hDecoded] at hPush ⊢
    unfold decodedFormat
    split_ifs at hPush with hSilent
    · cases hPush
      rw [if_pos hSilent, List.append_nil]
      exact
        ⟨iff_of_false (by simp [panics]) hNot,
          fun _ => hStanding.decoder decoder, rfl, rfl, rfl⟩
    · rw [if_neg hSilent]
      have hSource := processPcm_sameSource hPush
      have hBoth :=
        processPcm_panics_iff (hStanding.decoder decoder) hNot
          (not_or.mp hSilent).1 hPush
      exact
        ⟨hBoth.1, hBoth.2, hSource.config, hSource.comments,
          hSource.decoder⟩

/- No samples, no panic. -/
theorem panics_feed_nil
    (hFeed : p.feed [] = (result, next)) :
    panics result = false := by
  unfold feed resample at hFeed
  rcases hResampler : p.resampler with _ | r
  · simp only [hResampler] at hFeed
    cases hFeed
    rfl
  · have hProcess : r.process [] = (.ok [], r) := rfl
    simp only [hResampler, hProcess] at hFeed
    cases hFeed
    rfl

/- An encoder that is built is there for the tail. -/
theorem panics_flushEncoder
    (hFlush : p.flushEncoder = (result, next)) :
    panics result = false := by
  unfold flushEncoder at hFlush
  split at hFlush
  · cases hFlush
    rfl
  · rename_i encoder hEncoder
    have hTail : panics p.flushResampler.1 = false := by
      unfold flushResampler
      split
      · rfl
      · split
        · rfl
        · simp only
          split_ifs
          · rfl
          · rename_i r _ tail r' _ _
            rcases hEncode :
                ({ p with resampler := some r' } :
                  TranscodePipeline lib E).encode tail with
              ⟨encoded, q⟩
            have hPanics := (encode_cases hEncode).2.1
            rw [← Bool.not_eq_true, hPanics]
            simp [hEncoder]
    split at hFlush
    · rename_i e q hFailed
      cases hFlush
      rw [hFailed] at hTail
      cases e
      · rfl
      · exact hTail
    · split at hFlush
      · cases hFlush
        rfl
      · split at hFlush <;> cases hFlush <;> rfl

/- So does the end of the source. -/
theorem flush_panics_iff
    (hStanding : p.Standing formats)
    (hNot : ¬ Unbuilt E p.config p.comments formats) :
    panics p.flush.1 = true ↔
      Unbuilt E p.config p.comments
        (formats ++ flushedFormat p.decoder.flushEof.1) := by
  have hDecoder :
      panics p.flushDecoder.1 = true ↔
        Unbuilt E p.config p.comments
          (formats ++ flushedFormat p.decoder.flushEof.1) := by
    rcases hDecoded : p.decoder.flushEof with ⟨pcm, decoder⟩
    simp only [flushDecoder, hDecoded, flushedFormat]
    split_ifs with hFormat hChannels hNone
    · exact absurd hChannels hFormat.2
    · rcases hProcess :
          ({ p with decoder := decoder } :
            TranscodePipeline lib E).processPcm pcm.samples
              pcm.sampleRate pcm.channels with
        ⟨done, q⟩
      by_cases hSamples : pcm.samples = []
      · have hList : decodedFormat pcm = [] := by
          simp [decodedFormat, hSamples]
        rw [hList, List.append_nil]
        refine iff_of_false ?_ hNot
        rw [hSamples] at hProcess
        rw [Bool.not_eq_true]
        rcases processPcm_cases hProcess with
          ⟨rebuilt, r, hFirst, hLater⟩
        rcases hLater with
          ⟨e, rfl, rfl, rfl⟩ | ⟨before, fed, -, hFeed, hSame⟩
        · rcases hFirst with ⟨-, hWrong, -⟩ | ⟨-, hRebuild⟩
          · cases hWrong
          · exact (rebuild_cases hRebuild).2.1
        · rw [hSame]
          exact panics_feed_nil hFeed
      · have hList :
            decodedFormat pcm =
              [(pcm.sampleRate, pcm.channels)] := by
          simp [decodedFormat, hSamples, hFormat.1]
        rw [hList]
        exact
          (processPcm_panics_iff (hStanding.decoder decoder)
            hNot hSamples hProcess).1
    · rw [List.append_nil]
      exact iff_of_false (by simp [panics]) hNot
    · have hRate : pcm.sampleRate = 0 := by
        by_contra hSome
        exact hFormat ⟨hSome, hNone⟩
      have hList : decodedFormat pcm = [] := by
        simp [decodedFormat, hRate]
      rw [hList, List.append_nil]
      exact iff_of_false (by simp [panics]) hNot
  rw [← hDecoder]
  unfold flush
  split
  · rename_i e q hFailed
    rw [hFailed]
  · rename_i combined q hDone
    rw [hDone]
    refine iff_of_false ?_ (by simp [panics])
    rw [Bool.not_eq_true]
    split
    · rename_i e r hFailed
      have hQuiet := panics_flushEncoder hFailed
      cases e
      · rfl
      · exact hQuiet
    · rfl

end TranscodePipeline

end Transcode

end RustyIce
