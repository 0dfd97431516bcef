import RustyIce.Library.Columns
import RustyIce.Transcode.Pipeline

/-
  What becomes of the frames given to a transcode pipeline
  whose format changes: those the resampler holds back when
  its format ends are dropped with it.

  Encoders and resampler cores count as consumers here: a
  meter tells what they have consumed, and what the cores
  have made of it. A stage is looked at when its encoder is
  replaced, behind all that the replacing call does with it.

  Main declarations:
    * `Meter`
    * `PcmCall`, `formatRuns`
    * `TranscodePipeline.stages`, `Consumed`
    * `Parked`, `Feeding`
    * `framesConsumed_iff`
-/

------------------------------------------------------------
-- Consumers
------------------------------------------------------------

namespace RustyIce

namespace Transcode

open Library

variable {Sample : Type}

/-
  What encoders and cores have consumed so far, and the
  samples that came out of a core. A core takes chunks of one
  size, which is fixed by its parameters.
-/
structure Meter (E : Engines Sample) where
  taken : E.Encoder → List Sample
  frames : E.Core → List (List Sample)
  made : E.Core → List Sample
  chunk : Nat → Nat → Nat → Nat
  build :
    ∀ {config channels comments encoder},
      E.build config channels comments = .ok encoder →
        taken encoder = []
  encode :
    ∀ {encoder pcm out next},
      E.encode encoder pcm = (.ok out, next) →
        taken next = taken encoder ++ pcm
  flush :
    ∀ {encoder result next},
      E.flush encoder = (result, next) →
        taken next = taken encoder
  newCore :
    ∀ {fromRate toRate channels core},
      E.newCore fromRate toRate channels = .ok core →
        frames core = List.replicate channels [] ∧
          made core = [] ∧
            E.inputFramesNext core =
              chunk fromRate toRate channels
  process :
    ∀ {core cols out next},
      E.process core cols = (.ok out, next) →
        frames next = appendColumns (frames core) cols ∧
          made next = made core ++ interleave out ∧
            E.inputFramesNext next = E.inputFramesNext core
  processLast :
    ∀ {core cols out next},
      E.processPartial core (some cols) = (.ok out, next) →
        frames next = appendColumns (frames core) cols ∧
          made next = made core ++ interleave out
  drain :
    ∀ {core out next},
      E.processPartial core none = (.ok out, next) →
        frames next = frames core ∧
          made next = made core ++ interleave out
  chunk_pos :
    ∀ fromRate toRate channels,
      0 < chunk fromRate toRate channels

/- Whole frames in a format, as the callers push them. -/
structure PcmCall (Sample : Type) where
  pcm : Pcm Sample
  rate_pos : 0 < pcm.sampleRate
  channels_pos : 0 < pcm.channels
  whole : pcm.channels ∣ pcm.samples.length

namespace Pcm

def SameFormat (run pcm : Pcm Sample) : Prop :=
  run.sampleRate = pcm.sampleRate ∧
    run.channels = pcm.channels

instance (run pcm : Pcm Sample) :
    Decidable (run.SameFormat pcm) := by
  unfold SameFormat
  infer_instance

def append
    (run : Pcm Sample)
    (samples : List Sample) : Pcm Sample :=
  { run with samples := run.samples ++ samples }

/- The number of frames. -/
def frames (run : Pcm Sample) : Nat :=
  run.samples.length / run.channels

end Pcm

/-
  The frames of some calls by format, where a format lasts
  as long as no call with frames brings another.
-/
def runsFrom
    (run : Pcm Sample) : List (PcmCall Sample) →
      List (Pcm Sample)
| [] => [run]
| call :: calls =>
    if call.pcm.samples = [] then
      runsFrom run calls
    else if run.SameFormat call.pcm then
      runsFrom (run.append call.pcm.samples) calls
    else
      run :: runsFrom call.pcm calls

def formatRuns :
    List (PcmCall Sample) → List (Pcm Sample)
| [] => []
| call :: calls =>
    if call.pcm.samples = [] then formatRuns calls
    else runsFrom call.pcm calls

end Transcode

end RustyIce

------------------------------------------------------------
-- Stages
------------------------------------------------------------

namespace RustyIce

namespace Transcode

open Library

variable {Sample : Type}
variable {lib : Symphonia Sample}
variable {E : Engines Sample}

namespace TranscodePipeline

/- Calls without an error. -/
def pushAll
    (p : TranscodePipeline lib E) :
    List (PcmCall Sample) → Option (TranscodePipeline lib E)
| [] => some p
| call :: calls =>
    match p.pushPcm call.pcm with
    | (.error _, _) => none
    | (.ok _, next) => next.pushAll calls

theorem pushAll_cons_ok
    {p last : TranscodePipeline lib E}
    {call : PcmCall Sample}
    {calls : List (PcmCall Sample)}
    (hPush : p.pushAll (call :: calls) = some last) :
    ∃ encoded next,
      p.pushPcm call.pcm = (.ok encoded, next) ∧
        next.pushAll calls = some last := by
  rw [pushAll] at hPush
  split at hPush
  · cases hPush
  · rename_i encoded next hCall
    exact ⟨encoded, next, hCall, hPush⟩

/-
  Calls and a flush without an error: every encoder with its
  resampler, as each was left behind.
-/
def stages
    (p : TranscodePipeline lib E)
    (calls : List (PcmCall Sample)) :
    Option (List (Stage E)) :=
  match p.pushAll calls with
  | none => none
  | some last =>
      match last.flush with
      | (.error _, _) => none
      | (.ok _, final) =>
          some (final.replaced ++ final.stage)

end TranscodePipeline

/-
  An encoder for the format of a run has consumed its frames;
  or the resampler in front of it has, and the encoder all
  that came out of the resampler.
-/
structure Consumed
    (M : Meter E)
    (stage : Stage E)
    (run : Pcm Sample) : Prop where
  rate : stage.sampleRate = some run.sampleRate
  channels : stage.channels = some run.channels
  direct :
    stage.resampler = none →
      M.taken stage.encoder = run.samples
  resampled :
    ∀ r,
      stage.resampler = some r →
        M.frames r.inner = columns run.channels run.samples ∧
          M.taken stage.encoder = M.made r.inner

/-
  Every frame of every run is consumed by the encoder that
  was built for it, or through its resampler.
-/
def FramesConsumed
    (M : Meter E)
    (stages : List (Stage E))
    (calls : List (PcmCall Sample)) : Prop :=
  List.Forall₂ (Consumed M) stages (formatRuns calls)

/- A run that is not resampled, or is whole chunks. -/
def WholeChunks
    (M : Meter E)
    (config : TranscodeConfig)
    (run : Pcm Sample) : Prop :=
  run.sampleRate = config.sampleRate ∨
    M.chunk run.sampleRate config.sampleRate run.channels ∣
      run.frames

end Transcode

end RustyIce

------------------------------------------------------------
-- The Resampler
------------------------------------------------------------

namespace RustyIce

namespace Transcode

open Library

variable {Sample : Type}
variable {E : Engines Sample}

/-
  A resampler has consumed whole chunks of some frames and
  holds the rest back.
-/
structure Parked
    (M : Meter E)
    (chunk : Nat)
    (r : PcmResampler E)
    (channels : Nat)
    (samples : List Sample) : Prop where
  same : r.channels = channels
  size : E.inputFramesNext r.inner = chunk
  width : r.leftover.length = channels
  frames_width : (M.frames r.inner).length = channels
  even : ∀ col ∈ r.leftover, col.length = r.held
  chunks :
    ∃ count,
      ∀ col ∈ M.frames r.inner, col.length = chunk * count
  total :
    appendColumns (M.frames r.inner) r.leftover =
      columns channels samples

variable {M : Meter E}
variable {chunk channels : Nat}
variable {r r' : PcmResampler E}
variable {samples : List Sample}

/- A resampler before its first frame. -/
theorem parked_new
    {fromRate toRate : Nat}
    (hNew :
      PcmResampler.new fromRate toRate channels = .ok r) :
    Parked M (M.chunk fromRate toRate channels) r channels
        [] ∧
      r.held = 0 ∧ M.made r.inner = [] := by
  unfold PcmResampler.new at hNew
  split at hNew
  · cases hNew
  · rename_i inner hCore
    cases hNew
    obtain ⟨hFrames, hMade, hSize⟩ := M.newCore hCore
    have hNone :
        PcmResampler.held (E := E)
            { inner := inner
              channels := channels
              leftover := List.replicate channels [] } =
          0 := by
      unfold PcmResampler.held
      cases channels <;> rfl
    refine ⟨?_, hNone, hMade⟩
    exact
      { same := rfl
        size := hSize
        width := List.length_replicate
        frames_width := by
          rw [hFrames, List.length_replicate]
        even := by
          intro col hMem
          rw [hNone, List.eq_of_mem_replicate hMem]
          rfl
        chunks := by
          refine ⟨0, ?_⟩
          intro col hMem
          rw [hFrames] at hMem
          rw [List.eq_of_mem_replicate hMem]
          rfl
        total := by
          rw [hFrames, columns_nil]
          exact
            (appendColumns_replicate_nil
              List.length_replicate).1 }

namespace Parked

/- The number of frames held, of columns of one length. -/
theorem held_eq
    {cols : List (List Sample)}
    {n : Nat}
    (hSome : cols ≠ [])
    (hEven : ∀ col ∈ cols, col.length = n) :
    (cols.headD []).length = n := by
  cases cols with
  | nil => exact absurd rfl hSome
  | cons col cols => exact hEven col List.mem_cons_self

theorem leftover_ne_nil
    (hPos : 0 < channels)
    (hParked : Parked M chunk r channels samples) :
    r.leftover ≠ [] := by
  intro hNone
  have hWidth := hParked.width
  rw [hNone] at hWidth
  exact absurd hWidth.symm (Nat.pos_iff_ne_zero.mp hPos)

/- The frames are the chunks consumed and those held back. -/
theorem rows
    (hPos : 0 < channels)
    (hParked : Parked M chunk r channels samples)
    {count : Nat}
    (hCount : samples.length = channels * count) :
    ∃ whole,
      (∀ col ∈ M.frames r.inner,
        col.length = chunk * whole) ∧
        count = chunk * whole + r.held := by
  obtain ⟨whole, hWhole⟩ := hParked.chunks
  refine ⟨whole, hWhole, ?_⟩
  obtain ⟨col, hMem⟩ := exists_mem_columns hPos samples
  rw [← length_of_mem_columns hCount hMem]
  rw [← hParked.total] at hMem
  exact
    length_of_mem_appendColumns hWhole hParked.even hMem

/- Nothing is held back exactly of whole chunks. -/
theorem held_eq_zero_iff
    (hPos : 0 < channels)
    (hParked : Parked M chunk r channels samples)
    (hShort : r.held < chunk)
    {count : Nat}
    (hCount : samples.length = channels * count) :
    r.held = 0 ↔ chunk ∣ count := by
  obtain ⟨whole, _, rfl⟩ := hParked.rows hPos hCount
  rw [Nat.dvd_add_right (Nat.dvd_mul_right chunk whole)]
  constructor
  · intro hNone
    rw [hNone]
    exact Nat.dvd_zero _
  · intro hDvd
    exact Nat.eq_zero_of_dvd_of_lt hDvd hShort

/- All is consumed exactly if nothing is held back. -/
theorem frames_eq_iff
    (hPos : 0 < channels)
    (hParked : Parked M chunk r channels samples)
    {count : Nat}
    (hCount : samples.length = channels * count) :
    M.frames r.inner = columns channels samples ↔
      r.held = 0 := by
  constructor
  · intro hAll
    obtain ⟨whole, hWhole, hRows⟩ := hParked.rows hPos hCount
    obtain ⟨col, hMem⟩ := exists_mem_columns hPos samples
    have hLength := length_of_mem_columns hCount hMem
    rw [← hAll] at hMem
    have hSame := hWhole col hMem
    omega
  · intro hNone
    have hEmpty :
        r.leftover = List.replicate channels [] := by
      rw [List.eq_replicate_iff]
      refine ⟨hParked.width, ?_⟩
      intro col hMem
      apply List.eq_nil_of_length_eq_zero
      rw [hParked.even col hMem, hNone]
    rw [← hParked.total, hEmpty]
    exact
      (appendColumns_replicate_nil
        hParked.frames_width).1.symm

/- More frames arrive. -/
theorem append
    (hPos : 0 < channels)
    (hParked : Parked M chunk r channels samples)
    (hWhole : channels ∣ samples.length)
    {pcm : List Sample}
    (hPcm : channels ∣ pcm.length) :
    Parked M chunk
      { r with
        leftover :=
          r.leftover.mapIdx fun ch buf =>
            buf ++ everyNth r.channels ch pcm }
      channels (samples ++ pcm) := by
  rw [hParked.same,
    mapIdx_append_everyNth hParked.width]
  obtain ⟨count, hCount⟩ := hPcm
  have hEven :
      ∀ col ∈
          appendColumns r.leftover (columns channels pcm),
        col.length = r.held + count :=
    fun col hMem =>
      length_of_mem_appendColumns hParked.even
        (fun other hOther =>
          length_of_mem_columns hCount hOther)
        hMem
  have hSome :
      appendColumns r.leftover (columns channels pcm) ≠
        [] := by
    intro hNone
    have hLength := congrArg List.length hNone
    simp [hParked.width] at hLength
    omega
  exact
    { same := rfl
      size := hParked.size
      width := by simp [hParked.width]
      frames_width := hParked.frames_width
      even := by
        intro col hMem
        rw [hEven col hMem]
        exact (held_eq hSome hEven).symm
      chunks := hParked.chunks
      total := by
        rw [← appendColumns_assoc, hParked.total,
          columns_append hWhole] }

/- A chunk goes into the core. -/
theorem process
    (hPos : 0 < channels)
    (hParked : Parked M chunk r channels samples)
    (hChunk : chunk ≤ r.held)
    {out : List (List Sample)}
    {inner : E.Core}
    (hProcess :
      E.process r.inner (r.leftover.map (·.take chunk)) =
        (.ok out, inner)) :
    Parked M chunk
        { r with
          inner := inner
          leftover := r.leftover.map (·.drop chunk) }
        channels samples ∧
      PcmResampler.held
          { r with
            inner := inner
            leftover := r.leftover.map (·.drop chunk) } =
        r.held - chunk := by
  obtain ⟨hFrames, -, hSize⟩ := M.process hProcess
  obtain ⟨count, hCount⟩ := hParked.chunks
  have hTaken :
      ∀ col ∈ r.leftover.map (·.take chunk),
        col.length = chunk := by
    intro col hMem
    rcases List.mem_map.mp hMem with ⟨other, hOther, rfl⟩
    rw [List.length_take, hParked.even other hOther]
    omega
  have hLeft :
      ∀ col ∈ r.leftover.map (·.drop chunk),
        col.length = r.held - chunk := by
    intro col hMem
    rcases List.mem_map.mp hMem with ⟨other, hOther, rfl⟩
    rw [List.length_drop, hParked.even other hOther]
  have hHeld :
      PcmResampler.held
          { r with
            inner := inner
            leftover := r.leftover.map (·.drop chunk) } =
        r.held - chunk :=
    held_eq (by simpa using hParked.leftover_ne_nil hPos)
      hLeft
  refine ⟨?_, hHeld⟩
  exact
    { same := hParked.same
      size := hSize.trans hParked.size
      width := by simpa using hParked.width
      frames_width := by
        rw [hFrames, length_appendColumns, List.length_map,
          hParked.width, hParked.frames_width, Nat.min_self]
      even := by
        intro col hMem
        rw [hHeld]
        exact hLeft col hMem
      chunks := by
        refine ⟨count + 1, ?_⟩
        intro col hMem
        simp only [hFrames] at hMem
        rw [length_of_mem_appendColumns hCount hTaken hMem,
          Nat.mul_succ]
      total := by
        simp only [hFrames]
        rw [appendColumns_assoc, appendColumns_take_drop,
          hParked.total] }

/- The loop leaves less than a chunk. -/
theorem drainChunks
    (hPos : 0 < channels)
    (hChunk : 0 < chunk)
    {fuel : Nat}
    (hParked : Parked M chunk r channels samples)
    (hFuel : r.held ≤ fuel)
    {output out : List Sample}
    (hDrain :
      PcmResampler.drainChunks chunk fuel r output =
        (.ok out, r')) :
    Parked M chunk r' channels samples ∧
      r'.held < chunk ∧
        ∃ more,
          out = output ++ more ∧
            M.made r'.inner = M.made r.inner ++ more := by
  induction fuel generalizing r output with
  | zero =>
      cases hDrain
      exact ⟨hParked, by omega, [], by simp, by simp⟩
  | succ fuel ih =>
      rw [PcmResampler.drainChunks] at hDrain
      split at hDrain
      · rename_i hMore
        split at hDrain
        · cases hDrain
        · rename_i chunkOut inner hProcess
          obtain ⟨hNext, hHeld⟩ :=
            hParked.process hPos hMore hProcess
          obtain ⟨-, hMade, -⟩ := M.process hProcess
          obtain ⟨hLast, hShort, more, rfl, hMore'⟩ :=
            ih hNext (by omega) hDrain
          refine
            ⟨hLast, hShort, interleave chunkOut ++ more,
              List.append_assoc _ _ _, ?_⟩
          rw [hMore', hMade, List.append_assoc]
      · rename_i hLess
        cases hDrain
        exact
          ⟨hParked, Nat.lt_of_not_le hLess, [], by simp,
            by simp⟩

/- The resampler takes in some frames. -/
theorem of_process
    (hPos : 0 < channels)
    (hChunk : 0 < chunk)
    (hParked : Parked M chunk r channels samples)
    (hShort : r.held < chunk)
    (hWhole : channels ∣ samples.length)
    {pcm out : List Sample}
    (hPcm : channels ∣ pcm.length)
    (hProcess : r.process pcm = (.ok out, r')) :
    Parked M chunk r' channels (samples ++ pcm) ∧
      r'.held < chunk ∧
        M.made r'.inner = M.made r.inner ++ out := by
  unfold PcmResampler.process at hProcess
  split at hProcess
  · rename_i hNone
    cases hProcess
    rw [hNone, List.append_nil, List.append_nil]
    exact ⟨hParked, hShort, rfl⟩
  · simp only [hParked.size] at hProcess
    obtain ⟨hNext, hLess, more, hOut, hMade⟩ :=
      drainChunks hPos hChunk
        (hParked.append hPos hWhole hPcm) (Nat.le_refl _)
        hProcess
    rw [List.nil_append] at hOut
    rw [hOut]
    exact ⟨hNext, hLess, hMade⟩

/- At the end it consumes what it held back. -/
theorem of_flush
    (hPos : 0 < channels)
    (hParked : Parked M chunk r channels samples)
    {out : List Sample}
    {count : Nat}
    (hCount : samples.length = channels * count)
    (hFlush : r.flush = (.ok out, r')) :
    M.frames r'.inner = columns channels samples ∧
      M.made r'.inner = M.made r.inner ++ out := by
  unfold PcmResampler.flush at hFlush
  split at hFlush
  · cases hFlush
  · rename_i first s hLeftover
    have hFirst :
        M.frames s.inner = columns channels samples ∧
          M.made s.inner = M.made r.inner ++ first := by
      unfold PcmResampler.flushLeftover at hLeftover
      split at hLeftover
      · rename_i hNone
        cases hLeftover
        exact
          ⟨(hParked.frames_eq_iff hPos hCount).mpr hNone,
            (List.append_nil _).symm⟩
      · split at hLeftover
        · cases hLeftover
        · rename_i chunkOut inner hLast
          cases hLeftover
          obtain ⟨hFrames, hMade⟩ := M.processLast hLast
          exact ⟨hFrames.trans hParked.total, hMade⟩
    split at hFlush
    · cases hFlush
    · rename_i chunkOut inner hDrain
      cases hFlush
      obtain ⟨hFrames, hMade⟩ := M.drain hDrain
      refine ⟨hFrames.trans hFirst.1, ?_⟩
      rw [hMade, hFirst.2, List.append_assoc]

end Parked

end Transcode

end RustyIce

------------------------------------------------------------
-- One Format
------------------------------------------------------------

namespace RustyIce

namespace Transcode

open Library

variable {Sample : Type}
variable {lib : Symphonia Sample}
variable {E : Engines Sample}

/-
  The frames of a run as an encoder and its resampler have
  taken them so far.
-/
inductive Route
    (M : Meter E)
    (config : TranscodeConfig)
    (run : Pcm Sample) :
    E.Encoder → Option (PcmResampler E) → Prop
| direct {encoder : E.Encoder} :
    run.sampleRate = config.sampleRate →
      M.taken encoder = run.samples →
        Route M config run encoder none
| resampled {encoder : E.Encoder} {r : PcmResampler E} :
    run.sampleRate ≠ config.sampleRate →
      Parked M
          (M.chunk run.sampleRate config.sampleRate
            run.channels)
          r run.channels run.samples →
        r.held <
            M.chunk run.sampleRate config.sampleRate
              run.channels →
          M.taken encoder = M.made r.inner →
            Route M config run encoder (some r)

/-
  A pipeline that is given samples only, in the middle of a
  run.
-/
structure Feeding
    (M : Meter E)
    (config : TranscodeConfig)
    (codec : CodecId)
    (p : TranscodePipeline lib E)
    (run : Pcm Sample) : Prop where
  config_eq : p.config = config
  decoder_new : p.decoder = .new codec
  format : p.HasFormat run.sampleRate run.channels
  channels_pos : 0 < run.channels
  whole : run.channels ∣ run.samples.length
  route :
    ∃ encoder,
      p.encoder = some encoder ∧
        Route M config run encoder p.resampler

variable {M : Meter E}
variable {config : TranscodeConfig}
variable {codec : CodecId}
variable {p next : TranscodePipeline lib E}
variable {run : Pcm Sample}

/- A new encoder and resampler have taken nothing. -/
theorem feeding_of_rebuild
    (hConfig : p.config = config)
    (hNew : p.decoder = .new codec)
    {sampleRate channels : Nat}
    (hPos : 0 < channels)
    {out : Bytes}
    (hRebuild :
      p.rebuild sampleRate channels = (.ok out, next)) :
    Feeding M config codec next
      { samples := []
        sampleRate := sampleRate
        channels := channels } := by
  subst hConfig
  obtain ⟨encoder, resampler, hBuild, hResampler, rfl⟩ :=
    TranscodePipeline.rebuild_ok hRebuild
  refine
    { config_eq := rfl
      decoder_new := hNew
      format := ⟨rfl, rfl⟩
      channels_pos := hPos
      whole := Nat.dvd_zero channels
      route := ⟨encoder, rfl, ?_⟩ }
  unfold TranscodePipeline.newResampler at hResampler
  split at hResampler
  · rename_i hRate
    split at hResampler
    · cases hResampler
    · rename_i r hFresh
      cases hResampler
      obtain ⟨hParked, hNone, hMade⟩ := parked_new hFresh
      refine .resampled hRate hParked ?_ ?_
      · rw [hNone]
        exact M.chunk_pos _ _ _
      · rw [hMade]
        exact M.build hBuild
  · rename_i hRate
    cases hResampler
    exact .direct (Classical.not_not.mp hRate)
      (M.build hBuild)

/- An encoder takes in some samples. -/
theorem taken_of_encode
    {encoder : E.Encoder}
    (hEncoder : p.encoder = some encoder)
    {pcm : List Sample}
    {out : Bytes}
    (hEncode : p.encode pcm = (.ok out, next)) :
    ∃ after,
      next = { p with encoder := some after } ∧
        M.taken after = M.taken encoder ++ pcm := by
  obtain ⟨built, after, hBuilt, hStep, rfl⟩ :=
    TranscodePipeline.encode_ok hEncode
  rw [hEncoder] at hBuilt
  cases hBuilt
  exact ⟨after, rfl, M.encode hStep⟩

namespace Feeding

/- More frames of the same format. -/
theorem feed
    (hFeeding : Feeding M config codec p run)
    {pcm : List Sample}
    (hPcm : run.channels ∣ pcm.length)
    {out : Bytes}
    (hFeed : p.feed pcm = (.ok out, next)) :
    Feeding M config codec next (run.append pcm) := by
  have hWhole :
      run.channels ∣ (run.append pcm).samples.length := by
    simp only [Pcm.append, List.length_append]
    exact Nat.dvd_add hFeeding.whole hPcm
  obtain ⟨encoder, hEncoder, hRoute⟩ := hFeeding.route
  obtain ⟨given, q, hResample, hGiven⟩ :=
    TranscodePipeline.feed_ok hFeed
  -- All that is given to the encoder is taken by it.
  have hAfter :
      q.encoder = some encoder →
        ∃ after,
          next = { q with encoder := some after } ∧
            M.taken after = M.taken encoder ++ given := by
    intro hSame
    rcases hGiven with ⟨hNone, _, rfl⟩ | ⟨_, hEncode⟩
    · refine ⟨encoder, ?_, ?_⟩
      · rw [← hSame]
      · rw [hNone, List.append_nil]
    · exact taken_of_encode hSame hEncode
  generalize hResampler : p.resampler = resampler at hRoute
  cases hRoute with
  | direct hRate hTaken =>
      rcases TranscodePipeline.resample_ok hResample with
        ⟨-, rfl, rfl⟩ | ⟨r, r', hSome, -⟩
      · obtain ⟨after, rfl, hTaken'⟩ := hAfter hEncoder
        refine
          { config_eq := hFeeding.config_eq
            decoder_new := hFeeding.decoder_new
            format := hFeeding.format
            channels_pos := hFeeding.channels_pos
            whole := hWhole
            route := ⟨after, rfl, ?_⟩ }
        simp only [hResampler]
        refine .direct hRate ?_
        rw [hTaken', hTaken]
        rfl
      · rw [hResampler] at hSome
        cases hSome
  | @resampled r hRate hParked hShort hTaken =>
      rcases TranscodePipeline.resample_ok hResample with
        ⟨hNone, -⟩ | ⟨s, r', hSome, hStep, rfl⟩
      · rw [hResampler] at hNone
        cases hNone
      · rw [hResampler] at hSome
        cases hSome
        obtain ⟨hParked', hShort', hMade⟩ :=
          hParked.of_process hFeeding.channels_pos
            (M.chunk_pos _ _ _) hShort hFeeding.whole
            hPcm hStep
        obtain ⟨after, rfl, hTaken'⟩ := hAfter hEncoder
        refine
          { config_eq := hFeeding.config_eq
            decoder_new := hFeeding.decoder_new
            format := hFeeding.format
            channels_pos := hFeeding.channels_pos
            whole := hWhole
            route :=
              ⟨after, rfl,
                .resampled hRate hParked' hShort' ?_⟩ }
        rw [hTaken', hTaken, hMade]

/- An encoder that is drained has taken nothing more. -/
theorem drained
    (hFeeding : Feeding M config codec p run) :
    ∃ encoder,
      p.drainOld.2.stage =
          [{ sampleRate := some run.sampleRate
             channels := some run.channels
             encoder := encoder
             resampler := p.resampler }] ∧
        Route M config run encoder p.resampler := by
  obtain ⟨encoder, hEncoder, hRoute⟩ := hFeeding.route
  obtain ⟨hRate, hChannels⟩ := hFeeding.format
  rcases hFlush : E.flush encoder with ⟨result, after⟩
  refine ⟨after, ?_, ?_⟩
  · unfold TranscodePipeline.drainOld
    simp only [hEncoder, hFlush]
    cases result <;>
      simp [TranscodePipeline.stage, hRate, hChannels]
  · have hSame := M.flush hFlush
    generalize p.resampler = resampler at hRoute ⊢
    cases hRoute with
    | direct hPlain hTaken =>
        exact .direct hPlain (hSame.trans hTaken)
    | resampled hOther hParked hShort hTaken =>
        exact
          .resampled hOther hParked hShort
            (hSame.trans hTaken)

/-
  When its encoder is replaced, a run is consumed exactly if
  the resampler holds nothing of it back.
-/
theorem consumed_iff
    (hFeeding : Feeding M config codec p run) :
    ∃ stage,
      p.drainOld.2.stage = [stage] ∧
        (Consumed M stage run ↔
          WholeChunks M config run) := by
  obtain ⟨encoder, hStage, hRoute⟩ := hFeeding.drained
  refine ⟨_, hStage, ?_⟩
  generalize hResampler : p.resampler = resampler at hRoute
  cases hRoute with
  | direct hRate hTaken =>
      refine iff_of_true ?_ (.inl hRate)
      exact
        { rate := rfl
          channels := rfl
          direct := fun _ => hTaken
          resampled := fun r hSome => by cases hSome }
  | @resampled r hRate hParked hShort hTaken =>
      obtain ⟨count, hCount⟩ := hFeeding.whole
      have hFrames : run.frames = count := by
        unfold Pcm.frames
        rw [hCount,
          Nat.mul_div_cancel_left _ hFeeding.channels_pos]
      have hAll :
          M.frames r.inner =
              columns run.channels run.samples ↔
            WholeChunks M config run := by
        rw [hParked.frames_eq_iff hFeeding.channels_pos
            hCount,
          hParked.held_eq_zero_iff hFeeding.channels_pos
            hShort hCount, ← hFrames]
        exact ⟨.inr, fun hChunks => hChunks.resolve_left hRate⟩
      rw [← hAll]
      constructor
      · intro hConsumed
        exact (hConsumed.resampled r rfl).1
      · intro hSame
        exact
          { rate := rfl
            channels := rfl
            direct := fun hNone => by cases hNone
            resampled := fun other hOther => by
              cases hOther
              exact ⟨hSame, hTaken⟩ }

end Feeding

end Transcode

end RustyIce

------------------------------------------------------------
-- The End Of The Stream
------------------------------------------------------------

namespace RustyIce

namespace Transcode

variable {Sample : Type}
variable {lib : Symphonia Sample}
variable {E : Engines Sample}
variable {M : Meter E}
variable {config : TranscodeConfig}
variable {codec : CodecId}
variable {p next final : TranscodePipeline lib E}
variable {run : Pcm Sample}

/-
  An encoder and its resampler at the end: nothing of the run
  is left to consume.
-/
structure Finished
    (M : Meter E)
    (run : Pcm Sample)
    (encoder : E.Encoder)
    (resampler : Option (PcmResampler E)) : Prop where
  direct :
    resampler = none → M.taken encoder = run.samples
  resampled :
    ∀ r,
      resampler = some r →
        M.frames r.inner =
            Library.columns run.channels run.samples ∧
          M.taken encoder = M.made r.inner

/- The resampler gives up what it holds. -/
theorem finished_of_flushResampler
    {encoder : E.Encoder}
    (hRoute : Route M config run encoder p.resampler)
    (hPos : 0 < run.channels)
    (hWhole : run.channels ∣ run.samples.length)
    (hEncoder : p.encoder = some encoder)
    {out : Bytes}
    (hFlush : p.flushResampler = (.ok out, next)) :
    ∃ after resampler,
      next =
          { p with
            encoder := some after
            resampler := resampler } ∧
        Finished M run after resampler := by
  obtain ⟨count, hCount⟩ := hWhole
  have hSteps := TranscodePipeline.flushResampler_ok hFlush
  generalize hResampler : p.resampler = resampler at hRoute
  rw [hResampler] at hSteps
  cases hRoute with
  | direct hRate hTaken =>
      rcases hSteps with
        ⟨_, _, rfl⟩ | ⟨r, r', tail, hSome, _⟩
      · refine ⟨encoder, none, ?_, ?_⟩
        · rw [← hEncoder, ← hResampler]
        · exact
            { direct := fun _ => hTaken
              resampled := fun r hNone => by cases hNone }
      · cases hSome
  | @resampled r hRate hParked hShort hTaken =>
      rcases hSteps with
        ⟨hNone, _⟩ | ⟨s, r', tail, hSome, hTail, hGiven⟩
      · cases hNone
      · cases hSome
        obtain ⟨hFrames, hMade⟩ :=
          hParked.of_flush hPos hCount hTail
        have hFinished :
            ∀ after,
              M.taken after = M.taken encoder ++ tail →
                Finished M run after (some r') := by
          intro after hAfter
          exact
            { direct := fun hNone => by cases hNone
              resampled := fun other hOther => by
                cases hOther
                refine ⟨hFrames, ?_⟩
                rw [hAfter, hTaken, hMade] }
        rcases hGiven with ⟨hNone, _, rfl⟩ | hEncode
        · refine ⟨encoder, some r', ?_, hFinished _ ?_⟩
          · rw [← hEncoder]
          · rw [hNone, List.append_nil]
        · obtain ⟨after, hNext, hAfter⟩ :=
            taken_of_encode (M := M)
              (p := { p with resampler := some r' })
              hEncoder hEncode
          exact ⟨after, some r', hNext, hFinished _ hAfter⟩

/- The encoder is finalised after its resampler. -/
theorem finished_of_flushEncoder
    {encoder : E.Encoder}
    (hRoute : Route M config run encoder p.resampler)
    (hPos : 0 < run.channels)
    (hWhole : run.channels ∣ run.samples.length)
    (hEncoder : p.encoder = some encoder)
    {out : Bytes}
    (hFlush : p.flushEncoder = (.ok out, next)) :
    ∃ after resampler,
      next =
          { p with
            encoder := some after
            resampler := resampler } ∧
        Finished M run after resampler := by
  rcases TranscodePipeline.flushEncoder_ok hFlush with
    ⟨hNone, _⟩ | ⟨_, combined, q, hResampler, hEnd⟩
  · rw [hEncoder] at hNone
    cases hNone
  · obtain ⟨after, resampler, rfl, hFinished⟩ :=
      finished_of_flushResampler hRoute hPos hWhole hEncoder
        hResampler
    rcases hEnd with
      ⟨hNone, _⟩ | ⟨_, flushed, last, hSome, hStep, _, rfl⟩
    · cases hNone
    · cases hSome
      refine ⟨last, resampler, rfl, ?_⟩
      exact
        { direct := fun hNone =>
            (M.flush hStep).trans (hFinished.direct hNone)
          resampled := fun r hSome =>
            ⟨(hFinished.resampled r hSome).1,
              (M.flush hStep).trans
                (hFinished.resampled r hSome).2⟩ }

/- At the end of the stream its run is consumed. -/
theorem Feeding.flush
    (hFeeding : Feeding M config codec p run)
    {out : Bytes}
    (hFlush : p.flush = (.ok out, final)) :
    final.replaced = p.replaced ∧
      ∃ stage,
        final.stage = [stage] ∧ Consumed M stage run := by
  obtain ⟨encoder, hEncoder, hRoute⟩ := hFeeding.route
  obtain ⟨combined, q, flushed, hDecoder, hEnd, _⟩ :=
    TranscodePipeline.flush_ok hFlush
  rw [TranscodePipeline.flushDecoder_of_new
    hFeeding.decoder_new] at hDecoder
  cases hDecoder
  obtain ⟨after, resampler, rfl, hFinished⟩ :=
    finished_of_flushEncoder
      (p :=
        { p with
          decoder := (StreamDecoder.new codec).flushEof.2 })
      hRoute hFeeding.channels_pos hFeeding.whole
      hEncoder hEnd
  refine ⟨rfl, _, rfl, ?_⟩
  exact
    { rate := hFeeding.format.1
      channels := hFeeding.format.2
      direct := hFinished.direct
      resampled := hFinished.resampled }

end Transcode

end RustyIce

------------------------------------------------------------
-- Whole Streams
------------------------------------------------------------

namespace RustyIce

namespace Transcode

open Library

variable {Sample : Type}
variable {lib : Symphonia Sample}
variable {E : Engines Sample}
variable {M : Meter E}
variable {config : TranscodeConfig}
variable {codec : CodecId}
variable {comments : List (String × String)}
variable {p next last final : TranscodePipeline lib E}
variable {run : Pcm Sample}
variable {call : PcmCall Sample}
variable {calls : List (PcmCall Sample)}

theorem runsFrom_ne_nil
    (run : Pcm Sample)
    (calls : List (PcmCall Sample)) :
    runsFrom run calls ≠ [] := by
  induction calls generalizing run with
  | nil => exact List.cons_ne_nil _ _
  | cons call calls ih =>
      rw [runsFrom]
      split
      · exact ih run
      · split
        · exact ih _
        · exact List.cons_ne_nil _ _

/- A call without frames changes nothing. -/
theorem pushPcm_of_empty
    (hEmpty : call.pcm.samples = []) :
    p.pushPcm call.pcm = (.ok [], p) := by
  unfold TranscodePipeline.pushPcm
  rw [if_pos (.inl hEmpty)]

theorem pushPcm_of_nonempty
    (hSome : call.pcm.samples ≠ []) :
    p.pushPcm call.pcm =
      p.processPcm call.pcm.samples call.pcm.sampleRate
        call.pcm.channels := by
  have hRate := call.rate_pos
  have hChannels := call.channels_pos
  unfold TranscodePipeline.pushPcm
  rw [if_neg]
  rintro (hNone | hNone | hNone)
  · exact hSome hNone
  · omega
  · omega

/- Samples that are fed replace nothing. -/
theorem TranscodePipeline.replaced_of_feed
    {pcm : List Sample}
    {out : Bytes}
    (hFeed : p.feed pcm = (.ok out, next)) :
    next.replaced = p.replaced := by
  obtain ⟨given, q, hResample, hGiven⟩ := feed_ok hFeed
  have hSame : q.replaced = p.replaced := by
    rw [resample_eq hResample]
  rcases hGiven with ⟨_, _, rfl⟩ | ⟨_, hEncode⟩
  · exact hSame
  · obtain ⟨_, after, _, _, rfl⟩ := encode_ok hEncode
    exact hSame

/- A call in the format of the run. -/
theorem Feeding.pushPcm_same
    (hFeeding : Feeding M config codec p run)
    (hSome : call.pcm.samples ≠ [])
    (hSame : run.SameFormat call.pcm)
    {out : Bytes}
    (hPush : p.pushPcm call.pcm = (.ok out, next)) :
    Feeding M config codec next
        (run.append call.pcm.samples) ∧
      next.replaced = p.replaced := by
  obtain ⟨hRate, hChannels⟩ := hSame
  rw [pushPcm_of_nonempty hSome, ← hRate, ← hChannels]
    at hPush
  obtain ⟨before, q, encoded, hStart, hFeed, _⟩ :=
    TranscodePipeline.processPcm_ok hPush
  rcases hStart with ⟨_, _, rfl⟩ | ⟨hOther, _⟩
  · refine
      ⟨hFeeding.feed ?_ hFeed,
        TranscodePipeline.replaced_of_feed hFeed⟩
    rw [hChannels]
    exact call.whole
  · exact absurd hFeeding.format hOther

/- A call in another format than the pipeline is set to. -/
theorem feeding_of_pushPcm
    (hConfig : p.config = config)
    (hNew : p.decoder = .new codec)
    (hSome : call.pcm.samples ≠ [])
    (hOther :
      ¬ p.HasFormat call.pcm.sampleRate call.pcm.channels)
    {out : Bytes}
    (hPush : p.pushPcm call.pcm = (.ok out, next)) :
    Feeding M config codec next call.pcm ∧
      next.replaced =
        p.replaced ++ p.drainOld.2.stage := by
  rw [pushPcm_of_nonempty hSome] at hPush
  obtain ⟨before, q, encoded, hStart, hFeed, _⟩ :=
    TranscodePipeline.processPcm_ok hPush
  rcases hStart with ⟨hFormat, _⟩ | ⟨_, hRebuild⟩
  · exact absurd hFormat hOther
  · refine
      ⟨(feeding_of_rebuild hConfig hNew call.channels_pos
          hRebuild).feed call.whole hFeed, ?_⟩
    rw [TranscodePipeline.replaced_of_feed hFeed]
    obtain ⟨_, _, _, _, rfl⟩ :=
      TranscodePipeline.rebuild_ok hRebuild
    rfl

/-
  From the middle of a run to the end of the stream: what is
  consumed are all runs exactly if the resamplers that are
  replaced hold nothing back.
-/
theorem Feeding.consumed_iff_of_pushAll
    (hFeeding : Feeding M config codec p run)
    (hPush : p.pushAll calls = some last)
    {out : Bytes}
    (hFlush : last.flush = (.ok out, final)) :
    ∃ stages,
      final.replaced ++ final.stage =
          p.replaced ++ stages ∧
        (List.Forall₂ (Consumed M) stages
            (runsFrom run calls) ↔
          ∀ r ∈ (runsFrom run calls).dropLast,
            WholeChunks M config r) := by
  induction calls generalizing p run with
  | nil =>
      cases hPush
      obtain ⟨hSame, stage, hStage, hConsumed⟩ :=
        hFeeding.flush hFlush
      refine ⟨[stage], by rw [hSame, hStage], ?_⟩
      simpa [runsFrom] using hConsumed
  | cons call calls ih =>
      rcases TranscodePipeline.pushAll_cons_ok hPush with
        ⟨encoded, next, hCall, hLater⟩
      rw [runsFrom]
      split
      · rename_i hEmpty
        rw [pushPcm_of_empty hEmpty] at hCall
        cases hCall
        exact ih hFeeding hLater
      · rename_i hSome
        split
        · rename_i hSame
          obtain ⟨hNext, hKept⟩ :=
            hFeeding.pushPcm_same hSome hSame hCall
          rw [← hKept]
          exact ih hNext hLater
        · rename_i hOther
          have hFormat :
              ¬ p.HasFormat call.pcm.sampleRate
                  call.pcm.channels := by
            rintro ⟨hRate, hChannels⟩
            exact
              hOther
                ⟨Option.some.inj
                    (hFeeding.format.1.symm.trans hRate),
                  Option.some.inj
                    (hFeeding.format.2.symm.trans
                      hChannels)⟩
          obtain ⟨hNext, hReplaced⟩ :=
            feeding_of_pushPcm (M := M)
              hFeeding.config_eq hFeeding.decoder_new
              hSome hFormat hCall
          obtain ⟨stage, hStage, hConsumed⟩ :=
            hFeeding.consumed_iff
          obtain ⟨stages, hStages, hRest⟩ := ih hNext hLater
          refine ⟨stage :: stages, ?_, ?_⟩
          · rw [hStages, hReplaced, hStage,
              List.append_assoc]
            rfl
          · rw [List.forall₂_cons, hConsumed, hRest,
              List.dropLast_cons_of_ne_nil
                (runsFrom_ne_nil _ _),
              List.forall_mem_cons]

/- A whole stream, from a new pipeline. -/
theorem consumed_iff_of_new
    (hPush :
      (TranscodePipeline.new config codec comments).pushAll
          calls =
        some last)
    {out : Bytes}
    (hFlush : last.flush = (.ok out, final)) :
    List.Forall₂ (Consumed M)
        (final.replaced ++ final.stage)
        (formatRuns calls) ↔
      ∀ run ∈ (formatRuns calls).dropLast,
        WholeChunks M config run := by
  induction calls with
  | nil =>
      cases hPush
      cases hFlush
      exact iff_of_true .nil fun run hMem => by cases hMem
  | cons call calls ih =>
      rcases TranscodePipeline.pushAll_cons_ok hPush with
        ⟨encoded, next, hCall, hLater⟩
      rw [formatRuns]
      by_cases hEmpty : call.pcm.samples = []
      · rw [pushPcm_of_empty hEmpty] at hCall
        cases hCall
        rw [if_pos hEmpty]
        exact ih hLater
      · obtain ⟨hStart, hReplaced⟩ :=
          feeding_of_pushPcm (M := M)
            (p := .new config codec comments) rfl rfl hEmpty
            (fun hFormat => by cases hFormat.1) hCall
        obtain ⟨stages, hStages, hAll⟩ :=
          hStart.consumed_iff_of_pushAll hLater hFlush
        have hNone : next.replaced = [] := hReplaced
        rw [hNone, List.nil_append] at hStages
        rw [if_neg hEmpty, hStages]
        exact hAll

/-
  Every frame given to a new pipeline is consumed by the
  encoder for its format, by the time the encoder is replaced
  or the stream has ended, exactly if every run of one format
  but the last needs no resampler, or is a whole number of
  its chunks.
-/
theorem framesConsumed_iff
    (lib : Symphonia Sample)
    (M : Meter E)
    (config : TranscodeConfig)
    (codec : CodecId)
    (comments : List (String × String))
    (calls : List (PcmCall Sample))
    (stages : List (Stage E))
    (hStages :
      (TranscodePipeline.new config codec comments :
            TranscodePipeline lib E).stages
          calls =
        some stages) :
    FramesConsumed M stages calls ↔
      ∀ run ∈ (formatRuns calls).dropLast,
        WholeChunks M config run := by
  unfold TranscodePipeline.stages at hStages
  split at hStages
  · cases hStages
  · rename_i last hPush
    split at hStages
    · cases hStages
    · rename_i out final hFlush
      cases hStages
      exact consumed_iff_of_new hPush hFlush

/- A decoder that is never asked. -/
def idle : Symphonia Nat where
  Inner := Unit
  probe := fun _ buf => (.error "no data", buf.taken)
  drainPackets := fun inner buf => (.none, inner, buf.taken)

/-
  The least number of frames of 1024 or more that two rates
  share a period in.
-/
def fftChunk (fromRate toRate : Nat) : Nat :=
  let period := fromRate / Nat.gcd fromRate toRate
  max 1 (period * ((1023 + period) / period))

/-
  Engines that record what they are given: an encoder writes
  a byte for each sample, and a core passes its frames on.
-/
def recorder : Engines Nat where
  Encoder := List Nat
  build := fun _ _ _ => .ok []
  encode := fun encoder pcm =>
    (.ok (pcm.map UInt8.ofNat), encoder ++ pcm)
  flush := fun encoder => (.ok [0], encoder)
  Core := List (List Nat) × List Nat × Nat
  newCore := fun fromRate toRate channels =>
    .ok
      (List.replicate channels [], [],
        fftChunk fromRate toRate)
  inputFramesNext := fun core => core.2.2
  process := fun core cols =>
    (.ok cols,
      (appendColumns core.1 cols,
        core.2.1 ++ interleave cols, core.2.2))
  processPartial := fun core cols? =>
    match cols? with
    | none => (.ok [], core)
    | some cols =>
        (.ok cols,
          (appendColumns core.1 cols,
            core.2.1 ++ interleave cols, core.2.2))

def recorded : Meter recorder where
  taken := fun encoder => encoder
  frames := fun core => core.1
  made := fun core => core.2.1
  chunk := fun fromRate toRate _ => fftChunk fromRate toRate
  build := by
    intro config channels comments encoder hBuild
    cases hBuild
    rfl
  encode := by
    intro encoder pcm out next hEncode
    cases hEncode
    rfl
  flush := by
    intro encoder result next hFlush
    cases hFlush
    rfl
  newCore := by
    intro fromRate toRate channels core hCore
    cases hCore
    exact ⟨rfl, rfl, rfl⟩
  process := by
    intro core cols out next hProcess
    cases hProcess
    exact ⟨rfl, rfl, rfl⟩
  processLast := by
    intro core cols out next hProcess
    cases hProcess
    exact ⟨rfl, rfl⟩
  drain := by
    intro core out next hDrain
    cases hDrain
    exact ⟨rfl, (List.append_nil _).symm⟩
  chunk_pos := fun fromRate toRate _ => Nat.le_max_left _ _

def at48000 : TranscodeConfig where
  format := .mp3
  sampleRate := 48000
  bitrateKbps := 128

/- One frame of one channel. -/
def oneFrame
    (sampleRate : Nat)
    (hRate : 0 < sampleRate) : PcmCall Nat where
  pcm :=
    { samples := [7]
      sampleRate := sampleRate
      channels := 1 }
  rate_pos := hRate
  channels_pos := Nat.one_pos
  whole := Nat.one_dvd _

/-
  A frame that waits for its chunk when the format changes
  is dropped with its resampler.
-/
theorem heldFrame_dropped :
    ∃ stages,
      (TranscodePipeline.new at48000 .MP3 [] :
            TranscodePipeline idle recorder).stages
          [oneFrame 44100 (by decide),
            oneFrame 48000 (by decide)] =
        some stages ∧
        ¬ FramesConsumed recorded stages
          [oneFrame 44100 (by decide),
            oneFrame 48000 (by decide)] := by
  refine ⟨_, rfl, ?_⟩
  intro hConsumed
  cases hConsumed with
  | cons hFirst hRest =>
      have hFrames := (hFirst.resampled _ rfl).1
      exact absurd hFrames (by decide)

/- At the end of the stream it is not. -/
theorem framesConsumed_oneFrame :
    ∃ stages,
      (TranscodePipeline.new at48000 .MP3 [] :
            TranscodePipeline idle recorder).stages
          [oneFrame 48000 (by decide),
            oneFrame 44100 (by decide)] =
        some stages ∧
        FramesConsumed recorded stages
          [oneFrame 48000 (by decide),
            oneFrame 44100 (by decide)] := by
  refine ⟨_, rfl, ?_⟩
  apply
    (framesConsumed_iff idle recorded at48000 .MP3 [] _ _
      rfl).mpr
  intro run hMem
  rcases List.mem_singleton.mp hMem with rfl
  exact .inl rfl

end Transcode

end RustyIce
