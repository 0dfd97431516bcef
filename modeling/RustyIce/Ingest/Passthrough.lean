import RustyIce.Ingest.Icecast
import RustyIce.Output.HttpPassthrough
import Mathlib.Data.List.TakeWhile
import Mathlib.Tactic.Ring

/-
  Which bytes an ingest without a transcode publishes, for
  any way the source's bytes arrive in.

  Main declarations:
    * `passthroughAudio` and `PassesThrough`
    * `fill_spec`, `skip_spec` and `drainReader_mp3`
    * `passesThrough_iff`
-/

------------------------------------------------------------
-- What Should Be Published
------------------------------------------------------------

namespace RustyIce

namespace Ingest

/-
  A leading tag has ten bytes and as many more as four digits
  of base 128 say.
-/
def id3Length (source : Bytes) : Nat :=
  if source.take 3 = ID3 then
    let digit (i : Nat) : Nat :=
      (source.getD i 0).toNat % 128
    10 +
      (digit 6 * 128 ^ 3 + digit 7 * 128 ^ 2 +
        digit 8 * 128 + digit 9)
  else 0

/- What follows the tag: nothing, if it is cut off. -/
def afterId3 (source : Bytes) : Bytes :=
  source.drop (id3Length source)

/- The audio without a tagged frame that it begins with. -/
def mp3Audio (source : Bytes) : Bytes :=
  match leadingTagFrame (afterId3 source) with
  | some length => (afterId3 source).drop length
  | none => afterId3 source

/- The bytes a source of this codec should appear as. -/
def passthroughAudio
    (codec : CodecId)
    (source : Bytes) : Bytes :=
  if codec = .MP3 ∧ 10 ≤ source.length then mp3Audio source
  else source

/-
  A run that returned its stats and published this audio, in
  packets numbered from zero.
-/
structure Published
    (codec : CodecId)
    (audio : Bytes)
    (out : IngestOutcome) : Prop where
  audio_eq : out.bus.flatMap Output.packetAudio = audio
  encoded :
    ∀ packet ∈ out.bus,
      ∃ data,
        packet.payload =
          .encoded { codec := codec, data := data }
  numbered :
    out.bus.map (·.sequence) = List.range out.bus.length
  stats_eq :
    out.stats =
      some
        { bytesReceived := audio.length
          packetsPublished := out.bus.length }

/-
  The source appears as one string of bytes, the same for
  all buffer sizes and all fragments: its own bytes, or those
  behind the prefix of an MP3 stream.
-/
def PassesThrough
    (maxRateBps : Option Nat)
    (sink : Bool)
    (codec : CodecId)
    (source : Bytes) : Prop :=
  ∃ audio,
    (codec ≠ .MP3 → audio = source) ∧
      (codec = .MP3 → 10 ≤ source.length →
        audio = mp3Audio source) ∧
        ∀ chunkSize fragments,
          1 ≤ chunkSize →
            (∀ data ∈ fragments, data ≠ []) →
              fragments.flatten = source →
                Published codec audio
                  (IcecastIngest.run
                    { chunkSize := chunkSize
                      maxRateBps := maxRateBps
                      headerCaptureSink := sink }
                    codec fragments)

end Ingest

end RustyIce

------------------------------------------------------------
-- Reads
------------------------------------------------------------

namespace RustyIce

namespace Ingest

theorem fragmentReads_spec
    {chunkSize fuel : Nat}
    {data : Bytes}
    (hSize : 1 ≤ chunkSize)
    (hFuel : data.length ≤ fuel) :
    (fragmentReads chunkSize fuel data).flatten = data ∧
      ∀ part ∈ fragmentReads chunkSize fuel data,
        part ≠ [] := by
  induction fuel generalizing data with
  | zero =>
      have hEmpty : data = [] :=
        List.eq_nil_of_length_eq_zero (by omega)
      rw [hEmpty]
      exact ⟨rfl, fun part hPart => by cases hPart⟩
  | succ fuel ih =>
      rw [fragmentReads]
      by_cases hEmpty : data = []
      · rw [if_pos hEmpty, hEmpty]
        exact ⟨rfl, fun part hPart => by cases hPart⟩
      · have hPos := List.length_pos_of_ne_nil hEmpty
        have hShorter :
            (data.drop chunkSize).length ≤ fuel := by
          rw [List.length_drop]
          omega
        obtain ⟨hRest, hParts⟩ := ih hShorter
        rw [if_neg hEmpty, List.flatten_cons, hRest,
          List.take_append_drop]
        refine ⟨rfl, ?_⟩
        intro part hPart
        rcases List.mem_cons.mp hPart with rfl | hLater
        · intro hNil
          have hLength := congrArg List.length hNil
          rw [List.length_take, List.length_nil] at hLength
          omega
        · exact hParts part hLater

/- Reading loses nothing, and no read but the last is empty. -/
theorem reads_spec
    {chunkSize : Nat}
    (fragments : List Bytes)
    (hSize : 1 ≤ chunkSize) :
    (reads chunkSize fragments).flatten = fragments.flatten ∧
      ∀ part ∈ reads chunkSize fragments, part ≠ [] := by
  have hAll :
      reads chunkSize fragments =
        fragments.flatMap fun data =>
          fragmentReads chunkSize data.length data := by
    rw [reads, List.takeWhile_eq_self_iff]
    intro part hPart
    obtain ⟨data, -, hData⟩ := List.mem_flatMap.mp hPart
    exact decide_eq_true
      ((fragmentReads_spec hSize (Nat.le_refl _)).2 part hData)
  rw [hAll]
  constructor
  · clear hAll
    induction fragments with
    | nil => rfl
    | cons data rest ih =>
        rw [List.flatMap_cons, List.flatten_append,
          (fragmentReads_spec hSize (Nat.le_refl _)).1, ih,
          List.flatten_cons]
  · intro part hPart
    obtain ⟨data, -, hData⟩ := List.mem_flatMap.mp hPart
    exact
      (fragmentReads_spec hSize (Nat.le_refl _)).2 part hData

/- A fragment that fits the buffer is one read. -/
theorem reads_of_fit
    {chunkSize : Nat}
    {fragments : List Bytes}
    (hFit :
      ∀ data ∈ fragments,
        data ≠ [] ∧ data.length ≤ chunkSize) :
    reads chunkSize fragments = fragments := by
  have hOne :
      ∀ data ∈ fragments,
        fragmentReads chunkSize data.length data = [data] := by
    intro data hData
    obtain ⟨hSome, hLength⟩ := hFit data hData
    have hPos := List.length_pos_of_ne_nil hSome
    obtain ⟨fuel, hFuel⟩ :=
      Nat.exists_eq_succ_of_ne_zero (by omega :
        data.length ≠ 0)
    rw [hFuel, fragmentReads, if_neg hSome,
      List.take_of_length_le hLength,
      List.drop_of_length_le hLength]
    cases fuel <;> rfl
  have hAll :
      (fragments.flatMap fun data =>
        fragmentReads chunkSize data.length data) =
        fragments := by
    clear hFit
    induction fragments with
    | nil => rfl
    | cons data rest ih =>
        rw [List.flatMap_cons, hOne data List.mem_cons_self,
          ih fun part hPart =>
            hOne part (List.mem_cons_of_mem _ hPart)]
        rfl
  rw [reads, hAll, List.takeWhile_eq_self_iff]
  exact fun data hData => decide_eq_true (hFit data hData).1

end Ingest

end RustyIce

------------------------------------------------------------
-- The Prefix Stripper
------------------------------------------------------------

namespace RustyIce

namespace Ingest

/- Filling stops at the bound or holds all there is. -/
theorem fill_spec
    (bound : Nat)
    (pending : Bytes)
    (reads : List Bytes) :
    ((pending ++ reads.flatten).length < bound ∧
        fill bound pending reads =
          (pending ++ reads.flatten, none)) ∨
      ∃ got left,
        fill bound pending reads = (got, some left) ∧
          got ++ left.flatten = pending ++ reads.flatten ∧
            bound ≤ got.length ∧ left <:+ reads := by
  induction reads generalizing pending with
  | nil =>
      rw [fill]
      split_ifs with hShort
      · left
        rw [List.flatten_nil, List.append_nil]
        exact ⟨hShort, rfl⟩
      · right
        exact ⟨pending, [], rfl, rfl, by omega,
          List.suffix_refl _⟩
  | cons data rest ih =>
      rw [fill]
      split_ifs with hShort
      · have hSplit :
            pending ++ (data :: rest).flatten =
              (pending ++ data) ++ rest.flatten := by
          rw [List.flatten_cons, List.append_assoc]
        rw [hSplit]
        rcases ih (pending ++ data) with
          hEnded | ⟨got, left, hFill, hAll, hBound, hLeft⟩
        · exact Or.inl hEnded
        · exact Or.inr ⟨got, left, hFill, hAll, hBound,
            hLeft.trans (List.suffix_cons _ _)⟩
      · right
        exact ⟨pending, data :: rest, rfl, rfl, by omega,
          List.suffix_refl _⟩

theorem skip_spec
    (toSkip : Nat)
    (reads : List Bytes) :
    (reads.flatten.length < toSkip ∧
        skip toSkip reads = none) ∨
      ∃ pending left,
        skip toSkip reads = some (pending, left) ∧
          pending ++ left.flatten =
              reads.flatten.drop toSkip ∧
            left <:+ reads := by
  induction reads generalizing toSkip with
  | nil =>
      rw [skip]
      split_ifs with hZero
      · right
        exact ⟨[], [], rfl, by rw [hZero]; rfl,
          List.suffix_refl _⟩
      · left
        exact ⟨Nat.pos_of_ne_zero hZero, rfl⟩
  | cons data rest ih =>
      rw [skip]
      split_ifs with hZero hInside
      · right
        exact ⟨[], data :: rest, rfl, by rw [hZero]; rfl,
          List.suffix_refl _⟩
      · have hDrop :
            (data :: rest).flatten.drop toSkip =
              rest.flatten.drop (toSkip - data.length) := by
          rw [List.flatten_cons, List.drop_append,
            List.drop_of_length_le hInside, List.nil_append]
        rw [hDrop, List.flatten_cons, List.length_append]
        rcases ih (toSkip - data.length) with
          ⟨hEnded, hNone⟩ |
          ⟨pending, left, hSkip, hAll, hLeft⟩
        · left
          exact ⟨by omega, hNone⟩
        · right
          exact ⟨pending, left, hSkip, hAll,
            hLeft.trans (List.suffix_cons _ _)⟩
      · right
        refine ⟨data.drop toSkip, rest, rfl, ?_,
          List.suffix_cons _ _⟩
        rw [List.flatten_cons,
          List.drop_append_of_le_length (by omega)]

/- The masks and shifts read four digits of base 128. -/
theorem syncsafe_eq
    (a b c d : Nat) :
    ((a &&& 0x7F) <<< 21 ||| (b &&& 0x7F) <<< 14 |||
        (c &&& 0x7F) <<< 7 ||| (d &&& 0x7F)) =
      a % 128 * 128 ^ 3 + b % 128 * 128 ^ 2 +
        c % 128 * 128 + d % 128 := by
  have hLow : ∀ n : Nat, n &&& 0x7F = n % 128 :=
    fun n => Nat.and_two_pow_sub_one_eq_mod n 7
  have hC : (c % 128) <<< 7 + d % 128 < 2 ^ 14 := by
    rw [Nat.shiftLeft_eq]
    omega
  have hB :
      (b % 128) <<< 14 + ((c % 128) <<< 7 + d % 128) <
        2 ^ 21 := by
    rw [Nat.shiftLeft_eq, Nat.shiftLeft_eq]
    omega
  rw [hLow, hLow, hLow, hLow, Nat.or_assoc, Nat.or_assoc,
    ← Nat.shiftLeft_add_eq_or_of_lt
      (show d % 128 < 2 ^ 7 by omega),
    ← Nat.shiftLeft_add_eq_or_of_lt hC,
    ← Nat.shiftLeft_add_eq_or_of_lt hB,
    Nat.shiftLeft_eq, Nat.shiftLeft_eq, Nat.shiftLeft_eq]
  ring

/- Ten bytes tell the length of the tag. -/
theorem parseId3v2Total_eq
    {head : Bytes}
    (more : Bytes)
    (hHead : 10 ≤ head.length) :
    parseId3v2Total head = id3Length (head ++ more) := by
  have hByte :
      ∀ i < 10, (head ++ more).getD i 0 = head.getD i 0 :=
    fun i hLess => List.getD_append head more 0 i (by omega)
  rw [parseId3v2Total, id3Length,
    List.take_append_of_le_length (by omega)]
  by_cases hId3 : head.take 3 = ID3
  · have hTag :
        ¬(head.length < 10 ∨ head.take 3 ≠ ID3) := by
      rintro (hShort | hOther)
      · omega
      · exact hOther hId3
    rw [if_pos hId3, if_neg hTag]
    simp only [syncsafe_eq, hByte 6 (by omega),
      hByte 7 (by omega), hByte 8 (by omega),
      hByte 9 (by omega)]
  · rw [if_neg hId3, if_pos (Or.inr hId3)]

end Ingest

end RustyIce

------------------------------------------------------------
-- What The Reader Sends
------------------------------------------------------------

namespace RustyIce

namespace Ingest

@[simp] theorem flushRemaining_flatten (data : Bytes) :
    (flushRemaining data).flatten = data := by
  rw [flushRemaining]
  split_ifs with hEmpty
  · rw [hEmpty, List.flatten_nil]
  · simp

/-
  What the stripper looks at is the audio behind the tag, or
  at least 2048 bytes of it.
-/
theorem stripMp3Prefix_spec
    {reads : List Bytes}
    (hLong : 10 ≤ reads.flatten.length) :
    ∃ pending left,
      stripMp3Prefix reads =
          (flushRemaining (stripXingInPlace pending), left) ∧
        pending ++ left.flatten = afterId3 reads.flatten ∧
          (left = [] ∨ 2048 ≤ pending.length) ∧
            left <:+ reads := by
  rcases fill_spec 10 [] reads with
    ⟨hShort, -⟩ | ⟨head, rest, hFill, hAll, hHead, hRest⟩
  · rw [List.nil_append] at hShort
    omega
  rw [List.nil_append] at hAll
  have hTotal :
      parseId3v2Total head = id3Length reads.flatten := by
    rw [parseId3v2Total_eq rest.flatten hHead, hAll]
  have hAfter :
      (reads.flatten.length < id3Length reads.flatten ∧
          (if parseId3v2Total head = 0 then
              some (head, rest)
            else if parseId3v2Total head ≤ head.length then
              some (head.drop (parseId3v2Total head), rest)
            else
              skip (parseId3v2Total head - head.length)
                rest) = none) ∨
        ∃ pending left,
          (if parseId3v2Total head = 0 then
              some (head, rest)
            else if parseId3v2Total head ≤ head.length then
              some (head.drop (parseId3v2Total head), rest)
            else
              skip (parseId3v2Total head - head.length)
                rest) = some (pending, left) ∧
            pending ++ left.flatten =
                afterId3 reads.flatten ∧
              left <:+ rest := by
    rw [afterId3, ← hTotal, ← hAll]
    split_ifs with hNone hInside
    · right
      exact ⟨head, rest, rfl, by rw [hNone, List.drop_zero],
        List.suffix_refl _⟩
    · right
      exact ⟨_, rest, rfl,
        (List.drop_append_of_le_length hInside).symm,
        List.suffix_refl _⟩
    · rw [List.drop_append, List.drop_of_length_le (by omega),
        List.nil_append, List.length_append]
      rcases skip_spec
          (parseId3v2Total head - head.length) rest with
        ⟨hEnded, hSkip⟩ | hSkipped
      · left
        exact ⟨by omega, hSkip⟩
      · exact Or.inr hSkipped
  rw [stripMp3Prefix, hFill]
  simp only
  rcases hAfter with
    ⟨hEnded, hNone⟩ | ⟨pending, left, hSome, hPending, hLeft⟩
  · rw [hNone]
    refine ⟨[], [], rfl, ?_, Or.inl rfl, List.nil_suffix⟩
    rw [afterId3, List.drop_of_length_le (by omega)]
    rfl
  · rw [hSome]
    simp only
    rcases fill_spec 2048 pending left with
      ⟨-, hFill⟩ | ⟨got, last, hFill, hGot, hBound, hLast⟩
    · rw [hFill]
      refine ⟨pending ++ left.flatten, [], rfl, ?_,
        Or.inl rfl, List.nil_suffix⟩
      rw [List.flatten_nil, List.append_nil, hPending]
    · rw [hFill]
      exact ⟨got, last, rfl, hGot.trans hPending,
        Or.inr hBound, (hLast.trans hLeft).trans hRest⟩

/- Fewer than ten bytes are sent as they came. -/
theorem drainReader_short
    {reads : List Bytes}
    (hShort : reads.flatten.length < 10) :
    (drainReader .MP3 reads).flatten = reads.flatten := by
  have hFill : fill 10 [] reads = (reads.flatten, none) := by
    rcases fill_spec 10 [] reads with
      ⟨-, hFill⟩ | ⟨head, left, -, hAll, hHead, -⟩
    · exact hFill
    · have hLength := congrArg List.length hAll
      rw [List.length_append, List.nil_append] at hLength
      omega
  rw [drainReader, if_pos rfl, stripMp3Prefix, hFill]
  simp

/-
  Where no tagged frame comes late, the audio is sent,
  whatever the reads.
-/
theorem drainReader_mp3
    {reads : List Bytes}
    (hLong : 10 ≤ reads.flatten.length)
    (hNotLate : ¬LateTagFrame (afterId3 reads.flatten)) :
    (drainReader .MP3 reads).flatten =
      mp3Audio reads.flatten := by
  obtain ⟨pending, left, hStrip, hAll, hEnough, -⟩ :=
    stripMp3Prefix_spec hLong
  have hDetect :
      detectXingFrameEnd pending =
        leadingTagFrame (afterId3 reads.flatten) := by
    rw [← hAll] at hNotLate ⊢
    refine detectXingFrameEnd_eq ?_ hNotLate
    rcases hEnough with rfl | hLook
    · exact Or.inl rfl
    · exact Or.inr (by omega)
  rw [drainReader, if_pos rfl, hStrip, List.flatten_append,
    flushRemaining_flatten, stripXingInPlace, mp3Audio,
    ← hDetect]
  rcases hStop : detectXingFrameEnd pending with _ | stop
  · exact hAll
  · simp only
    rw [← hAll, List.drop_append_of_le_length
      (detectXingFrameEnd_le hStop)]

/- A late one takes away bytes of a source read at once. -/
theorem drainReader_late
    {source : Bytes}
    (hLong : 10 ≤ source.length)
    (hLate : LateTagFrame (afterId3 source)) :
    (drainReader .MP3 [source]).flatten ≠
      mp3Audio source := by
  have hFlat : [source].flatten = source := by simp
  have hLongRead : 10 ≤ [source].flatten.length := by
    rw [hFlat]
    exact hLong
  obtain ⟨pending, left, hStrip, hAll, hEnough, hLeft⟩ :=
    stripMp3Prefix_spec hLongRead
  rw [hFlat] at hAll
  have hLeftNil : left = [] := by
    rcases hEnough with hNil | hLook
    · exact hNil
    · rcases List.suffix_cons_iff.mp hLeft with hWhole | hNil
      · have hLength := congrArg List.length hAll
        rw [hWhole, hFlat, List.length_append, afterId3,
          List.length_drop] at hLength
        omega
      · exact List.suffix_nil.mp hNil
  rw [hLeftNil, List.flatten_nil, List.append_nil] at hAll
  obtain ⟨hNone, stop, hStop, hPos⟩ :=
    detectXingFrameEnd_of_late hLate
  have hStopLe := detectXingFrameEnd_le hStop
  rw [drainReader, if_pos rfl, hStrip, hLeftNil,
    List.append_nil, flushRemaining_flatten,
    stripXingInPlace, hAll, hStop, mp3Audio, hNone]
  intro hSame
  have hLength := congrArg List.length hSame
  simp only [List.length_drop] at hLength
  omega

end Ingest

end RustyIce

------------------------------------------------------------
-- What The Publish Loop Does With It
------------------------------------------------------------

namespace RustyIce

namespace Ingest

namespace PublishLoop

/- The outcome of a loop that has published all chunks. -/
def finished
    (codec : CodecId)
    (st : PublishLoop)
    (chunks : List Bytes) : IngestOutcome :=
  let publisher :=
    chunks.foldl (Publisher.publishEncoded codec) st.publisher
  { bus := publisher.bus
    stats :=
      some
        { bytesReceived :=
            st.bytesReceived + chunks.flatten.length
          packetsPublished := publisher.sequence } }

theorem finished_cons
    (codec : CodecId)
    (st : PublishLoop)
    (data : Bytes)
    (rest : List Bytes) :
    finished codec (st.publishChunk codec data) rest =
      finished codec st (data :: rest) := by
  obtain ⟨hPublisher, hBytes⟩ := st.lockRate_frame codec data
  simp only [finished, publishChunk, hPublisher, hBytes,
    List.foldl_cons, List.flatten_cons, List.length_append,
    Nat.add_assoc]

/- A loop panics or publishes every chunk. -/
theorem publishAll_cases
    (codec : CodecId)
    (st : PublishLoop)
    (chunks : List Bytes) :
    (st.publishAll codec chunks).stats = none ∨
      st.publishAll codec chunks =
        finished codec st chunks := by
  induction chunks generalizing st with
  | nil => exact Or.inr rfl
  | cons data rest ih =>
      simp only [publishAll]
      split_ifs with hZero
      · exact Or.inl rfl
      · rw [← finished_cons]
        exact ih _

/-
  It does not panic while no rate is zero, neither the one
  that is set nor one that a chunk shows.
-/
theorem publishAll_finishes
    {codec : CodecId}
    {st : PublishLoop}
    {chunks : List Bytes}
    (hRate : st.sourceRate ≠ some 0)
    (hChunks :
      st.sourceRateLocked = true ∨
        ∀ data ∈ chunks, detectRate codec data ≠ some 0) :
    st.publishAll codec chunks = finished codec st chunks := by
  induction chunks generalizing st with
  | nil => rfl
  | cons data rest ih =>
      have hNext :
          (st.publishChunk codec data).sourceRate ≠ some 0 ∧
            ((st.publishChunk codec data).sourceRateLocked =
                true ∨
              ∀ data ∈ rest,
                detectRate codec data ≠ some 0) := by
        simp only [publishChunk, lockRate]
        split_ifs with hLocked
        · exact ⟨hRate, Or.inl hLocked⟩
        · have hShown := hChunks.resolve_left hLocked
          rcases hDetect : detectRate codec data with _ | bps
          · exact ⟨hRate, Or.inr fun part hPart =>
              hShown part (List.mem_cons_of_mem _ hPart)⟩
          · have hBps := hShown data List.mem_cons_self
            rw [hDetect] at hBps
            exact ⟨hBps, Or.inl rfl⟩
      simp only [publishAll]
      rw [if_neg hNext.1, ih hNext.1 hNext.2, finished_cons]

/- A rate of zero that is set stops it at the first chunk. -/
theorem publishAll_zero
    (codec : CodecId)
    (st : PublishLoop)
    {chunks : List Bytes}
    (hLocked : st.sourceRateLocked = true)
    (hRate : st.sourceRate = some 0)
    (hSome : chunks ≠ []) :
    (st.publishAll codec chunks).stats = none := by
  rcases chunks with _ | ⟨data, rest⟩
  · exact absurd rfl hSome
  · simp only [publishAll, publishChunk, lockRate,
      if_pos hLocked, if_pos hRate]

/- So does one that a chunk shows before any other rate. -/
theorem publishAll_shown_zero
    {codec : CodecId}
    {st : PublishLoop}
    {before : List Bytes}
    {data : Bytes}
    (hLocked : st.sourceRateLocked = false)
    (hRate : st.sourceRate = none)
    (hBefore :
      ∀ part ∈ before, detectRate codec part = none)
    (hZero : detectRate codec data = some 0) :
    (st.publishAll codec (before ++ [data])).stats =
      none := by
  induction before generalizing st with
  | nil =>
      simp [publishAll, publishChunk, lockRate, hLocked, hZero]
  | cons part rest ih =>
      have hPart := hBefore part List.mem_cons_self
      have hLock : st.lockRate codec part = st := by
        simp [lockRate, hLocked, hPart]
      rw [List.cons_append, publishAll, publishChunk, hLock]
      simp only [hRate, reduceCtorEq, if_false]
      exact ih hLocked rfl fun part hLater =>
        hBefore part (List.mem_cons_of_mem _ hLater)

end PublishLoop

/- The packets of a session that starts with none. -/
theorem foldl_publishEncoded
    (codec : CodecId)
    (st : Publisher)
    (chunks : List Bytes)
    (hOrder : st.InOrder)
    (hEncoded :
      ∀ packet ∈ st.bus,
        ∃ data,
          packet.payload =
            .encoded { codec := codec, data := data }) :
    let done := chunks.foldl (Publisher.publishEncoded codec) st
    done.InOrder ∧
      (∀ packet ∈ done.bus,
        ∃ data,
          packet.payload =
            .encoded { codec := codec, data := data }) ∧
        done.bus.flatMap Output.packetAudio =
          st.bus.flatMap Output.packetAudio ++
            chunks.flatten := by
  induction chunks generalizing st with
  | nil =>
      exact ⟨hOrder, hEncoded, by simp⟩
  | cons data rest ih =>
      have hBus := (st.captureHeaders_frame data).1
      have hEncoded :
          ∀ packet ∈ (st.publishEncoded codec data).bus,
            ∃ data,
              packet.payload =
                .encoded { codec := codec, data := data } := by
        intro packet hPacket
        rw [Publisher.publishEncoded, hBus] at hPacket
        rcases List.mem_append.mp hPacket with hOld | hNew
        · exact hEncoded packet hOld
        · rw [List.mem_singleton.mp hNew]
          exact ⟨data, rfl⟩
      obtain ⟨hDone, hAll, hAudio⟩ :=
        ih _ (hOrder.publishEncoded codec data) hEncoded
      refine ⟨hDone, hAll, ?_⟩
      rw [List.foldl_cons, hAudio, Publisher.publishEncoded,
        hBus, List.flatMap_append, List.flatten_cons,
        List.append_assoc]
      simp [Output.packetAudio]

theorem published_finished
    (ingest : IcecastIngest)
    (codec : CodecId)
    (chunks : List Bytes) :
    Published codec chunks.flatten
      ((PublishLoop.start ingest codec).finished codec
        chunks) := by
  obtain ⟨hOrder, hEncoded, hAudio⟩ :=
    foldl_publishEncoded codec
      (PublishLoop.start ingest codec).publisher
      chunks rfl (fun packet hPacket => by cases hPacket)
  have hCount := congrArg List.length hOrder
  rw [List.length_map, List.length_range] at hCount
  exact
    { audio_eq := hAudio
      encoded := hEncoded
      numbered := by
        rw [PublishLoop.finished, hCount]
        exact hOrder
      stats_eq := by
        simp only [PublishLoop.finished, PublishLoop.start,
          Nat.zero_add] at hCount ⊢
        rw [hCount] }

end Ingest

end RustyIce

------------------------------------------------------------
-- Passing Through
------------------------------------------------------------

namespace RustyIce

namespace Ingest

theorem drainReader_ne_nil
    (codec : CodecId)
    {reads : List Bytes}
    (hReads : ∀ part ∈ reads, part ≠ []) :
    ∀ part ∈ drainReader codec reads, part ≠ [] := by
  have hStripped :
      ∃ pending left,
        stripMp3Prefix reads = (flushRemaining pending, left) ∧
          left <:+ reads := by
    rcases Nat.lt_or_ge reads.flatten.length 10 with
      hShort | hLong
    · rcases fill_spec 10 [] reads with
        ⟨-, hFill⟩ | ⟨head, left, -, hAll, hHead, -⟩
      · rw [stripMp3Prefix, hFill]
        exact ⟨_, [], rfl, List.nil_suffix⟩
      · have hLength := congrArg List.length hAll
        rw [List.length_append, List.nil_append] at hLength
        omega
    · obtain ⟨pending, left, hStrip, -, -, hLeft⟩ :=
        stripMp3Prefix_spec hLong
      exact ⟨_, left, hStrip, hLeft⟩
  obtain ⟨pending, left, hStrip, hLeft⟩ := hStripped
  intro part hPart
  rw [drainReader] at hPart
  split_ifs at hPart with hMp3
  · rw [hStrip] at hPart
    rcases List.mem_append.mp hPart with hSent | hRead
    · simp only [flushRemaining] at hSent
      split_ifs at hSent with hEmpty
      · cases hSent
      · rw [List.mem_singleton.mp hSent]
        exact hEmpty
    · exact hReads part (hLeft.subset hRead)
  · exact hReads part hPart

/- What the reader sends, where no tagged frame comes late. -/
theorem drainReader_flatten
    {codec : CodecId}
    {reads : List Bytes}
    (hNotLate :
      codec = .MP3 → 10 ≤ reads.flatten.length →
        ¬LateTagFrame (afterId3 reads.flatten)) :
    (drainReader codec reads).flatten =
      passthroughAudio codec reads.flatten := by
  rw [passthroughAudio]
  by_cases hMp3 : codec = .MP3
  · subst hMp3
    by_cases hLong : 10 ≤ reads.flatten.length
    · rw [if_pos ⟨rfl, hLong⟩]
      exact drainReader_mp3 hLong (hNotLate rfl hLong)
    · rw [if_neg fun h => hLong h.2]
      exact drainReader_short (by omega)
  · rw [if_neg fun h => hMp3 h.1, drainReader, if_neg hMp3]

/- A part of the source shows no page the source lacks. -/
theorem probe_of_part
    {before part after : Bytes}
    {i : Nat}
    {info : CodecInfo}
    (hProbe : VorbisCodec.probe (part.drop i) = some info) :
    VorbisCodec.probe
        ((before ++ part ++ after).drop (before.length + i)) =
      some info := by
  have hInside : i ≤ part.length := by
    by_contra hBeyond
    rw [List.drop_of_length_le (by omega)] at hProbe
    cases hProbe
  rw [List.append_assoc, List.drop_length_add_append,
    List.drop_append_of_le_length hInside]
  exact VorbisCodec.probe_append after hProbe

/-
  No pacing rate is zero while anything is published: not the
  maximum, nor the nominal bitrate, in kbps, of a page that
  the probe takes for an identification header.
-/
def NoZeroRate
    (maxRateBps : Option Nat)
    (codec : CodecId)
    (source : Bytes) : Prop :=
  match maxRateBps with
  | some bps =>
      bps = 0 → passthroughAudio codec source = []
  | none =>
      codec = .VORBIS →
        ∀ i info,
          VorbisCodec.probe (source.drop i) = some info →
            info.bitrateKbps ≠ some 0

theorem detectRate_ne_zero
    {codec : CodecId}
    {reads : List Bytes}
    (hRate : NoZeroRate none codec reads.flatten) :
    ∀ part ∈ drainReader codec reads,
      PublishLoop.detectRate codec part ≠ some 0 := by
  intro part hPart hZero
  rw [PublishLoop.detectRate] at hZero
  split_ifs at hZero with hMp3 hVorbis
  · exact absurd (scanBitrateBps_pos hZero) (by omega)
  · obtain ⟨i, info, kbps, hProbe, hKbps, hBps⟩ :=
      probe_of_scanNominalBitrateBps hZero
    rw [drainReader, if_neg hMp3] at hPart
    obtain ⟨before, after, hSplit⟩ :=
      List.append_of_mem hPart
    have hFlat :
        reads.flatten =
          before.flatten ++ part ++ after.flatten := by
      rw [hSplit, List.flatten_append, List.flatten_cons,
        List.append_assoc]
    refine hRate hVorbis (before.flatten.length + i) info ?_ ?_
    · rw [hFlat]
      exact probe_of_part hProbe
    · rw [hKbps]
      congr 1
      omega

/- Every run publishes the audio and returns. -/
theorem published_run
    {ingest : IcecastIngest}
    {codec : CodecId}
    {fragments : List Bytes}
    (hSize : 1 ≤ ingest.chunkSize)
    (hRate :
      NoZeroRate ingest.maxRateBps codec fragments.flatten)
    (hNotLate :
      codec = .MP3 → 10 ≤ fragments.flatten.length →
        ¬LateTagFrame (afterId3 fragments.flatten)) :
    Published codec
      (passthroughAudio codec fragments.flatten)
      (ingest.run codec fragments) := by
  obtain ⟨hFlat, hReads⟩ := reads_spec fragments hSize
  rw [← hFlat] at hRate hNotLate ⊢
  have hSent := drainReader_flatten hNotLate
  have hParts := drainReader_ne_nil codec hReads
  have hFinishes :
      ingest.run codec fragments =
        (PublishLoop.start ingest codec).finished codec
          (drainReader codec
            (reads ingest.chunkSize fragments)) := by
    rw [IcecastIngest.run]
    rcases hMax : ingest.maxRateBps with _ | bps
    · rw [hMax] at hRate
      apply PublishLoop.publishAll_finishes
      · simp [PublishLoop.start, hMax]
      · exact Or.inr (detectRate_ne_zero hRate)
    · rcases Nat.eq_zero_or_pos bps with hZero | hPos
      · rw [hMax] at hRate
        rw [hRate hZero, List.flatten_eq_nil_iff] at hSent
        have hNone :
            drainReader codec
                (reads ingest.chunkSize fragments) = [] := by
          rw [List.eq_nil_iff_forall_not_mem]
          intro part hPart
          exact hParts part hPart (hSent part hPart)
        rw [hNone]
        rfl
      · apply PublishLoop.publishAll_finishes
        · rw [PublishLoop.start, hMax]
          intro hSome
          cases hSome
          omega
        · left
          rw [PublishLoop.start, hMax]
          rfl
  rw [hFinishes, ← hSent]
  exact published_finished ingest codec _

/- A source that arrives in one read. -/
theorem run_whole
    {ingest : IcecastIngest}
    {codec : CodecId}
    {source : Bytes}
    (hSome : source ≠ [])
    (hSize : ingest.chunkSize = source.length) :
    ingest.run codec [source] =
      (PublishLoop.start ingest codec).publishAll codec
        (drainReader codec [source]) := by
  rw [IcecastIngest.run, hSize, reads_of_fit]
  intro data hData
  rw [List.mem_singleton.mp hData]
  exact ⟨hSome, Nat.le_refl _⟩

/- A source that arrives byte by byte up to an offset. -/
def bytesThenRest (i : Nat) (source : Bytes) : List Bytes :=
  (source.take i).map (fun byte => [byte]) ++ [source.drop i]

theorem bytesThenRest_flatten (i : Nat) (source : Bytes) :
    (bytesThenRest i source).flatten = source := by
  have hBytes :
      ∀ bytes : Bytes,
        (bytes.map fun byte => [byte]).flatten = bytes := by
    intro bytes
    induction bytes with
    | nil => rfl
    | cons byte rest ih =>
        rw [List.map_cons, List.flatten_cons, ih]
        rfl
  rw [bytesThenRest, List.flatten_append, hBytes,
    List.flatten_cons, List.flatten_nil, List.append_nil,
    List.take_append_drop]

theorem bytesThenRest_fit
    {i : Nat}
    {source : Bytes}
    (hRest : source.drop i ≠ []) :
    ∀ data ∈ bytesThenRest i source,
      data ≠ [] ∧ data.length ≤ source.length := by
  have hPos := List.length_pos_of_ne_nil hRest
  rw [List.length_drop] at hPos
  intro data hData
  rcases List.mem_append.mp hData with hByte | hLast
  · obtain ⟨byte, -, rfl⟩ := List.mem_map.mp hByte
    refine ⟨List.cons_ne_nil _ _, ?_⟩
    rw [List.length_singleton]
    omega
  · rw [List.mem_singleton.mp hLast]
    refine ⟨hRest, ?_⟩
    rw [List.length_drop]
    omega

/-
  Single bytes show no rate; the page that follows them in
  one read then sets the rate to zero.
-/
theorem run_bytesThenRest
    (ingest : IcecastIngest)
    {source : Bytes}
    {info : CodecInfo}
    {i : Nat}
    (hSize : ingest.chunkSize = source.length)
    (hMax : ingest.maxRateBps = none)
    (hRest : source.drop i ≠ [])
    (hProbe : VorbisCodec.probe (source.drop i) = some info)
    (hKbps : info.bitrateKbps = some 0) :
    (ingest.run .VORBIS (bytesThenRest i source)).stats =
      none := by
  rw [IcecastIngest.run, hSize,
    reads_of_fit (bytesThenRest_fit hRest), drainReader,
    if_neg (by decide)]
  apply PublishLoop.publishAll_shown_zero
  · simp [PublishLoop.start, hMax]
  · simp [PublishLoop.start, hMax]
  · intro part hPart
    obtain ⟨byte, -, rfl⟩ := List.mem_map.mp hPart
    rfl
  · exact scanNominalBitrateBps_of_probe hProbe hKbps

section

variable {maxRateBps : Option Nat}
variable {sink : Bool}
variable {codec : CodecId}
variable {source audio : Bytes}

/- A source that is read in one piece. -/
theorem published_whole
    (hRuns :
      ∀ chunkSize fragments,
        1 ≤ chunkSize →
          (∀ data ∈ fragments, data ≠ []) →
            fragments.flatten = source →
              Published codec audio
                (IcecastIngest.run
                  { chunkSize := chunkSize
                    maxRateBps := maxRateBps
                    headerCaptureSink := sink }
                  codec fragments))
    (hSome : source ≠ []) :
    Published codec audio
      ((PublishLoop.start
        { chunkSize := source.length
          maxRateBps := maxRateBps
          headerCaptureSink := sink } codec).publishAll
        codec (drainReader codec [source])) := by
  rw [← run_whole hSome rfl]
  refine hRuns source.length [source]
    (List.length_pos_of_ne_nil hSome) ?_ (by simp)
  intro data hData
  rw [List.mem_singleton.mp hData]
  exact hSome

/- What is published has lost no tagged frame. -/
theorem not_lateTagFrame_of_published
    (hLong : 10 ≤ source.length)
    (hPublished :
      Published .MP3 (mp3Audio source)
        ((PublishLoop.start
          { chunkSize := source.length
            maxRateBps := maxRateBps
            headerCaptureSink := sink } .MP3).publishAll
          .MP3 (drainReader .MP3 [source]))) :
    ¬LateTagFrame (afterId3 source) := by
  intro hLate
  rcases PublishLoop.publishAll_cases .MP3
      (PublishLoop.start
        { chunkSize := source.length
          maxRateBps := maxRateBps
          headerCaptureSink := sink } .MP3)
      (drainReader .MP3 [source]) with hNone | hDone
  · rw [hPublished.stats_eq] at hNone
    cases hNone
  · have hAudio := hPublished.audio_eq
    rw [hDone, (published_finished _ _ _).audio_eq] at hAudio
    exact drainReader_late hLong hLate hAudio

/- A cap of zero is never reached: nothing is sent. -/
theorem passthroughAudio_eq_nil
    (hNotLate :
      codec = .MP3 → 10 ≤ source.length →
        ¬LateTagFrame (afterId3 source))
    (hWhole :
      source ≠ [] →
        Published codec audio
          ((PublishLoop.start
            { chunkSize := source.length
              maxRateBps := some 0
              headerCaptureSink := sink } codec).publishAll
            codec (drainReader codec [source]))) :
    passthroughAudio codec source = [] := by
  by_contra hAudio
  have hSome : source ≠ [] := by
    rintro rfl
    apply hAudio
    rw [passthroughAudio,
      if_neg fun h => absurd h.2 (by simp)]
  have hSent :
      (drainReader codec [source]).flatten =
        passthroughAudio codec source := by
    have hFlat : [source].flatten = source := by simp
    rw [drainReader_flatten (by rw [hFlat]; exact hNotLate),
      hFlat]
  have hChunks : drainReader codec [source] ≠ [] := by
    intro hNil
    rw [hNil, List.flatten_nil] at hSent
    exact hAudio hSent.symm
  have hNone :=
    PublishLoop.publishAll_zero codec
      (PublishLoop.start
        { chunkSize := source.length
          maxRateBps := some 0
          headerCaptureSink := sink } codec)
      rfl rfl hChunks
  rw [(hWhole hSome).stats_eq] at hNone
  cases hNone

end

/-
  The ingest passes a source through, whatever its fragments,
  exactly when no pacing rate is zero and the audio of an MP3
  source has no tagged frame behind bytes it begins with.
-/
theorem passesThrough_iff
    (maxRateBps : Option Nat)
    (sink : Bool)
    (codec : CodecId)
    (source : Bytes) :
    PassesThrough maxRateBps sink codec source ↔
      NoZeroRate maxRateBps codec source ∧
        (codec = .MP3 → 10 ≤ source.length →
          ¬LateTagFrame (afterId3 source)) := by
  constructor
  · rintro ⟨audio, hOther, hMp3, hRuns⟩
    have hWhole := published_whole hRuns
    have hNotLate :
        codec = .MP3 → 10 ≤ source.length →
          ¬LateTagFrame (afterId3 source) := by
      rintro rfl hLong
      have hSome : source ≠ [] := by
        rintro rfl
        simp at hLong
      have hPublished := hWhole hSome
      rw [hMp3 rfl hLong] at hPublished
      exact not_lateTagFrame_of_published hLong hPublished
    refine ⟨?_, hNotLate⟩
    unfold NoZeroRate
    rcases maxRateBps with _ | bps
    · rintro rfl i info hProbe hKbps
      have hRest : source.drop i ≠ [] := by
        intro hNil
        rw [hNil] at hProbe
        cases hProbe
      have hFit := bytesThenRest_fit hRest
      have hPos := (hFit _ List.mem_concat_self).2
      have hPublished :=
        hRuns source.length (bytesThenRest i source)
          ((List.length_pos_of_ne_nil hRest).trans_le hPos)
          (fun data hData => (hFit data hData).1)
          (bytesThenRest_flatten i source)
      have hNone :=
        run_bytesThenRest
          { chunkSize := source.length
            maxRateBps := none
            headerCaptureSink := sink }
          rfl rfl hRest hProbe hKbps
      rw [hPublished.stats_eq] at hNone
      cases hNone
    · rintro rfl
      exact passthroughAudio_eq_nil hNotLate hWhole
  · rintro ⟨hRate, hNotLate⟩
    refine ⟨passthroughAudio codec source, ?_, ?_, ?_⟩
    · intro hCodec
      rw [passthroughAudio, if_neg fun h => hCodec h.1]
    · intro hCodec hLong
      rw [passthroughAudio, if_pos ⟨hCodec, hLong⟩]
    · rintro chunkSize fragments hSize - rfl
      exact published_run hSize hRate hNotLate

/-
  A stray byte and a mono frame of 96 bytes, 32 kbps at 48
  kHz, that carries the tag of a file.
-/
def strayByteSource : Bytes :=
  0x00 :: [0xFF, 0xFB, 0x14, 0xC0] ++
    List.replicate 17 0x00 ++ INFO ++ List.replicate 71 0x00

/- The stray byte is lost along with the frame behind it. -/
theorem strayByte_lost :
    ¬PassesThrough none true .MP3 strayByteSource := by
  rintro ⟨audio, -, hMp3, hRuns⟩
  have hAudio : audio = strayByteSource :=
    hMp3 rfl (by decide)
  have hPublished :=
    hRuns 97 [strayByteSource] (by omega)
      (by
        intro data hData
        rw [List.mem_singleton.mp hData]
        exact List.cons_ne_nil _ _)
      (by simp)
  have hNothing := hPublished.audio_eq
  rw [hAudio] at hNothing
  exact absurd hNothing (by decide)

end Ingest

end RustyIce
