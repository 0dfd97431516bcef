import RustyIce.Transcode.FrameStaging

/-
  What the staging of a decoder makes of bytes that need not
  be whole units of anything: all of them come to the pipe
  once, in order, and where a unit tells its size by its
  header, how they were cut into pushes does not matter.

  Main declarations:
    * `UnitKind.Ignores`, `completeEnd_append`
    * `StreamDecoder.Fed`, `fed_pushes`
    * `StreamDecoder.HoldsAll`
    * `staging_split_free`
-/

------------------------------------------------------------
-- A Scan That Is Taken Up Again
------------------------------------------------------------

namespace RustyIce

namespace Transcode

/-
  Where a header is there already, `more` behind it changes
  nothing.
-/
structure UnitKind.Ignores
    (kind : UnitKind)
    (more : Bytes) : Prop where
  begins :
    ∀ data : Bytes,
      kind.header ≤ data.length →
        kind.begins (data ++ more) = kind.begins data
  size :
    ∀ data : Bytes,
      kind.header ≤ data.length →
        kind.size (data ++ more) = kind.size data

theorem UnitKind.ignores_nil (kind : UnitKind) :
    kind.Ignores [] where
  begins := fun data _ => by rw [List.append_nil]
  size := fun data _ => by rw [List.append_nil]

theorem mp3Frames_ignores (more : Bytes) :
    mp3Frames.Ignores more where
  begins := by
    intro data hLong
    have hTwo : 2 ≤ data.length :=
      Nat.le_trans (by decide) hLong
    exact startsWithSync_append more hTwo
  size := fun data hLong => mp3FrameSize_append more hLong

section

variable {kind : UnitKind}
variable {data more : Bytes}
variable {pos last : Nat}

/- A byte where no unit begins, or none of a known size. -/
theorem completeEnd_pass
    (last : Nat)
    (hRoom : pos + kind.header ≤ data.length)
    (hPass :
      kind.begins (data.drop pos) = true →
        kind.size (data.drop pos) = none) :
    completeEnd kind data pos last =
      completeEnd kind data (pos + 1) last := by
  rw [completeEnd, dif_pos hRoom]
  split
  · rfl
  · rename_i hBegins
    split
    · rename_i size hSize
      rw [hPass (not_not.mp hBegins)] at hSize
      cases hSize
    · rfl

/-
  With more behind the data the scan comes through the end
  it found before, as if it began there.
-/
theorem completeEnd_resume
    (hIgnores : kind.Ignores more)
    (hFrom :
      completeEnd kind (data ++ more) last last =
        completeEnd kind (data ++ more) pos last) :
    completeEnd kind (data ++ more) pos last =
      completeEnd kind (data ++ more)
        (completeEnd kind data pos last)
        (completeEnd kind data pos last) := by
  have hHere
      (pos : Nat)
      (hRoom : pos + kind.header ≤ data.length) :
      kind.begins ((data ++ more).drop pos) =
          kind.begins (data.drop pos) ∧
        kind.size ((data ++ more).drop pos) =
            kind.size (data.drop pos) ∧
          pos + kind.header ≤ (data ++ more).length := by
    have hLong : kind.header ≤ (data.drop pos).length := by
      rw [List.length_drop]
      omega
    rw [List.drop_append_of_le_length (by omega),
      List.length_append]
    exact
      ⟨hIgnores.begins _ hLong, hIgnores.size _ hLong,
        by omega⟩
  fun_induction completeEnd kind data pos last with
  | case1 pos last hRoom hBegins ih =>
      rcases hHere pos hRoom with ⟨hSame, -, hMore⟩
      have hNext :=
        completeEnd_pass last hMore
          fun hNever => by
            rw [hSame] at hNever
            exact absurd hNever hBegins
      rw [hNext]
      exact ih (hFrom.trans hNext)
  | case2 pos last hRoom hBegins size hSize hFits ih =>
      rcases hHere pos hRoom with ⟨hSame, hSizes, hMore⟩
      rw [completeEnd_size hMore
        (hSame.trans (not_not.mp hBegins))
        (hSizes.trans hSize)]
      rw [if_pos (by rw [List.length_append]; omega)]
      exact ih rfl
  | case3 pos last hRoom hBegins size hSize hFits =>
      exact hFrom.symm
  | case4 pos last hRoom hBegins hSize ih =>
      rcases hHere pos hRoom with ⟨-, hSizes, hMore⟩
      have hNext :=
        completeEnd_pass last hMore
          fun _ => hSizes.trans hSize
      rw [hNext]
      exact ih (hFrom.trans hNext)
  | case5 pos last hRoom => exact hFrom.symm

/- The scan from inside is the scan of what is behind. -/
theorem completeEnd_drop
    (kind : UnitKind)
    (data : Bytes)
    (start pos last : Nat)
    (hStart : start ≤ data.length) :
    completeEnd kind data (start + pos) (start + last) =
      start + completeEnd kind (data.drop start) pos last := by
  have hLength :
      (data.drop start).length = data.length - start :=
    List.length_drop
  have hHere (pos : Nat) :
      (data.drop start).drop pos = data.drop (start + pos) :=
    List.drop_drop
  fun_induction completeEnd kind (data.drop start) pos last with
  | case1 pos last hRoom hBegins ih =>
      rw [hHere] at hBegins
      rw [completeEnd_pass _ (by omega)
        fun hNever => absurd hNever hBegins]
      exact ih
  | case2 pos last hRoom hBegins size hSize hFits ih =>
      rw [hHere] at hBegins hSize
      rw [completeEnd_size (by omega)
        (not_not.mp hBegins) hSize, if_pos (by omega),
        Nat.add_assoc]
      exact ih
  | case3 pos last hRoom hBegins size hSize hFits =>
      rw [hHere] at hBegins hSize
      rw [completeEnd_size (by omega)
        (not_not.mp hBegins) hSize, if_neg (by omega)]
  | case4 pos last hRoom hBegins hSize ih =>
      rw [hHere] at hSize
      rw [completeEnd_pass _ (by omega) fun _ => hSize]
      exact ih
  | case5 pos last hRoom =>
      rw [completeEnd_short (by omega)]

/- The scan of more data, from the end found before. -/
theorem completeEnd_append
    (hIgnores : kind.Ignores more) :
    completeEnd kind (data ++ more) 0 0 =
      completeEnd kind data 0 0 +
        completeEnd kind
          (data.drop (completeEnd kind data 0 0) ++ more) 0
          0 := by
  have hLess :=
    completeEnd_le kind data 0 0 (Nat.zero_le _)
  have hStart :
      completeEnd kind data 0 0 ≤ (data ++ more).length := by
    rw [List.length_append]
    omega
  rw [completeEnd_resume hIgnores rfl]
  have hDrop :=
    completeEnd_drop kind (data ++ more)
      (completeEnd kind data 0 0) 0 0 hStart
  rw [Nat.add_zero, List.drop_append_of_le_length hLess]
    at hDrop
  exact hDrop

/- What is left holds no whole unit that the scan finds. -/
theorem completeEnd_left
    (kind : UnitKind)
    (data : Bytes) :
    completeEnd kind
        (data.drop (completeEnd kind data 0 0)) 0 0 =
      0 := by
  have hAgain :
      completeEnd kind (data ++ []) 0 0 =
        completeEnd kind data 0 0 +
          completeEnd kind
            (data.drop (completeEnd kind data 0 0) ++ []) 0
            0 :=
    completeEnd_append kind.ignores_nil
  rw [List.append_nil, List.append_nil] at hAgain
  omega

end

end Transcode

end RustyIce

------------------------------------------------------------
-- Every Byte Once, In Order
------------------------------------------------------------

namespace RustyIce

namespace Transcode

namespace StreamDecoder

variable {Sample : Type}
variable {lib : Symphonia Sample}
variable {d : StreamDecoder lib}
variable {codec : CodecId}

/-
  A decoder that was pushed `fed`: what went into the pipe,
  what is staged and what is kept for the probe. Only one of
  the latter is in use, and nothing whole is staged.
-/
structure Fed
    (codec : CodecId)
    (d : StreamDecoder lib)
    (fed : Bytes) : Prop where
  sourceCodec : d.sourceCodec = codec
  whole :
    d.buf.written ++ (d.frameStaging ++ d.pending) = fed
  before : d.inner.isSome = false → d.frameStaging = []
  after : d.inner.isSome = true → d.pending = []
  settled :
    completeEnd (unitKindFor codec) d.frameStaging 0 0 = 0

theorem fed_new (codec : CodecId) :
    (new codec : StreamDecoder lib).Fed codec [] where
  sourceCodec := rfl
  whole := rfl
  before := fun _ => rfl
  after := fun hNever => by cases hNever
  settled := by
    rw [completeEnd_short]
    exact Nat.zero_add _ ▸ (unitKindFor codec).header_pos

/- The probe reads the pipe, and may find a format. -/
theorem tryInit_same (d : StreamDecoder lib) :
    d.tryInit.2.buf.written = d.buf.written ∧
      d.tryInit.2.pending = d.pending ∧
        d.tryInit.2.frameStaging = d.frameStaging ∧
          d.tryInit.2.sourceCodec = d.sourceCodec := by
  unfold tryInit
  split
  · exact ⟨rfl, rfl, rfl, rfl⟩
  · exact ⟨rfl, rfl, rfl, rfl⟩

theorem drainPackets_pending (d : StreamDecoder lib) :
    d.drainPackets.2.pending = d.pending := by
  unfold drainPackets
  split
  · rfl
  · rfl

theorem push_pending
    (hInner : d.inner.isSome = true)
    (data : Bytes) :
    (d.push data).2.pending = d.pending := by
  have hNotNone : d.inner.isNone = false := by
    rw [← Option.not_isSome, hInner]
    rfl
  unfold push
  split
  · rfl
  · rw [if_neg (by rw [hNotNone]; exact Bool.false_ne_true)]
    rw [drainPackets_pending]
    unfold stageCompleteFramesToPipe
    dsimp only
    split
    · rfl
    · rfl

/- A push goes through the staging once the stream is known. -/
theorem Fed.staged
    {fed data : Bytes}
    (hFed : d.Fed codec fed)
    (hInner : d.inner.isSome = true)
    (hData : data ≠ []) :
    (d.push data).2.Fed codec (fed ++ data) := by
  rcases push_moves hInner hData with
    ⟨hWritten, hStaging, hCodec, hStill⟩
  rw [hFed.sourceCodec] at hWritten hStaging hCodec
  have hPending := push_pending hInner data
  rw [hFed.after hInner] at hPending
  constructor
  · exact hCodec
  · rw [hWritten, hStaging, hPending, List.append_nil,
      List.append_assoc, List.take_append_drop,
      ← hFed.whole, hFed.after hInner, List.append_nil,
      List.append_assoc]
  · intro hNever
    rw [hStill] at hNever
    cases hNever
  · exact fun _ => hPending
  · rw [hStaging]
    exact completeEnd_left _ _

/- Before it is, what was kept goes into the pipe at once. -/
theorem Fed.probed
    {e : StreamDecoder lib}
    {fed data : Bytes}
    (hFed : d.Fed codec fed)
    (hInner : d.inner.isSome = false)
    (hWritten :
      e.buf.written = d.buf.written ++ (d.pending ++ data))
    (hPending : e.pending = [])
    (hStaged : e.frameStaging = d.frameStaging)
    (hCodec : e.sourceCodec = d.sourceCodec) :
    e.Fed codec (fed ++ data) := by
  have hStaging := hStaged.trans (hFed.before hInner)
  have hWhole := hFed.whole
  rw [hFed.before hInner, List.nil_append] at hWhole
  constructor
  · exact hCodec.trans hFed.sourceCodec
  · rw [hWritten, hStaging, hPending, ← hWhole,
      List.append_nil, List.append_nil, List.append_assoc]
  · exact fun _ => hStaging
  · exact fun _ => hPending
  · rw [hStaged]
    exact hFed.settled

theorem fed_push
    {fed : Bytes}
    (data : Bytes)
    (hFed : d.Fed codec fed) :
    (d.push data).2.Fed codec (fed ++ data) := by
  by_cases hData : data = []
  · rw [hData, List.append_nil]
    unfold push
    rw [if_pos rfl]
    exact hFed
  cases hInner : d.inner.isSome with
  | true => exact hFed.staged hInner hData
  | false =>
      have hStaging := hFed.before hInner
      have hNone : d.inner.isNone = true := by
        rw [← Option.not_isSome, hInner]
        rfl
      unfold push
      rw [if_neg hData, if_pos hNone]
      dsimp only
      split
      · -- Below the threshold it is kept.
        have hWhole := hFed.whole
        rw [hStaging, List.nil_append] at hWhole
        constructor
        · exact hFed.sourceCodec
        · rw [← hWhole, List.append_assoc, hStaging]
          rfl
        · exact fun _ => hStaging
        · intro hNever
          rw [hInner] at hNever
          cases hNever
        · exact hFed.settled
      · have hSame :=
          tryInit_same
            ({ d with
                pending := []
                buf := d.buf.extend (d.pending ++ data) } :
              StreamDecoder lib)
        split
        · rename_i error failed hInit
          rw [hInit] at hSame
          rcases hSame with
            ⟨hWritten, hPending, hStaged, hCodec⟩
          exact
            hFed.probed hInner hWritten hPending hStaged
              hCodec
        · rename_i ready hInit
          rw [hInit] at hSame
          rcases hSame with
            ⟨hWritten, hPending, hStaged, hCodec⟩
          exact
            hFed.probed hInner hWritten hPending hStaged
              hCodec

theorem fed_pushes
    {fed : Bytes}
    (pieces : List Bytes)
    (hFed : d.Fed codec fed) :
    (d.pushes pieces).Fed codec (fed ++ pieces.flatten) := by
  induction pieces using List.reverseRecOn with
  | nil =>
      rw [List.flatten_nil, List.append_nil]
      exact hFed
  | append_singleton before data ih =>
      rw [pushes_snoc, List.flatten_append,
        List.flatten_singleton, ← List.append_assoc]
      exact fed_push data ih

/- What is kept or staged goes in at the end as it is. -/
theorem fed_flushed
    {fed : Bytes}
    (hFed : d.Fed codec fed) :
    d.flushEof.2.buf.written = fed := by
  let probed : StreamDecoder lib :=
    if d.inner.isNone ∧ d.pending ≠ [] then
      ({ d with
          pending := []
          buf := d.buf.extend d.pending } :
        StreamDecoder lib).tryInit.2
    else d
  have hProbed :
      probed.buf.written ++ probed.frameStaging = fed := by
    rw [← hFed.whole]
    by_cases hKept : d.inner.isNone ∧ d.pending ≠ []
    · rcases
          tryInit_same
            ({ d with
                pending := []
                buf := d.buf.extend d.pending } :
              StreamDecoder lib) with
        ⟨hWritten, -, hStaged, -⟩
      have hInner : d.inner.isSome = false := by
        rw [Option.isNone_iff_eq_none.mp hKept.1]
        rfl
      have hStaging := hFed.before hInner
      simp only [probed, if_pos hKept]
      rw [hWritten, hStaged, hStaging, List.append_nil]
      rfl
    · have hPending : d.pending = [] := by
        cases hInner : d.inner with
        | none =>
            by_contra hSome
            exact hKept ⟨by rw [hInner]; rfl, hSome⟩
        | some inner => exact hFed.after (by rw [hInner]; rfl)
      simp only [probed, if_neg hKept]
      rw [hPending, List.append_nil]
  let moved : StreamDecoder lib :=
    if probed.frameStaging ≠ [] then
      { probed with
        frameStaging := []
        buf := probed.buf.extend probed.frameStaging }
    else probed
  have hMoved : moved.buf.written = fed := by
    rw [← hProbed]
    by_cases hStaged : probed.frameStaging ≠ []
    · simp only [moved, if_pos hStaged]
      rfl
    · simp only [moved, if_neg hStaged]
      rw [not_not.mp hStaged, List.append_nil]
  let last : StreamDecoder lib :=
    { moved with buf := { moved.buf with eof := true } }
  have hFlush :
      d.flushEof =
        if last.inner.isNone then (.none, last)
        else last.drainPackets :=
    rfl
  rw [hFlush]
  split
  · exact hMoved
  · exact (drainPackets_same last).written.trans hMoved

end StreamDecoder

end Transcode

end RustyIce

------------------------------------------------------------
-- No Cut Matters
------------------------------------------------------------

namespace RustyIce

namespace Transcode

namespace StreamDecoder

variable {Sample : Type}
variable {lib : Symphonia Sample}
variable {d : StreamDecoder lib}
variable {codec : CodecId}

/-
  Once the stream is known, what stays staged is told by the
  bytes alone.
-/
theorem staged_pushes
    {fed : Bytes}
    (hFed : d.Fed codec fed)
    (hCodec : codec ≠ .VORBIS)
    (hInner : d.inner.isSome = true)
    (pieces : List Bytes) :
    let staged := d.frameStaging ++ pieces.flatten
    (d.pushes pieces).inner.isSome = true ∧
      (d.pushes pieces).frameStaging =
        staged.drop (completeEnd mp3Frames staged 0 0) := by
  have hKind : unitKindFor codec = mp3Frames := if_neg hCodec
  induction pieces using List.reverseRecOn with
  | nil =>
      have hSettled := hFed.settled
      rw [hKind] at hSettled
      dsimp only
      rw [List.flatten_nil, List.append_nil, hSettled]
      exact ⟨hInner, rfl⟩
  | append_singleton before data ih =>
      rcases ih with ⟨hStill, hStaging⟩
      have hFlatten :
          d.frameStaging ++ (before ++ [data]).flatten =
            d.frameStaging ++ before.flatten ++ data := by
        simp
      have hLess :=
        completeEnd_le mp3Frames
          (d.frameStaging ++ before.flatten) 0 0
          (Nat.zero_le _)
      dsimp only
      rw [hFlatten, pushes_snoc]
      by_cases hData : data = []
      · rw [hData, List.append_nil, push, if_pos rfl]
        exact ⟨hStill, hStaging⟩
      · rcases push_moves hStill hData with
          ⟨-, hMoved, -, hKnown⟩
        have hSame := (fed_pushes before hFed).sourceCodec
        have hMore :
            completeEnd mp3Frames
                (d.frameStaging ++ before.flatten ++ data) 0
                0 =
              _ :=
          completeEnd_append (mp3Frames_ignores data)
        refine ⟨hKnown, ?_⟩
        rw [hMoved, hSame, hKind, hStaging, hMore,
          ← List.drop_drop,
          List.drop_append_of_le_length hLess]

/-
  A decoder that was pushed `fed` has each of its bytes once,
  in order: put into the pipe before, staged, or kept for the
  probe; and the end puts the last of them into the pipe. (A
  probe that fails discards what was in the pipe.)
-/
structure HoldsAll
    (d : StreamDecoder lib)
    (fed : Bytes) : Prop where
  held :
    d.buf.written ++ (d.frameStaging ++ d.pending) = fed
  flushed : d.flushEof.2.buf.written = fed

/- Neither the pipe nor the staging tells two decoders. -/
structure SameStaging (d e : StreamDecoder lib) : Prop where
  written : d.buf.written = e.buf.written
  frameStaging : d.frameStaging = e.frameStaging

/-
  However the bytes of a source are cut, none is lost, said
  twice or moved before another. From the push on that made
  the stream of a source known, other than an Ogg source,
  the cut does not even matter.
-/
theorem staging_split_free
    (lib : Symphonia Sample)
    (codec : CodecId)
    (first pieces others : List Bytes)
    (hSame : pieces.flatten = others.flatten) :
    let d : StreamDecoder lib := (new codec).pushes first
    (d.pushes pieces).HoldsAll
        (first.flatten ++ pieces.flatten) ∧
      (codec ≠ .VORBIS →
        d.inner.isSome = true →
          SameStaging (d.pushes pieces)
            (d.pushes others)) := by
  intro d
  have hFirst : d.Fed codec first.flatten := by
    have hFed : d.Fed codec ([] ++ first.flatten) :=
      fed_pushes first (fed_new codec)
    rw [List.nil_append] at hFed
    exact hFed
  have hPieces := fed_pushes pieces hFirst
  have hOthers := fed_pushes others hFirst
  constructor
  · exact ⟨hPieces.whole, fed_flushed hPieces⟩
  · intro hCodec hInner
    rcases staged_pushes hFirst hCodec hInner pieces with
      ⟨hKnown, hStaging⟩
    rcases staged_pushes hFirst hCodec hInner others with
      ⟨hKnown', hStaging'⟩
    have hStaged :
        (d.pushes pieces).frameStaging =
          (d.pushes others).frameStaging := by
      rw [hStaging, hStaging', hSame]
    have hWhole := hPieces.whole
    rw [hSame, ← hOthers.whole, hStaged,
      hPieces.after hKnown, hOthers.after hKnown'] at hWhole
    exact ⟨List.append_cancel_right hWhole, hStaged⟩

/- The silent library finds a stream in whatever is there. -/
theorem silent_known
    {d : StreamDecoder silent}
    {data : Bytes}
    (hNone : d.inner.isNone = true)
    (hData : data ≠ [])
    (hLong :
      initThresholdFor d.sourceCodec ≤
        (d.pending ++ data).length) :
    (d.push data).2.inner.isSome = true := by
  unfold push
  rw [if_neg hData, if_pos hNone]
  dsimp only
  split
  · rename_i hShort
    exact absurd hLong (Nat.not_le.mpr hShort)
  · rfl

theorem silent_first
    {data : Bytes}
    (hLength : data.length = INIT_THRESHOLD_MP3) :
    ((new .MP3 : StreamDecoder silent).pushes
        [data]).inner.isSome =
      true := by
  have hData : data ≠ [] := by
    intro hNil
    rw [hNil] at hLength
    cases hLength
  exact silent_known rfl hData (Nat.le_of_eq hLength.symm)

/-
  After a first push that makes the stream known, two frames
  and a part of a third, as they come or in one piece.
-/
theorem staging_split_free_synced :
    let d : StreamDecoder silent :=
      (new .MP3).pushes
        [List.replicate INIT_THRESHOLD_MP3 0]
    let bytes := syncedFrame.bytes
    (d.pushes [bytes ++ bytes.take 7,
        bytes.drop 7 ++ bytes.take 5]).HoldsAll
        (List.replicate INIT_THRESHOLD_MP3 0 ++
          (bytes ++ (bytes ++ bytes.take 5))) ∧
      SameStaging
        (d.pushes [bytes ++ bytes.take 7,
          bytes.drop 7 ++ bytes.take 5])
        (d.pushes [bytes ++ (bytes ++ bytes.take 5)]) := by
  intro d bytes
  have hSame :
      [bytes ++ bytes.take 7,
          bytes.drop 7 ++ bytes.take 5].flatten =
        [bytes ++ (bytes ++ bytes.take 5)].flatten := by
    decide
  have hInner : d.inner.isSome = true :=
    silent_first List.length_replicate
  rcases
      staging_split_free silent .MP3
        [List.replicate INIT_THRESHOLD_MP3 0] _ _ hSame with
    ⟨hHolds, hFree⟩
  refine ⟨?_, hFree (by decide) hInner⟩
  rw [hSame] at hHolds
  simpa using hHolds

end StreamDecoder

end Transcode

end RustyIce
