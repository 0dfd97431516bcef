import RustyIce.Codec.OggHeaderCapture
import RustyIce.Transcode.StreamDecoder
import Mathlib.Data.List.Induction

/-
  What the staging of an Ogg source lets through: whole
  pages, except where the start of an unfinished page looks
  as if a page were inside it.

  Main declarations:
    * `HidesPage`
    * `completeEnd_pages`, `completeEnd_part_iff`
    * `StreamDecoder.WholePages`
    * `wholePages_iff`
-/

------------------------------------------------------------
-- The Scan Over Whole Pages
------------------------------------------------------------

namespace RustyIce

namespace Transcode

open Library.Frames

variable {data : Bytes}
variable {pos last : Nat}

theorem completeEnd_short
    {kind : UnitKind}
    (hShort : data.length < pos + kind.header) :
    completeEnd kind data pos last = last := by
  rw [completeEnd, dif_neg (by omega)]

/- A page whose size is known begins with the magic. -/
theorem magic_of_size
    {size : Nat}
    (hSize : oggPageSize data = some size) :
    oggPages.begins data = true := by
  unfold oggPageSize at hSize
  split at hSize
  · cases hSize
  · rename_i hHeader
    simp only [not_or, Decidable.not_not] at hHeader
    simpa [oggPages] using hHeader.2

/- One turn of the scan, by what the size reader says. -/
theorem completeEnd_none
    (hNone : oggPageSize (data.drop pos) = none) :
    completeEnd oggPages data pos last =
      completeEnd oggPages data (pos + 1) last := by
  by_cases hRoom : pos + oggPages.header ≤ data.length
  · rw [completeEnd, dif_pos hRoom]
    split
    · rfl
    · split
      · rename_i hSize
        rw [show oggPages.size = oggPageSize from rfl, hNone]
          at hSize
        cases hSize
      · rfl
  · rw [completeEnd_short (by omega),
      completeEnd_short (by omega)]

/- A unit that begins here is passed, or ends the scan. -/
theorem completeEnd_size
    {kind : UnitKind}
    {size : Nat}
    (hRoom : pos + kind.header ≤ data.length)
    (hBegins : kind.begins (data.drop pos) = true)
    (hSize : kind.size (data.drop pos) = some size) :
    completeEnd kind data pos last =
      if pos + size ≤ data.length then
        completeEnd kind data (pos + size) (pos + size)
      else
        last := by
  rw [completeEnd, dif_pos hRoom,
    if_neg (not_not.mpr hBegins)]
  split
  · rename_i found hFound
    rw [hSize] at hFound
    cases hFound
    rfl
  · rename_i hFound
    rw [hSize] at hFound
    cases hFound

theorem completeEnd_some
    {size : Nat}
    (hSize : oggPageSize (data.drop pos) = some size) :
    completeEnd oggPages data pos last =
      if pos + size ≤ data.length then
        completeEnd oggPages data (pos + size) (pos + size)
      else
        last := by
  have hLong := (oggPageSize_pos hSize).2
  rw [List.length_drop] at hLong
  apply completeEnd_size
  · show pos + 27 ≤ _
    omega
  · exact magic_of_size hSize
  · exact hSize

/- The scan never falls behind the last end it found. -/
theorem le_completeEnd
    (kind : UnitKind)
    (data : Bytes)
    (pos last : Nat)
    (hLast : last ≤ pos) :
    last ≤ completeEnd kind data pos last := by
  fun_induction completeEnd kind data pos last with
  | case1 pos last hRoom hBegins ih => exact ih (by omega)
  | case2 pos last hRoom hBegins size hSize hFits ih =>
      have := ih (by omega)
      omega
  | case3 pos last hRoom hBegins size hSize hFits =>
      exact Nat.le_refl _
  | case4 pos last hRoom hBegins hSize ih =>
      exact ih (by omega)
  | case5 pos last hRoom => exact Nat.le_refl _

/- It ends where it begins or inside the data. -/
theorem completeEnd_le
    (kind : UnitKind)
    (data : Bytes)
    (pos last : Nat)
    (hLast : last ≤ data.length) :
    completeEnd kind data pos last ≤ data.length := by
  fun_induction completeEnd kind data pos last with
  | case1 pos last hRoom hBegins ih => exact ih hLast
  | case2 pos last hRoom hBegins size hSize hFits ih =>
      exact ih hFits
  | case3 pos last hRoom hBegins size hSize hFits =>
      exact hLast
  | case4 pos last hRoom hBegins hSize ih => exact ih hLast
  | case5 pos last hRoom => exact hLast

/-
  The scan passes over whole units to what is behind them,
  where each tells its own size.
-/
theorem completeEnd_units
    {Unit : Type}
    (kind : UnitKind)
    (bytes : Unit → Bytes)
    (hUnit :
      ∀ u rest,
        kind.header ≤ (bytes u).length ∧
          kind.begins (bytes u ++ rest) = true ∧
            kind.size (bytes u ++ rest) =
              some (bytes u).length)
    (front : Bytes)
    (units : List Unit)
    (part : Bytes) :
    completeEnd kind
        (front ++ (stream bytes units ++ part))
        front.length front.length =
      completeEnd kind
        (front ++ (stream bytes units ++ part))
        (front ++ stream bytes units).length
        (front ++ stream bytes units).length := by
  induction units generalizing front with
  | nil => simp
  | cons u units ih =>
      have hBuffer :
          front ++ (stream bytes (u :: units) ++ part) =
            (front ++ bytes u) ++
              (stream bytes units ++ part) := by
        simp
      have hHere :
          (front ++
                (stream bytes (u :: units) ++ part)).drop
              front.length =
            bytes u ++ (stream bytes units ++ part) := by
        rw [List.drop_left, stream_cons, List.append_assoc]
      rcases hUnit u (stream bytes units ++ part) with
        ⟨hHeader, hBegins, hSize⟩
      have hFits :
          front.length + (bytes u).length ≤
            (front ++
              (stream bytes (u :: units) ++ part)).length := by
        rw [hBuffer]
        simp only [List.length_append]
        omega
      rw [completeEnd_size (by omega)
          (by rw [hHere]; exact hBegins)
          (by rw [hHere]; exact hSize),
        if_pos hFits]
      have hNext := ih (front ++ bytes u)
      rw [← hBuffer, List.length_append] at hNext
      rw [hNext, List.append_assoc front (bytes u)]
      rfl

theorem completeEnd_pages
    (front : Bytes)
    (pages : List OggPage)
    (part : Bytes) :
    completeEnd oggPages
        (front ++ (stream OggPage.bytes pages ++ part))
        front.length front.length =
      completeEnd oggPages
        (front ++ (stream OggPage.bytes pages ++ part))
        (front ++ stream OggPage.bytes pages).length
        (front ++ stream OggPage.bytes pages).length := by
  apply completeEnd_units
  intro p rest
  have hSize := oggPageSize_page p rest
  exact
    ⟨(oggPageSize_pos hSize).1, magic_of_size hSize, hSize⟩

end Transcode

end RustyIce

------------------------------------------------------------
-- The Scan Into A Part Of A Page
------------------------------------------------------------

namespace RustyIce

namespace Transcode

open Library.Frames

/-
  At the first place in `part` where the size reader finds a
  page, that page is whole.
-/
def HidesPage (part : Bytes) : Prop :=
  ∃ i size,
    (∀ j, j < i → oggPageSize (part.drop j) = none) ∧
      oggPageSize (part.drop i) = some size ∧
      i + size ≤ part.length

/- The scan finds what is hidden, and only that. -/
theorem completeEnd_from_iff
    (front part : Bytes)
    (skipped : Nat)
    (hSkipped :
      ∀ j, j < skipped → oggPageSize (part.drop j) = none) :
    completeEnd oggPages (front ++ part)
        (front.length + skipped) front.length =
        front.length ↔
      ¬ HidesPage part := by
  have hDrop :
      ∀ i,
        (front ++ part).drop (front.length + i) =
          part.drop i := by
    intro i
    rw [← List.drop_drop, List.drop_left]
  induction hLeft : part.length - skipped using
      Nat.strongRecOn generalizing skipped with
  | ind left ih =>
      cases hSize : oggPageSize (part.drop skipped) with
      | none =>
          rw [completeEnd_none (by rw [hDrop]; exact hSize)]
          by_cases hEnd : part.length ≤ skipped
          · rw [completeEnd_short (by
              rw [List.length_append]
              show _ < _ + 27
              omega)]
            refine iff_of_true rfl ?_
            rintro ⟨i, size, _, hFound, hFits⟩
            have := (oggPageSize_pos hFound).1
            by_cases hBefore : i < skipped
            · rw [hSkipped i hBefore] at hFound
              cases hFound
            · omega
          · apply ih (part.length - (skipped + 1))
              (by omega) (skipped + 1) _ rfl
            intro j hj
            by_cases hLast : j = skipped
            · rw [hLast]
              exact hSize
            · exact hSkipped j (by omega)
      | some size =>
          rw [completeEnd_some (by rw [hDrop]; exact hSize)]
          have hPos := (oggPageSize_pos hSize).1
          by_cases hFits : skipped + size ≤ part.length
          · have hWhole :
                front.length + skipped + size ≤
                  (front ++ part).length := by
              rw [List.length_append]
              omega
            rw [if_pos hWhole]
            refine iff_of_false ?_ ?_
            · have hPast :=
                le_completeEnd oggPages (front ++ part)
                  (front.length + skipped + size)
                  (front.length + skipped + size)
                  (Nat.le_refl _)
              omega
            · exact fun hNot =>
                hNot ⟨skipped, size, hSkipped, hSize, hFits⟩
          · rw [if_neg (by rw [List.length_append]; omega)]
            refine iff_of_true rfl ?_
            rintro ⟨i, other, hBefore, hFound, hInside⟩
            rcases Nat.lt_trichotomy i skipped with
              hLess | hSame | hMore
            · rw [hSkipped i hLess] at hFound
              cases hFound
            · rw [hSame, hSize] at hFound
              cases hFound
              omega
            · rw [hBefore skipped hMore] at hSize
              cases hSize

/- Whole pages and part of one behind them. -/
theorem completeEnd_part_iff
    (pages : List OggPage)
    (part : Bytes) :
    completeEnd oggPages (stream OggPage.bytes pages ++ part)
        0 0 =
        (stream OggPage.bytes pages).length ↔
      ¬ HidesPage part := by
  have hPages := completeEnd_pages [] pages part
  have hPart :=
    completeEnd_from_iff (stream OggPage.bytes pages) part 0
      (fun _ hLess => absurd hLess (by omega))
  simp only [List.nil_append, List.length_nil] at hPages
  rw [hPages]
  exact hPart

end Transcode

end RustyIce

------------------------------------------------------------
-- A Decoder Fed With Pages
------------------------------------------------------------

namespace RustyIce

namespace Transcode

namespace StreamDecoder

open Library.Frames

variable {Sample : Type}
variable {lib : Symphonia Sample}

/- Push pieces one after the other. -/
def pushes
    (d : StreamDecoder lib)
    (pieces : List Bytes) : StreamDecoder lib :=
  pieces.foldl (fun d data => (d.push data).2) d

theorem pushes_snoc
    (d : StreamDecoder lib)
    (before : List Bytes)
    (data : Bytes) :
    d.pushes (before ++ [data]) =
      ((d.pushes before).push data).2 := by
  simp [pushes]

/- The library reads the pipe and does nothing else. -/
structure SameButRead (d e : StreamDecoder lib) : Prop where
  written : e.buf.written = d.buf.written
  sourceCodec : e.sourceCodec = d.sourceCodec
  frameStaging : e.frameStaging = d.frameStaging
  inner : e.inner.isSome = d.inner.isSome

theorem drainPackets_same (d : StreamDecoder lib) :
    SameButRead d d.drainPackets.2 := by
  unfold drainPackets
  cases hInner : d.inner with
  | none =>
      exact ⟨rfl, rfl, rfl, by rw [hInner]⟩
  | some inner => exact ⟨rfl, rfl, rfl, by rw [hInner]; rfl⟩

/- What one push moves, and what it leaves staged. -/
theorem push_moves
    {d : StreamDecoder lib}
    (hInner : d.inner.isSome = true)
    {data : Bytes}
    (hData : data ≠ []) :
    let staged := d.frameStaging ++ data
    let stop :=
      completeEnd (unitKindFor d.sourceCodec) staged 0 0
    (d.push data).2.buf.written =
        d.buf.written ++ staged.take stop ∧
      (d.push data).2.frameStaging = staged.drop stop ∧
        (d.push data).2.sourceCodec = d.sourceCodec ∧
          (d.push data).2.inner.isSome = true := by
  intro staged stop
  have hNotNone : ¬ d.inner.isNone = true := by
    rw [← Option.not_isSome, hInner]
    decide
  let fed : StreamDecoder lib :=
    { d with frameStaging := staged }
  have hPush :
      d.push data =
        fed.stageCompleteFramesToPipe.drainPackets := by
    rw [push, if_neg hData, if_neg hNotNone]
  have hStage :
      fed.stageCompleteFramesToPipe.buf.written =
          d.buf.written ++ staged.take stop ∧
        fed.stageCompleteFramesToPipe.frameStaging =
          staged.drop stop ∧
        fed.stageCompleteFramesToPipe.sourceCodec =
          d.sourceCodec ∧
        fed.stageCompleteFramesToPipe.inner = d.inner := by
    have hStop :
        completeEnd (unitKindFor fed.sourceCodec)
          fed.frameStaging 0 0 = stop := rfl
    unfold stageCompleteFramesToPipe
    simp only [hStop]
    by_cases hZero : stop > 0
    · rw [if_pos hZero]
      exact ⟨rfl, rfl, rfl, rfl⟩
    · have hNone : stop = 0 := by omega
      rw [if_neg hZero, hNone, List.take_zero,
        List.append_nil, List.drop_zero]
      exact ⟨rfl, rfl, rfl, rfl⟩
  have hSame :=
    drainPackets_same fed.stageCompleteFramesToPipe
  rw [hPush, hSame.written, hSame.frameStaging,
    hSame.sourceCodec, hSame.inner, hStage.2.2.2]
  exact ⟨hStage.1, hStage.2.1, hStage.2.2.1, hInner⟩

/- The end of the source moves all that is staged. -/
theorem flushEof_moves
    {d : StreamDecoder lib}
    (hInner : d.inner.isSome = true) :
    d.flushEof.2.buf.written =
        d.buf.written ++ d.frameStaging ∧
      d.flushEof.2.frameStaging = [] := by
  have hNotNone : d.inner.isNone = false := by
    rw [← Option.not_isSome, hInner]
    rfl
  unfold flushEof
  simp only [hNotNone, Bool.false_eq_true, false_and,
    if_false]
  by_cases hNil : d.frameStaging = []
  · simp only [hNil, ne_eq, not_true_eq_false, if_false,
      hNotNone, Bool.false_eq_true, List.append_nil]
    have hSame :=
      drainPackets_same
        { d with
          frameStaging := []
          buf := { d.buf with eof := true } }
    exact ⟨hSame.written, hSame.frameStaging⟩
  · simp only [ne_eq, hNil, not_false_eq_true, if_true,
      hNotNone, Bool.false_eq_true, if_false]
    have hSame :=
      drainPackets_same
        { d with
          frameStaging := []
          buf :=
            { d.buf.extend d.frameStaging with
              eof := true } }
    exact ⟨hSame.written, hSame.frameStaging⟩

/- A piece more, cut from the same bytes. -/
theorem take_snoc
    {whole : Bytes}
    {before : List Bytes}
    {data : Bytes}
    (hPrefix : (before ++ [data]).flatten <+: whole) :
    whole.take (before.flatten.length + data.length) =
      whole.take before.flatten.length ++ data := by
  have hFlatten :
      (before ++ [data]).flatten =
        before.flatten ++ data := by
    simp
  rw [hFlatten] at hPrefix
  have hBefore := (List.prefix_append _ _).trans hPrefix
  rw [← List.length_append,
    ← List.prefix_iff_eq_take.mp hPrefix,
    ← List.prefix_iff_eq_take.mp hBefore]

/- A decoder of an Ogg source that knows its stream. -/
def Ready (d : StreamDecoder lib) : Prop :=
  d.sourceCodec = .VORBIS ∧ d.inner.isSome = true

theorem push_ready
    {d : StreamDecoder lib}
    (hReady : d.Ready)
    {data : Bytes}
    (hData : data ≠ []) :
    let staged := d.frameStaging ++ data
    let stop := completeEnd oggPages staged 0 0
    (d.push data).2.buf.written =
        d.buf.written ++ staged.take stop ∧
      (d.push data).2.frameStaging = staged.drop stop ∧
        (d.push data).2.Ready := by
  rcases hReady with ⟨hCodec, hInner⟩
  have hMoves := push_moves hInner hData
  rw [hCodec] at hMoves
  exact hMoves

/- What is received of the page that is not whole yet. -/
def partAt (pages : List OggPage) (count : Nat) : Bytes :=
  ((stream OggPage.bytes pages).take count).drop
    (stream OggPage.bytes
      (complete OggPage.bytes count pages)).length

theorem take_eq_partAt
    (pages : List OggPage)
    (count : Nat) :
    (stream OggPage.bytes pages).take count =
        stream OggPage.bytes
            (complete OggPage.bytes count pages) ++
          partAt pages count := by
  rcases take_stream OggPage.bytes count pages
      OggHeaderCapture.exists_page with ⟨part, hTake, _⟩
  rw [partAt, hTake, List.drop_left]

/-
  The pipe holds the pages that are whole by now, and the
  rest of what was received is staged.
-/
structure StagedAt
    (d : StreamDecoder lib)
    (pages : List OggPage)
    (count : Nat)
    (e : StreamDecoder lib) : Prop where
  written :
    e.buf.written =
      d.buf.written ++
        stream OggPage.bytes
          (complete OggPage.bytes count pages)
  staged : e.frameStaging = partAt pages count
  ready : e.Ready

/- One push keeps this as long as no page is hidden. -/
theorem stagedAt_push
    {d e : StreamDecoder lib}
    {pages : List OggPage}
    {count : Nat}
    {data : Bytes}
    (hStaged : StagedAt d pages count e)
    (hData :
      (stream OggPage.bytes pages).take
          (count + data.length) =
        (stream OggPage.bytes pages).take count ++ data) :
    StagedAt d pages (count + data.length) (e.push data).2 ↔
      ¬ HidesPage (partAt pages (count + data.length)) ∨
        data = [] := by
  by_cases hNil : data = []
  · subst hNil
    refine iff_of_true ?_ (.inr rfl)
    exact hStaged
  · rcases OggHeaderCapture.exists_complete_append pages
        (Nat.le_add_right count data.length) with
      ⟨extra, hExtra⟩
    have hReceived :
        e.frameStaging ++ data =
          stream OggPage.bytes extra ++
            partAt pages (count + data.length) := by
      have hNow := take_eq_partAt pages (count + data.length)
      rw [hData, take_eq_partAt, hExtra, stream_append,
        List.append_assoc, List.append_assoc,
        List.append_cancel_left_eq] at hNow
      rw [hStaged.staged, hNow]
    have hPush := push_ready hStaged.ready hNil
    simp only [hReceived] at hPush
    rcases hPush with ⟨hWritten, hLeft, hReady⟩
    have hScan :=
      completeEnd_part_iff extra
        (partAt pages (count + data.length))
    rw [or_iff_left hNil, ← hScan]
    constructor
    · intro hNext
      have hSame := hNext.staged
      rw [hLeft] at hSame
      have hLength := congrArg List.length hSame
      have hStop :=
        completeEnd_le oggPages
          (stream OggPage.bytes extra ++
            partAt pages (count + data.length))
          0 0 (Nat.zero_le _)
      have hBoth := congrArg List.length hNext.written
      rw [hWritten, hStaged.written, hExtra, stream_append,
        List.length_append, List.length_append,
        List.length_append, List.length_append,
        List.length_take, List.length_append] at hBoth
      rw [List.length_drop, List.length_append] at hLength
      rw [List.length_append] at hStop
      omega
    · intro hStop
      rw [hStop] at hWritten hLeft
      refine ⟨?_, ?_, hReady⟩
      · rw [hWritten, hStaged.written, hExtra, stream_append,
          List.take_left, List.append_assoc]
      · rw [hLeft, List.drop_left]

end StreamDecoder

end Transcode

end RustyIce

------------------------------------------------------------
-- Whole Pages
------------------------------------------------------------

namespace RustyIce

namespace Transcode

namespace StreamDecoder

open Library.Frames

variable {Sample : Type}
variable {lib : Symphonia Sample}

/-
  After every push the pages received whole are in the pipe
  and the rest is staged, and the end of the source moves
  what is left.
-/
structure WholePages
    (d : StreamDecoder lib)
    (pages : List OggPage)
    (pieces : List Bytes) : Prop where
  moved :
    ∀ before, before <+: pieces →
      StagedAt d pages before.flatten.length
        (d.pushes before)
  flushed :
    (d.pushes pieces).flushEof.2.buf.written =
        d.buf.written ++ stream OggPage.bytes pages ∧
      (d.pushes pieces).flushEof.2.frameStaging = []

/- There is no room for a page in less than a header. -/
theorem not_hidesPage_of_short
    {part : Bytes}
    (hShort : part.length < 27) :
    ¬ HidesPage part := by
  rintro ⟨i, size, _, hSize, _⟩
  have hLong := (oggPageSize_pos hSize).2
  rw [List.length_drop] at hLong
  omega

theorem partAt_zero (pages : List OggPage) :
    partAt pages 0 = [] := by
  simp [partAt]

theorem stagedAt_start
    {d : StreamDecoder lib}
    (hReady : d.Ready)
    (hBoundary : d.frameStaging = [])
    (pages : List OggPage) :
    StagedAt d pages 0 d := by
  have hNone : complete OggPage.bytes 0 pages = [] := by
    cases pages with
    | nil => rfl
    | cons p pages =>
        have hPos := p.length_bytes_pos
        rw [complete, if_neg (by omega)]
  refine ⟨?_, ?_, hReady⟩
  · rw [hNone, stream_nil, List.append_nil]
  · rw [hBoundary, partAt_zero]

/- The end of the source moves the rest. -/
theorem flushEof_staged
    {d e : StreamDecoder lib}
    {pages : List OggPage}
    {count : Nat}
    (hStaged : StagedAt d pages count e) :
    e.flushEof.2.buf.written =
        d.buf.written ++
          (stream OggPage.bytes pages).take count ∧
      e.flushEof.2.frameStaging = [] := by
  rcases hStaged with ⟨hWritten, hPart, hReady⟩
  rcases flushEof_moves hReady.2 with ⟨hMoved, hLeft⟩
  refine ⟨?_, hLeft⟩
  rw [hMoved, hWritten, hPart, take_eq_partAt,
    List.append_assoc]

/- Where no page is hidden, everything stays in step. -/
theorem stagedAt_pushes
    {d : StreamDecoder lib}
    (hReady : d.Ready)
    (hBoundary : d.frameStaging = [])
    {pages : List OggPage}
    {pieces : List Bytes}
    (hPieces :
      pieces.flatten <+: stream OggPage.bytes pages)
    (hPlain :
      ∀ before, before <+: pieces →
        ¬ HidesPage
          (partAt pages before.flatten.length)) :
    StagedAt d pages pieces.flatten.length
      (d.pushes pieces) := by
  induction pieces using List.reverseRecOn with
  | nil => exact stagedAt_start hReady hBoundary pages
  | append_singleton before data ih =>
      have hBefore :
          before <+: before ++ [data] :=
        List.prefix_append _ _
      have hEarlier :=
        ih
          (by
            rw [List.flatten_append] at hPieces
            exact (List.prefix_append _ _).trans hPieces)
          fun front hFront =>
            hPlain front (hFront.trans hBefore)
      have hLength :
          (before ++ [data]).flatten.length =
            before.flatten.length + data.length := by
        simp
      have hLast := hPlain _ List.prefix_rfl
      rw [hLength] at hLast
      rw [pushes_snoc, hLength]
      exact
        (stagedAt_push hEarlier (take_snoc hPieces)).mpr
          (.inl hLast)

/- Where everything is in step, no page was hidden. -/
theorem not_hidesPage_of_moved
    {d : StreamDecoder lib}
    {pages : List OggPage}
    {pieces : List Bytes}
    (hPieces :
      pieces.flatten <+: stream OggPage.bytes pages)
    (hMoved :
      ∀ before, before <+: pieces →
        StagedAt d pages before.flatten.length
          (d.pushes before)) :
    ¬ HidesPage (partAt pages pieces.flatten.length) := by
  induction pieces using List.reverseRecOn with
  | nil =>
      rw [List.flatten_nil, List.length_nil, partAt_zero]
      exact not_hidesPage_of_short (by decide)
  | append_singleton before data ih =>
      have hBefore :
          before <+: before ++ [data] :=
        List.prefix_append _ _
      have hLength :
          (before ++ [data]).flatten.length =
            before.flatten.length + data.length := by
        simp
      have hNow := hMoved _ List.prefix_rfl
      rw [pushes_snoc, hLength] at hNow
      rw [hLength]
      rcases
          (stagedAt_push (hMoved before hBefore)
            (take_snoc hPieces)).mp hNow with
        hPlain | hNil
      · exact hPlain
      · rw [hNil, List.length_nil, Nat.add_zero]
        apply ih
        · rw [List.flatten_append] at hPieces
          exact (List.prefix_append _ _).trans hPieces
        · intro front hFront
          exact hMoved front (hFront.trans hBefore)

theorem flatten_initial
    {before pieces : List Bytes}
    (hBefore : before <+: pieces) :
    before.flatten <+: pieces.flatten := by
  rcases hBefore with ⟨rest, rfl⟩
  rw [List.flatten_append]
  exact List.prefix_append _ _

/-
  Only whole pages reach the pipe exactly where no push ends
  inside a lacing table that hides a page.
-/
theorem wholePages_iff
    (d : StreamDecoder lib)
    (hReady : d.Ready)
    (hBoundary : d.frameStaging = [])
    (pages : List OggPage)
    (pieces : List Bytes)
    (hPieces :
      pieces.flatten = stream OggPage.bytes pages) :
    WholePages d pages pieces ↔
      ∀ before, before <+: pieces →
        ¬ HidesPage
          (partAt pages before.flatten.length) := by
  have hPrefix :
      ∀ before, before <+: pieces →
        before.flatten <+: stream OggPage.bytes pages := by
    intro before hBefore
    rw [← hPieces]
    exact flatten_initial hBefore
  constructor
  · intro hWhole before hBefore
    exact
      not_hidesPage_of_moved (hPrefix before hBefore)
        fun front hFront =>
          hWhole.moved front (hFront.trans hBefore)
  · intro hPlain
    have hMoved :
        ∀ before, before <+: pieces →
          StagedAt d pages before.flatten.length
            (d.pushes before) := by
      intro before hBefore
      exact
        stagedAt_pushes hReady hBoundary
          (hPrefix before hBefore) fun front hFront =>
            hPlain front (hFront.trans hBefore)
    refine ⟨hMoved, ?_⟩
    have hEnd :=
      flushEof_staged (hMoved pieces List.prefix_rfl)
    rw [hPieces, List.take_length] at hEnd
    exact hEnd

/- A library that reads everything and decodes nothing. -/
def silent : Symphonia Unit where
  Inner := Unit
  probe := fun _ buf => (.ok (), buf.written.length)
  drainPackets := fun _ buf =>
    ({ samples := [], sampleRate := 44100, channels := 2 },
      (), buf.written.length)

def listening : StreamDecoder silent where
  buf := .new
  sourceCodec := .VORBIS
  pending := []
  frameStaging := []
  inner := some ()

/-
  A page of fifteen empty segments whose serial number is
  the magic: its byte 40, the last but one of its table, is
  where a page that begins at the serial number would have
  its number of segments.
-/
def hidingPage : OggPage where
  version := 0
  headerType := 0
  granule := Vector.replicate 8 0
  serial := #v[0x4F, 0x67, 0x67, 0x53]
  sequence := Vector.replicate 4 0
  checksum := Vector.replicate 4 0
  lacing := List.replicate 15 0
  body := []
  segments := by decide
  framed := by decide

/- Cut in its table the page is torn apart. -/
theorem hidingPage_torn :
    listening.Ready ∧ listening.frameStaging = [] ∧
      [hidingPage.bytes.take 41,
          hidingPage.bytes.drop 41].flatten =
        stream OggPage.bytes [hidingPage] ∧
      ¬ WholePages listening [hidingPage]
        [hidingPage.bytes.take 41,
          hidingPage.bytes.drop 41] := by
  refine ⟨⟨rfl, rfl⟩, rfl, by decide, ?_⟩
  intro hWhole
  have hFirst :
      [hidingPage.bytes.take 41] <+:
        [hidingPage.bytes.take 41,
          hidingPage.bytes.drop 41] :=
    ⟨[hidingPage.bytes.drop 41], rfl⟩
  refine
    not_hidesPage_of_moved (by decide)
      (fun front hFront =>
        hWhole.moved front (hFront.trans hFirst))
      ⟨14, 27, by decide, by decide, by decide⟩

/- Cut in its header it is not. -/
theorem wholePages_hidingPage :
    WholePages listening [hidingPage]
      [hidingPage.bytes.take 20,
        hidingPage.bytes.drop 20] := by
  apply
    (wholePages_iff listening ⟨rfl, rfl⟩ rfl [hidingPage]
      [hidingPage.bytes.take 20, hidingPage.bytes.drop 20]
      (by decide)).mpr
  intro before hBefore
  apply not_hidesPage_of_short
  rcases List.prefix_cons_iff.mp hBefore with
    rfl | ⟨rest, rfl, hRest⟩
  · decide
  · rcases List.prefix_cons_iff.mp hRest with
      rfl | ⟨last, rfl, hLast⟩
    · decide
    · rw [List.prefix_nil.mp hLast]
      decide

end StreamDecoder

end Transcode

end RustyIce
