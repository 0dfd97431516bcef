import RustyIce.Codec.OggHeaderCapture

/-
  The header capture on any bytes, in any pieces: what it
  depends on besides the bytes.

  Within the buffer limit a capture is that of the bytes
  pushed so far. The limit itself is checked before a piece
  is looked at, and so against more bytes than the headers
  take.

  Main declarations:
    * `turn_cases`, `scan_extend`
    * `wholeCapture`, `pushes_within`
    * `CaptureOutcome`, `SplitFree`
    * `splitFree_iff`
-/

------------------------------------------------------------
-- Turns On Any Bytes
------------------------------------------------------------

namespace RustyIce

namespace OggHeaderCapture

open Library.Frames

/- The same capture with more bytes in its buffer. -/
def extend
    (cap : OggHeaderCapture)
    (data : Bytes) : OggHeaderCapture :=
  { cap with buf := cap.buf ++ data }

@[simp] theorem extend_freshPacketPages
    (cap : OggHeaderCapture)
    (data : Bytes) :
    (cap.extend data).freshPacketPages =
      cap.freshPacketPages := rfl

/-
  A turn waits for more bytes, meets something else than a
  page, or has a whole page at its cursor.
-/
theorem turn_cases (cap : OggHeaderCapture) :
    cap.turn = .stop cap ∨
      (27 ≤ (cap.buf.drop cap.cursor).length ∧
        (cap.buf.drop cap.cursor).take 4 ≠ OGG_MAGIC) ∨
      ∃ p rest,
        cap.buf.drop cap.cursor = OggPage.bytes p ++ rest := by
  unfold turn
  simp only
  split
  · exact .inl rfl
  · rename_i hHeader
    split
    · rename_i hMagic
      exact .inr (.inl ⟨by omega, hMagic⟩)
    · rename_i hMagic
      split
      · exact .inl rfl
      · rename_i hTable
        split
        · exact .inl rfl
        · rename_i hBody
          have hSize :=
            oggPageSize_of_table (by omega)
              (Decidable.not_not.mp hMagic) hTable
          rcases exists_page_of_size hSize (by omega) with
            ⟨p, rest, hRest, _⟩
          exact .inr (.inr ⟨p, rest, hRest⟩)

theorem turn_fail
    {cap : OggHeaderCapture}
    (hLong : 27 ≤ (cap.buf.drop cap.cursor).length)
    (hMagic :
      (cap.buf.drop cap.cursor).take 4 ≠ OGG_MAGIC) :
    cap.turn = .stop cap.fail := by
  unfold turn
  simp only
  rw [if_neg (by omega), if_pos hMagic]

/- The page at a cursor, when more bytes are behind it. -/
theorem drop_extend_page
    {cap : OggHeaderCapture}
    {p : OggPage}
    {rest : Bytes}
    (hRest : cap.buf.drop cap.cursor = p.bytes ++ rest)
    (data : Bytes) :
    cap.cursor ≤ cap.buf.length ∧
      (cap.extend data).buf.drop (cap.extend data).cursor =
        p.bytes ++ (rest ++ data) := by
  have hLength := congrArg List.length hRest
  have hPos := p.length_bytes_pos
  rw [List.length_drop, List.length_append] at hLength
  have hInside : cap.cursor ≤ cap.buf.length := by omega
  refine ⟨hInside, ?_⟩
  rw [← List.append_assoc, ← hRest]
  exact List.drop_append_of_le_length hInside

/- What a turn settles, it settles with more bytes too. -/
theorem turn_extend_stop
    {cap next : OggHeaderCapture}
    (hTurn : cap.turn = .stop next)
    (hNext : next ≠ cap)
    (data : Bytes) :
    (cap.extend data).turn = .stop next := by
  rcases turn_cases cap with
    hWait | ⟨hLong, hMagic⟩ | ⟨p, rest, hRest⟩
  · rw [hWait] at hTurn
    cases hTurn
    exact absurd rfl hNext
  · rw [turn_fail hLong hMagic] at hTurn
    cases hTurn
    have hDrop :
        (cap.buf ++ data).drop cap.cursor =
          cap.buf.drop cap.cursor ++ data := by
      rw [List.length_drop] at hLong
      exact List.drop_append_of_le_length (by omega)
    refine turn_fail ?_ ?_
    · rw [extend, hDrop, List.length_append]
      omega
    · rw [extend, hDrop,
        List.take_append_of_le_length (by omega)]
      exact hMagic
  · rcases drop_extend_page hRest data with ⟨hInside, hDrop⟩
    rw [turn_page p rest hRest] at hTurn
    rw [turn_page p (rest ++ data) hDrop]
    split at hTurn
    · cases hTurn
    · rename_i hFresh
      rw [if_neg hFresh]
      split at hTurn
      · rename_i hFourth
        cases hTurn
        rw [extend_freshPacketPages, if_pos hFourth]
        simp only [extend,
          List.take_append_of_le_length hInside]
      · cases hTurn

/- A turn that goes on goes on with more bytes too. -/
theorem turn_extend_go
    {cap next : OggHeaderCapture}
    (hTurn : cap.turn = .go next)
    (data : Bytes) :
    (cap.extend data).turn = .go (next.extend data) := by
  rcases turn_cases cap with
    hWait | ⟨hLong, hMagic⟩ | ⟨p, rest, hRest⟩
  · rw [hWait] at hTurn
    cases hTurn
  · rw [turn_fail hLong hMagic] at hTurn
    cases hTurn
  · rcases drop_extend_page hRest data with ⟨_, hDrop⟩
    rw [turn_page p rest hRest] at hTurn
    rw [turn_page p (rest ++ data) hDrop]
    split at hTurn
    · rename_i hContinued
      cases hTurn
      rw [if_pos hContinued]
      rfl
    · rename_i hFresh
      rw [if_neg hFresh]
      split at hTurn
      · cases hTurn
      · rename_i hFourth
        cases hTurn
        rw [extend_freshPacketPages, if_neg hFourth]
        rfl

/- A turn that stops leaves the capture or settles it. -/
theorem turn_stop_cases
    {cap next : OggHeaderCapture}
    (hTurn : cap.turn = .stop next) :
    next = cap ∨ next.isSettled = true := by
  unfold turn at hTurn
  simp only at hTurn
  repeat' split at hTurn
  all_goals cases hTurn
  all_goals simp [isSettled, fail]

end OggHeaderCapture

end RustyIce

------------------------------------------------------------
-- The Loop On Any Bytes
------------------------------------------------------------

namespace RustyIce

namespace OggHeaderCapture

open Library.Frames

theorem isSettled_go
    {cap next : OggHeaderCapture}
    (hTurn : cap.turn = .go next) :
    next.isSettled = cap.isSettled ∧ next.buf = cap.buf := by
  unfold turn at hTurn
  simp only at hTurn
  repeat' split at hTurn
  all_goals cases hTurn
  all_goals exact ⟨rfl, rfl⟩

/- Until it settles, a capture keeps all of its bytes. -/
theorem scan_buf
    (cap : OggHeaderCapture)
    (hOpen : cap.scan.isSettled = false) :
    cap.scan.buf = cap.buf := by
  induction cap using scan.induct with
  | case1 cap next hTurn =>
      rw [scan_stop hTurn] at hOpen ⊢
      rcases turn_stop_cases hTurn with rfl | hSettled
      · rfl
      · rw [hSettled] at hOpen
        cases hOpen
  | case2 cap next hTurn ih =>
      rw [scan_go hTurn] at hOpen ⊢
      rw [ih hOpen, (isSettled_go hTurn).2]

/-
  The loop on more bytes: it stops where it settled, or goes
  on where it waited.
-/
theorem scan_extend
    (cap : OggHeaderCapture)
    (hOpen : cap.isSettled = false)
    (data : Bytes) :
    (cap.extend data).scan =
      if cap.scan.isSettled then cap.scan
      else (cap.scan.extend data).scan := by
  induction cap using scan.induct with
  | case1 cap next hTurn =>
      rw [scan_stop hTurn]
      by_cases hSame : next = cap
      · rw [hSame, hOpen]
        rfl
      · have hSettled :=
          (turn_stop_cases hTurn).resolve_left hSame
        rw [if_pos hSettled]
        exact scan_stop (turn_extend_stop hTurn hSame data)
  | case2 cap next hTurn ih =>
      rw [scan_go hTurn, scan_go (turn_extend_go hTurn data)]
      exact ih ((isSettled_go hTurn).1.trans hOpen)

/-
  A loop that captures has seen the pages that take it to
  the fourth one that starts a packet.
-/
theorem pages_of_scan_done
    (cap : OggHeaderCapture)
    (hOpen : cap.done = false)
    (hDone : cap.scan.done = true) :
    ∃ pages rest,
      cap.buf.drop cap.cursor =
          stream OggPage.bytes pages ++ rest ∧
        4 ≤ cap.freshPacketPages + freshPages pages := by
  induction cap using scan.induct with
  | case1 cap next hTurn =>
      rw [scan_stop hTurn] at hDone
      rcases turn_cases cap with
        hWait | ⟨hLong, hMagic⟩ | ⟨p, rest, hRest⟩
      · rw [hWait] at hTurn
        cases hTurn
        rw [hOpen] at hDone
        cases hDone
      · rw [turn_fail hLong hMagic] at hTurn
        cases hTurn
        rw [fail, hOpen] at hDone
        cases hDone
      · rw [turn_page p rest hRest] at hTurn
        split at hTurn
        · cases hTurn
        · rename_i hFresh
          split at hTurn
          · rename_i hFourth
            refine ⟨[p], rest, by simpa using hRest, ?_⟩
            rw [freshPages_cons, if_neg hFresh,
              freshPages_nil]
            omega
          · cases hTurn
  | case2 cap next hTurn ih =>
      rw [scan_go hTurn] at hDone
      rcases turn_cases cap with
        hWait | ⟨hLong, hMagic⟩ | ⟨p, rest, hRest⟩
      · rw [hWait] at hTurn
        cases hTurn
      · rw [turn_fail hLong hMagic] at hTurn
        cases hTurn
      · have hBehind :
            cap.buf.drop (cap.cursor + p.bytes.length) =
              rest := by
          rw [← List.drop_drop, hRest, List.drop_left]
        rw [turn_page p rest hRest] at hTurn
        split at hTurn
        · rename_i hContinued
          cases hTurn
          rcases ih hOpen hDone with ⟨pages, tail, hTail, hCount⟩
          refine ⟨p :: pages, tail, ?_, ?_⟩
          · rw [hBehind] at hTail
            rw [hRest, hTail, stream_cons, List.append_assoc]
          · rw [freshPages_cons, if_pos hContinued]
            exact hCount
        · rename_i hFresh
          split at hTurn
          · cases hTurn
          · cases hTurn
            rcases ih hOpen hDone with
              ⟨pages, tail, hTail, hCount⟩
            refine ⟨p :: pages, tail, ?_, ?_⟩
            · rw [hBehind] at hTail
              rw [hRest, hTail, stream_cons,
                List.append_assoc]
            · rw [freshPages_cons, if_neg hFresh]
              simp only at hCount
              omega

end OggHeaderCapture

end RustyIce

------------------------------------------------------------
-- Within The Limit
------------------------------------------------------------

namespace RustyIce

namespace OggHeaderCapture

open Library.Frames

/- The capture of bytes in one piece, without a limit. -/
def wholeCapture (data : Bytes) : OggHeaderCapture :=
  scan { new with buf := data }

theorem wholeCapture_nil : wholeCapture [] = new := by
  apply scan_stop
  simp [turn, new]

/- What bytes settle stays settled behind them. -/
theorem wholeCapture_append (first second : Bytes) :
    wholeCapture (first ++ second) =
      if (wholeCapture first).isSettled then
        wholeCapture first
      else
        ((wholeCapture first).extend second).scan :=
  scan_extend { new with buf := first } rfl second

/- A piece is looked at if it fits the buffer. -/
theorem push_fitting
    {cap : OggHeaderCapture}
    {data : Bytes}
    (hOpen : cap.isSettled = false)
    (hFits :
      (cap.buf ++ data).length ≤ MAX_HEADER_BUFFER) :
    cap.push data = (cap.extend data).scan := by
  rw [push, if_neg (by rw [hOpen]; decide)]
  exact if_neg (Nat.not_lt.mpr hFits)

theorem push_overlong
    {cap : OggHeaderCapture}
    {data : Bytes}
    (hOpen : cap.isSettled = false)
    (hLong :
      MAX_HEADER_BUFFER < (cap.buf ++ data).length) :
    cap.push data = cap.fail := by
  rw [push, if_neg (by rw [hOpen]; decide)]
  exact if_pos hLong

/-
  As long as everything pushed fits the buffer, the capture
  is that of the bytes pushed, however they were cut.
-/
theorem pushes_within
    {pieces : List Bytes}
    (hFits : pieces.flatten.length ≤ MAX_HEADER_BUFFER) :
    new.pushes pieces = wholeCapture pieces.flatten := by
  induction pieces using List.reverseRecOn with
  | nil => exact wholeCapture_nil.symm
  | append_singleton before data ih =>
      rw [List.flatten_append, List.flatten_singleton,
        List.length_append] at hFits
      have hPush :
          new.pushes (before ++ [data]) =
            (new.pushes before).push data := by
        simp [pushes]
      rw [hPush, ih (by omega), List.flatten_append,
        List.flatten_singleton, wholeCapture_append]
      by_cases hSettled :
          (wholeCapture before.flatten).isSettled = true
      · rw [push_settled hSettled, if_pos hSettled]
      · have hOpen := eq_false_of_ne_true hSettled
        have hBuf :
            (wholeCapture before.flatten).buf =
              before.flatten :=
          scan_buf _ hOpen
        rw [if_neg hSettled]
        apply push_fitting hOpen
        rw [hBuf, List.length_append]
        exact hFits

end OggHeaderCapture

end RustyIce

------------------------------------------------------------
-- Beyond The Limit
------------------------------------------------------------

namespace RustyIce

namespace OggHeaderCapture

open Library.Frames

/- Bytes that do not capture never capture behind the limit. -/
theorem pushes_beyond
    {pieces : List Bytes}
    (hLong : MAX_HEADER_BUFFER < pieces.flatten.length)
    (hNone :
      ∀ front, front <+: pieces.flatten →
        front.length ≤ MAX_HEADER_BUFFER →
          (wholeCapture front).done = false) :
    (new.pushes pieces).done = false ∧
      (new.pushes pieces).failed = true := by
  induction pieces using List.reverseRecOn with
  | nil => exact absurd hLong (by decide)
  | append_singleton before data ih =>
      have hPush :
          new.pushes (before ++ [data]) =
            (new.pushes before).push data := by
        simp [pushes]
      rw [List.flatten_append, List.flatten_singleton]
        at hLong hNone
      rw [hPush]
      by_cases hBefore :
          before.flatten.length ≤ MAX_HEADER_BUFFER
      · have hDone :=
          hNone _ (List.prefix_append _ _) hBefore
        rw [pushes_within hBefore]
        by_cases hSettled :
            (wholeCapture before.flatten).isSettled = true
        · rw [push_settled hSettled]
          rw [isSettled, hDone, Bool.false_or] at hSettled
          exact ⟨hDone, hSettled⟩
        · have hOpen := eq_false_of_ne_true hSettled
          have hBuf :
              (wholeCapture before.flatten).buf =
                before.flatten :=
            scan_buf _ hOpen
          rw [push_overlong hOpen (by rw [hBuf]; exact hLong)]
          exact ⟨hDone, rfl⟩
      · have hFailed :=
          ih (by omega) fun front hFront hFits =>
            hNone front
              (hFront.trans (List.prefix_append _ _)) hFits
        have hSettled :
            (new.pushes before).isSettled = true := by
          rw [isSettled, hFailed.2, Bool.or_true]
        rw [push_settled hSettled]
        exact hFailed

/- No fourth start among the pages, no capture. -/
theorem headPages_isSome
    {seen : Nat}
    {pages : List OggPage}
    (hSeen : seen ≤ 3)
    (hFour : 4 ≤ seen + freshPages pages) :
    (headPages seen pages).isSome := by
  induction pages generalizing seen with
  | nil =>
      rw [freshPages_nil] at hFour
      omega
  | cons p pages ih =>
      rw [freshPages_cons] at hFour
      rw [headPages]
      split
      · rename_i hContinued
        rw [if_pos hContinued] at hFour
        rw [Option.isSome_map]
        exact ih hSeen hFour
      · rename_i hFresh
        rw [if_neg hFresh] at hFour
        split
        · rfl
        · rename_i hFourth
          rw [Option.isSome_map]
          exact ih (by omega) (by omega)

/- Four pages that start a packet are captured. -/
theorem done_of_pages
    {pages : List OggPage}
    (hFour : 4 ≤ freshPages pages) :
    (wholeCapture (stream OggPage.bytes pages)).done =
      true := by
  have hPart : Partial OggPage.bytes [] := by
    rcases exists_page with ⟨p, hPos⟩
    exact ⟨p, List.nil_prefix, hPos⟩
  have hScan := scan_pages [] pages [] 0 hPart
  simp only [List.nil_append, List.append_nil,
    List.length_nil] at hScan
  have hHead : (headPages 0 pages).isSome :=
    headPages_isSome (by omega) (by omega)
  rcases Option.isSome_iff_exists.mp hHead with
    ⟨found, hFound⟩
  rw [hFound] at hScan
  exact congrArg OggHeaderCapture.done hScan

end OggHeaderCapture

end RustyIce

------------------------------------------------------------
-- Two Splittings
------------------------------------------------------------

namespace RustyIce

open Library.Frames

inductive CaptureOutcome where
| settled (headers : Bytes)
| failed
| collecting
deriving DecidableEq, Repr

namespace OggHeaderCapture

/- What is seen of a capture from outside. -/
def outcome (cap : OggHeaderCapture) : CaptureOutcome :=
  match cap.headerBytes with
  | some headers => .settled headers
  | none => if cap.isSettled then .failed else .collecting

/-
  All splittings of a stream end alike, and pieces that come
  after a capture settled change nothing.
-/
structure SplitFree (data : Bytes) : Prop where
  alike :
    ∀ first second : List Bytes,
      first.flatten = data →
        second.flatten = data →
          (new.pushes first).outcome =
            (new.pushes second).outcome
  kept :
    ∀ pieces more : List Bytes,
      pieces.flatten = data →
        (new.pushes pieces).isSettled = true →
          new.pushes (pieces ++ more) = new.pushes pieces

/-
  A stream longer than the buffer that begins with whole
  pages, four of which start a packet, within the buffer.
-/
def HeadersThenOverrun (data : Bytes) : Prop :=
  MAX_HEADER_BUFFER < data.length ∧
    ∃ pages rest,
      data = stream OggPage.bytes pages ++ rest ∧
        (stream OggPage.bytes pages).length ≤
          MAX_HEADER_BUFFER ∧
        4 ≤ freshPages pages

theorem pushes_settled
    {cap : OggHeaderCapture}
    (hSettled : cap.isSettled = true)
    (more : List Bytes) :
    cap.pushes more = cap := by
  induction more with
  | nil => rfl
  | cons data more ih =>
      rw [pushes, List.foldl_cons, push_settled hSettled]
      exact ih

/- The whole stream in one piece, or cut behind its pages. -/
theorem outcomes_of_overrun
    {data : Bytes}
    (hOver : HeadersThenOverrun data) :
    ∃ first second : List Bytes,
      first.flatten = data ∧ second.flatten = data ∧
        (new.pushes first).outcome ≠
          (new.pushes second).outcome := by
  rcases hOver with ⟨hLong, pages, rest, rfl, hFits, hFour⟩
  refine
    ⟨[stream OggPage.bytes pages ++ rest],
      [stream OggPage.bytes pages, rest], by simp, by simp, ?_⟩
  have hFailed :
      (new.pushes
        [stream OggPage.bytes pages ++ rest]).outcome =
          .failed := by
    rw [pushes, List.foldl_cons, List.foldl_nil,
      push_overlong rfl hLong]
    rfl
  have hDone := done_of_pages hFour
  have hFirst :
      new.pushes [stream OggPage.bytes pages] =
        wholeCapture (stream OggPage.bytes pages) := by
    have hWithin :
        new.pushes [stream OggPage.bytes pages] =
          wholeCapture
            [stream OggPage.bytes pages].flatten :=
      pushes_within (by simpa using hFits)
    rw [hWithin, List.flatten_singleton]
  have hSettled :
      (new.pushes [stream OggPage.bytes pages]).isSettled =
        true := by
    rw [hFirst, isSettled, hDone, Bool.true_or]
  have hSecond :
      new.pushes [stream OggPage.bytes pages, rest] =
        wholeCapture (stream OggPage.bytes pages) := by
    have hMore := pushes_settled hSettled [rest]
    rw [← hFirst, ← hMore]
    rfl
  rw [hFailed, hSecond, outcome, headerBytes, if_pos hDone]
  exact CaptureOutcome.noConfusion

/- How a stream is cut shows only behind the limit. -/
theorem splitFree_iff (data : Bytes) :
    SplitFree data ↔ ¬ HeadersThenOverrun data := by
  constructor
  · intro hFree hOver
    rcases outcomes_of_overrun hOver with
      ⟨first, second, hFirst, hSecond, hApart⟩
    exact hApart (hFree.alike first second hFirst hSecond)
  · intro hNot
    constructor
    · intro first second hFirst hSecond
      by_cases hFits : data.length ≤ MAX_HEADER_BUFFER
      · rw [pushes_within (by rw [hFirst]; exact hFits),
          pushes_within (by rw [hSecond]; exact hFits),
          hFirst, hSecond]
      · have hNone :
            ∀ front, front <+: data →
              front.length ≤ MAX_HEADER_BUFFER →
                (wholeCapture front).done = false := by
          intro front hFront hShort
          rw [← Bool.not_eq_true]
          intro hDone
          rcases pages_of_scan_done _ rfl hDone with
            ⟨pages, rest, hPages, hFour⟩
          rcases hFront with ⟨behind, hBehind⟩
          simp only [new, List.drop_zero] at hPages
          refine
            hNot
              ⟨by omega, pages, rest ++ behind, ?_, ?_, ?_⟩
          · rw [← hBehind, hPages, List.append_assoc]
          · rw [hPages, List.length_append] at hShort
            omega
          · simp only [new] at hFour
            omega
        have hEnd :
            ∀ pieces : List Bytes, pieces.flatten = data →
              (new.pushes pieces).outcome = .failed := by
          intro pieces hPieces
          rcases pushes_beyond
              (by rw [hPieces]; omega)
              (by rw [hPieces]; exact hNone) with
            ⟨hDone, hFailed⟩
          rw [outcome, headerBytes, hDone, isSettled,
            hFailed, Bool.or_true]
          rfl
        rw [hEnd first hFirst, hEnd second hSecond]
    · intro pieces more _ hSettled
      rw [pushes, List.foldl_append]
      exact pushes_settled hSettled more

/- An empty page that starts a packet. -/
def emptyPage : OggPage where
  version := 0
  headerType := 0
  granule := Vector.replicate 8 0
  serial := Vector.replicate 4 0
  sequence := Vector.replicate 4 0
  checksum := Vector.replicate 4 0
  lacing := []
  body := []
  segments := by simp
  framed := rfl

/- Four pages, and as much as the buffer holds behind them. -/
def overrunStream : Bytes :=
  stream OggPage.bytes (List.replicate 4 emptyPage) ++
    List.replicate MAX_HEADER_BUFFER 0

theorem overrunStream_not_splitFree :
    ¬ SplitFree overrunStream := by
  have hLength :
      (stream OggPage.bytes
        (List.replicate 4 emptyPage)).length = 108 := by
    decide
  have hOver : HeadersThenOverrun overrunStream := by
    refine ⟨?_, _, _, rfl, ?_, by decide⟩
    · rw [overrunStream, List.length_append, hLength,
        List.length_replicate]
      omega
    · rw [hLength]
      decide
  intro hFree
  rcases outcomes_of_overrun hOver with
    ⟨first, second, hFirst, hSecond, hApart⟩
  exact hApart (hFree.alike first second hFirst hSecond)

end OggHeaderCapture

end RustyIce
