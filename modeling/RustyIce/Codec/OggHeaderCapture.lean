import RustyIce.Codec.Ogg
import Mathlib.Data.List.Induction

/-
  The accumulator that keeps the leading pages of an Ogg
  stream until a fourth page starts a new packet, fed with
  the stream in pieces of any size.

  Main declarations:
    * `OggHeaderCapture` and `OggHeaderCapture.push`
    * `headPages`
    * `captureAt`
    * `push_captureAt` and `pushes_captureAt`
-/

------------------------------------------------------------
-- The Accumulator
------------------------------------------------------------

namespace RustyIce

def MAX_HEADER_BUFFER : Nat := 64 * 1024

structure OggHeaderCapture where
  buf : Bytes
  cursor : Nat
  freshPacketPages : Nat
  done : Bool
  failed : Bool
deriving DecidableEq, Repr

namespace OggHeaderCapture

def new : OggHeaderCapture where
  buf := []
  cursor := 0
  freshPacketPages := 0
  done := false
  failed := false

def isSettled (cap : OggHeaderCapture) : Bool :=
  cap.done || cap.failed

def headerBytes (cap : OggHeaderCapture) : Option Bytes :=
  if cap.done then some cap.buf else none

/- The capture is given up. -/
def fail (cap : OggHeaderCapture) : OggHeaderCapture :=
  { cap with failed := true, buf := [] }

/- How one turn of the page loop ends. -/
inductive Turn where
| stop (cap : OggHeaderCapture)
| go (cap : OggHeaderCapture)
deriving DecidableEq, Repr

/-
  One turn of the page loop. `rest` is what the buffer holds
  from the cursor on.
-/
def turn (cap : OggHeaderCapture) : Turn :=
  let pageStart := cap.cursor
  let rest := cap.buf.drop pageStart
  if rest.length < 27 then
    .stop cap
  else if rest.take 4 ≠ OGG_MAGIC then
    .stop cap.fail
  else
    let nSegments := (rest.getD 26 0).toNat
    if rest.length < 27 + nSegments then
      .stop cap
    else
      let bodyLen :=
        (((rest.drop 27).take nSegments).map
          UInt8.toNat).sum
      let pageSize := 27 + nSegments + bodyLen
      if rest.length < pageSize then
        .stop cap
      else
        let headerType := rest.getD 5 0
        let isContinuation : Bool := headerType &&& 0x01 ≠ 0
        if isContinuation then
          .go { cap with cursor := pageStart + pageSize }
        else if cap.freshPacketPages ≥ 3 then
          .stop
            { cap with
              buf := cap.buf.take pageStart
              done := true }
        else
          .go
            { cap with
              freshPacketPages := cap.freshPacketPages + 1
              cursor := pageStart + pageSize }

/- A turn that goes on leaves less of the buffer. -/
theorem turn_go_lt
    {cap next : OggHeaderCapture}
    (hTurn : cap.turn = .go next) :
    next.buf.length - next.cursor <
      cap.buf.length - cap.cursor := by
  unfold turn at hTurn
  simp only [List.length_drop] at hTurn
  repeat' split at hTurn
  all_goals cases hTurn
  all_goals
    simp only
    omega

/- The page loop. -/
def scan (cap : OggHeaderCapture) : OggHeaderCapture :=
  match _hTurn : cap.turn with
  | .stop next => next
  | .go next => next.scan
termination_by cap.buf.length - cap.cursor
decreasing_by exact turn_go_lt _hTurn

/- Feed more bytes from the encoded stream. -/
def push
    (cap : OggHeaderCapture)
    (data : Bytes) : OggHeaderCapture :=
  if cap.isSettled then
    cap
  else
    let cap := { cap with buf := cap.buf ++ data }
    if cap.buf.length > MAX_HEADER_BUFFER then
      cap.fail
    else
      cap.scan

theorem scan_stop
    {cap next : OggHeaderCapture}
    (hTurn : cap.turn = .stop next) :
    cap.scan = next := by
  rw [scan]
  split
  · rename_i h
    rw [hTurn] at h
    cases h
    rfl
  · rename_i h
    rw [hTurn] at h
    cases h

theorem scan_go
    {cap next : OggHeaderCapture}
    (hTurn : cap.turn = .go next) :
    cap.scan = next.scan := by
  rw [scan]
  split
  · rename_i h
    rw [hTurn] at h
    cases h
  · rename_i h
    rw [hTurn] at h
    cases h
    rfl

/- Pieces pushed after the capture settled change nothing. -/
theorem push_settled
    {cap : OggHeaderCapture}
    (hSettled : cap.isSettled = true)
    (data : Bytes) :
    cap.push data = cap := by
  rw [push, if_pos hSettled]

end OggHeaderCapture

end RustyIce

------------------------------------------------------------
-- Turns On Well-Formed Pages
------------------------------------------------------------

namespace RustyIce

namespace OggHeaderCapture

/- The turn on a buffer with a whole page at the cursor. -/
theorem turn_page
    {cap : OggHeaderCapture}
    (p : OggPage)
    (rest : Bytes)
    (hRest : cap.buf.drop cap.cursor = p.bytes ++ rest) :
    cap.turn =
      if p.continued then
        .go
          { cap with cursor := cap.cursor + p.bytes.length }
      else if cap.freshPacketPages ≥ 3 then
        .stop
          { cap with
            buf := cap.buf.take cap.cursor
            done := true }
      else
        .go
          { cap with
            freshPacketPages := cap.freshPacketPages + 1
            cursor := cap.cursor + p.bytes.length } := by
  have hLength := p.length_bytes
  have hAll :
      (p.bytes ++ rest).length =
        p.bytes.length + rest.length := List.length_append
  have hHeader : ¬ (p.bytes ++ rest).length < 27 := by omega
  have hTable :
      ¬ (p.bytes ++ rest).length <
        27 + p.lacing.length := by omega
  have hBody :
      ¬ (p.bytes ++ rest).length < p.bytes.length := by omega
  have hMagic :
      ¬ (p.bytes ++ rest).take 4 ≠ OGG_MAGIC := by
    rw [p.take_magic]
    simp
  unfold turn
  simp only [hRest, if_neg hHeader, if_neg hMagic,
    p.getD_segments, if_neg hTable, p.take_lacing,
    ← hLength, if_neg hBody, p.getD_headerType,
    OggPage.continued]
  rfl

/- The turn on a buffer that ends inside the next page. -/
theorem turn_partial
    {cap : OggHeaderCapture}
    {part : Bytes}
    (hRest : cap.buf.drop cap.cursor = part)
    (hPart : Library.Frames.Partial OggPage.bytes part) :
    cap.turn = .stop cap := by
  rcases hPart with ⟨p, ⟨missing, hPrefix⟩, hShort⟩
  have hLength := p.length_bytes
  unfold turn
  simp only [hRest]
  split
  · rfl
  · rename_i hHeader
    have hMagic : part.take 4 = OGG_MAGIC := by
      have hWhole := p.take_magic []
      rw [List.append_nil, ← hPrefix,
        List.take_append_of_le_length (by omega)] at hWhole
      exact hWhole
    have hSegments :
        (part.getD 26 0).toNat = p.lacing.length := by
      have hWhole := p.getD_segments []
      rw [List.append_nil, ← hPrefix,
        List.getD_append _ _ _ _ (by omega)] at hWhole
      exact hWhole
    rw [if_neg (by simpa using hMagic)]
    simp only [hSegments]
    split
    · rfl
    · rename_i hTable
      have hLacing :
          (part.drop 27).take p.lacing.length =
            p.lacing := by
        have hWhole := p.take_lacing []
        rw [List.append_nil, ← hPrefix,
          List.drop_append_of_le_length (by omega),
          List.take_append_of_le_length (by
            rw [List.length_drop]
            omega)] at hWhole
        exact hWhole
      rw [hLacing, if_pos (by omega)]

end OggHeaderCapture

end RustyIce

------------------------------------------------------------
-- The Loop On Well-Formed Pages
------------------------------------------------------------

namespace RustyIce

open Library.Frames

/-
  The pages before the first page that starts a packet when
  three have already, `seen` of them before this list. None
  if the list has no such page.
-/
def headPages : Nat → List OggPage → Option (List OggPage)
| _, [] => none
| seen, p :: pages =>
    if p.continued then
      (headPages seen pages).map (p :: ·)
    else if seen ≥ 3 then
      some []
    else
      (headPages (seen + 1) pages).map (p :: ·)

/- More pages do not move the pages found. -/
theorem headPages_append
    {seen : Nat}
    {pages found : List OggPage}
    (hFound : headPages seen pages = some found)
    (more : List OggPage) :
    headPages seen (pages ++ more) = some found := by
  induction pages generalizing seen found with
  | nil => simp [headPages] at hFound
  | cons p pages ih =>
      rw [headPages] at hFound
      rw [List.cons_append, headPages]
      split at hFound
      · rename_i hContinued
        rw [if_pos hContinued]
        rw [Option.map_eq_some_iff] at hFound
        rcases hFound with ⟨tail, hTail, rfl⟩
        rw [ih hTail]
        rfl
      · rename_i hFresh
        rw [if_neg hFresh]
        split at hFound
        · rename_i hSeen
          rw [if_pos hSeen]
          exact hFound
        · rename_i hSeen
          rw [if_neg hSeen]
          rw [Option.map_eq_some_iff] at hFound
          rcases hFound with ⟨tail, hTail, rfl⟩
          rw [ih hTail]
          rfl

/- The pages found are an initial part of the list. -/
theorem headPages_prefix
    {seen : Nat}
    {pages found : List OggPage}
    (hFound : headPages seen pages = some found) :
    ∃ p later,
      pages = found ++ p :: later ∧
        p.continued = false ∧
          (seen ≤ 3 → seen + freshPages found = 3) := by
  induction pages generalizing seen found with
  | nil => simp [headPages] at hFound
  | cons p pages ih =>
      rw [headPages] at hFound
      split at hFound
      · rename_i hContinued
        rw [Option.map_eq_some_iff] at hFound
        rcases hFound with ⟨tail, hTail, rfl⟩
        rcases ih hTail with
          ⟨stop, later, hPages, hStop, hCount⟩
        refine ⟨stop, later, by rw [hPages]; rfl, hStop, ?_⟩
        intro hSeen
        rw [freshPages_cons, if_pos hContinued]
        exact hCount hSeen
      · rename_i hFresh
        split at hFound
        · rename_i hSeen
          cases hFound
          refine ⟨p, pages, rfl, by simpa using hFresh, ?_⟩
          intro hLow
          rw [freshPages_nil]
          omega
        · rename_i hSeen
          rw [Option.map_eq_some_iff] at hFound
          rcases hFound with ⟨tail, hTail, rfl⟩
          rcases ih hTail with
            ⟨stop, later, hPages, hStop, hCount⟩
          refine
            ⟨stop, later, by rw [hPages]; rfl, hStop, ?_⟩
          intro _
          have hTotal := hCount (by omega)
          rw [freshPages_cons, if_neg hFresh]
          omega

namespace OggHeaderCapture

/-
  The page loop on a buffer of whole pages and part of one:
  it ends before the fourth page that starts a packet, if
  that page is whole, and at the partial page otherwise.
-/
theorem scan_pages
    (front : Bytes)
    (pages : List OggPage)
    (part : Bytes)
    (seen : Nat)
    (hPart : Partial OggPage.bytes part) :
    OggHeaderCapture.scan
        { buf :=
            front ++ (stream OggPage.bytes pages ++ part)
          cursor := front.length
          freshPacketPages := seen
          done := false
          failed := false } =
      match headPages seen pages with
      | some found =>
          { buf := front ++ stream OggPage.bytes found
            cursor :=
              front.length +
                (stream OggPage.bytes found).length
            freshPacketPages := seen + freshPages found
            done := true
            failed := false }
      | none =>
          { buf :=
              front ++ (stream OggPage.bytes pages ++ part)
            cursor :=
              front.length +
                (stream OggPage.bytes pages).length
            freshPacketPages := seen + freshPages pages
            done := false
            failed := false } := by
  induction pages generalizing front seen with
  | nil =>
      apply scan_stop
      refine turn_partial ?_ hPart
      simp
  | cons p pages ih =>
      have hTurn :
          OggHeaderCapture.turn
              { buf :=
                  front ++
                    (stream OggPage.bytes (p :: pages) ++
                      part)
                cursor := front.length
                freshPacketPages := seen
                done := false
                failed := false } = _ :=
        turn_page p (stream OggPage.bytes pages ++ part)
          (by simp)
      have hBuffer :
          front ++
              (stream OggPage.bytes (p :: pages) ++ part) =
            (front ++ p.bytes) ++
              (stream OggPage.bytes pages ++ part) := by
        simp
      have hCursor :
          front.length + p.bytes.length =
            (front ++ p.bytes).length :=
        List.length_append.symm
      rw [headPages]
      by_cases hContinued : p.continued
      · simp only [hContinued, if_true] at hTurn ⊢
        rw [scan_go hTurn]
        simp only [hBuffer, hCursor]
        rw [ih (front ++ p.bytes) seen]
        cases headPages seen pages with
        | some found =>
            simp [freshPages_cons, hContinued, Nat.add_assoc]
        | none =>
            simp [freshPages_cons, hContinued, Nat.add_assoc]
      · simp only [hContinued, Bool.false_eq_true, if_false]
          at hTurn ⊢
        by_cases hSeen : seen ≥ 3
        · simp only [hSeen, if_true] at hTurn ⊢
          rw [scan_stop hTurn]
          simp
        · simp only [hSeen, if_false] at hTurn ⊢
          rw [scan_go hTurn]
          simp only [hBuffer, hCursor]
          rw [ih (front ++ p.bytes) (seen + 1)]
          cases headPages (seen + 1) pages with
          | some found =>
              simp [freshPages_cons, hContinued,
                Nat.add_assoc, Nat.add_comm,
                Nat.add_left_comm]
          | none =>
              simp [freshPages_cons, hContinued,
                Nat.add_assoc, Nat.add_comm,
                Nat.add_left_comm]

end OggHeaderCapture

end RustyIce

------------------------------------------------------------
-- Pieces Of A Stream
------------------------------------------------------------

namespace RustyIce

open Library.Frames

namespace OggHeaderCapture

/-
  The capture after the first `count` bytes of a stream of
  pages, told from the pages complete by then.
-/
def captureAt
    (pages : List OggPage)
    (count : Nat) : OggHeaderCapture :=
  let whole := complete OggPage.bytes count pages
  match headPages 0 whole with
  | some found =>
      { buf := stream OggPage.bytes found
        cursor := (stream OggPage.bytes found).length
        freshPacketPages := freshPages found
        done := true
        failed := false }
  | none =>
      { buf := (stream OggPage.bytes pages).take count
        cursor := (stream OggPage.bytes whole).length
        freshPacketPages := freshPages whole
        done := false
        failed := false }

theorem captureAt_zero (pages : List OggPage) :
    captureAt pages 0 = new := by
  have hNone : complete OggPage.bytes 0 pages = [] := by
    cases pages with
    | nil => rfl
    | cons p pages =>
        have hPos := p.length_bytes_pos
        rw [complete, if_neg (by omega)]
  simp [captureAt, hNone, headPages, new]

theorem captureAt_isSettled
    (pages : List OggPage)
    (count : Nat) :
    (captureAt pages count).isSettled =
      (headPages 0
        (complete OggPage.bytes count pages)).isSome := by
  cases hHead :
      headPages 0 (complete OggPage.bytes count pages) with
  | none => simp [captureAt, isSettled, hHead]
  | some found => simp [captureAt, isSettled, hHead]

theorem captureAt_headerBytes
    (pages : List OggPage)
    (count : Nat) :
    (captureAt pages count).headerBytes =
      (headPages 0
        (complete OggPage.bytes count pages)).map
          (stream OggPage.bytes) := by
  cases hHead :
      headPages 0 (complete OggPage.bytes count pages) with
  | none => simp [captureAt, headerBytes, hHead]
  | some found => simp [captureAt, headerBytes, hHead]

/- The complete pages at a cut, and what follows them. -/
theorem exists_complete_append
    (pages : List OggPage)
    {fewer more : Nat}
    (hMore : fewer ≤ more) :
    ∃ extra,
      complete OggPage.bytes more pages =
        complete OggPage.bytes fewer pages ++ extra := by
  rcases complete_mono OggPage.bytes hMore pages with
    ⟨extra, hExtra⟩
  exact ⟨extra, hExtra.symm⟩

/- Some page takes bytes. -/
theorem exists_page :
    ∃ p : OggPage, 0 < p.bytes.length := by
  refine
    ⟨{ version := 0
       headerType := 0
       granule := Vector.replicate 8 0
       serial := Vector.replicate 4 0
       sequence := Vector.replicate 4 0
       checksum := Vector.replicate 4 0
       lacing := []
       body := []
       segments := by simp
       framed := rfl }, ?_⟩
  exact OggPage.length_bytes_pos _

/-
  Continuing a search: once `seen` pages have started a
  packet in `first`, the search goes on in `second`.
-/
theorem headPages_append_of_none
    {seen : Nat}
    {first : List OggPage}
    (hNone : headPages seen first = none)
    (second : List OggPage) :
    headPages seen (first ++ second) =
      (headPages (seen + freshPages first) second).map
        (first ++ ·) := by
  induction first generalizing seen with
  | nil => simp
  | cons p pages ih =>
      rw [headPages] at hNone
      rw [List.cons_append, headPages]
      split at hNone
      · rename_i hContinued
        rw [Option.map_eq_none_iff] at hNone
        rw [if_pos hContinued, ih hNone, freshPages_cons,
          if_pos hContinued, Option.map_map, Nat.add_zero]
        rfl
      · rename_i hFresh
        rw [if_neg hFresh]
        split at hNone
        · cases hNone
        · rename_i hSeen
          rw [Option.map_eq_none_iff] at hNone
          rw [if_neg hSeen, ih hNone, freshPages_cons,
            if_neg hFresh, Option.map_map]
          have hCount :
              seen + 1 + freshPages pages =
                seen + (freshPages pages + 1) := by
            omega
          rw [hCount]
          rfl

/-
  Pushing the next piece of the stream, within the buffer
  limit, takes the capture at one cut to the capture at the
  next: the bytes buffered so far are complete pages up to
  the cursor, and the loop resumes there.
-/
theorem push_captureAt
    (pages : List OggPage)
    (count : Nat)
    (data : Bytes)
    (hData :
      (stream OggPage.bytes pages).take
          (count + data.length) =
        (stream OggPage.bytes pages).take count ++ data)
    (hCap :
      (captureAt pages count).isSettled = false →
        ((stream OggPage.bytes pages).take
          (count + data.length)).length ≤
            MAX_HEADER_BUFFER) :
    (captureAt pages count).push data =
      captureAt pages (count + data.length) := by
  rcases exists_complete_append pages
      (Nat.le_add_right count data.length) with
    ⟨extra, hExtra⟩
  cases hHead :
      headPages 0 (complete OggPage.bytes count pages) with
  | some found =>
      have hSettled :
          (captureAt pages count).isSettled = true := by
        rw [captureAt_isSettled, hHead]
        rfl
      rw [push_settled hSettled]
      simp only [captureAt, hExtra, hHead,
        headPages_append hHead]
  | none =>
      have hOpen :
          (captureAt pages count).isSettled = false := by
        rw [captureAt_isSettled, hHead]
        rfl
      have hFits := hCap hOpen
      rcases take_stream OggPage.bytes (count + data.length)
          pages exists_page with ⟨part, hTake, hPart⟩
      have hBuffer :
          (captureAt pages count).buf ++ data =
            stream OggPage.bytes
                (complete OggPage.bytes count pages) ++
              (stream OggPage.bytes extra ++ part) := by
        have hBuf :
            (captureAt pages count).buf =
              (stream OggPage.bytes pages).take count := by
          simp only [captureAt, hHead]
        rw [hBuf, ← hData, hTake, hExtra, stream_append,
          List.append_assoc]
      have hLength :
          ¬ ((captureAt pages count).buf ++ data).length >
            MAX_HEADER_BUFFER := by
        have hBuf :
            (captureAt pages count).buf =
              (stream OggPage.bytes pages).take count := by
          simp only [captureAt, hHead]
        rw [hBuf, ← hData]
        omega
      have hScan :=
        scan_pages
          (stream OggPage.bytes
            (complete OggPage.bytes count pages))
          extra part
          (freshPages (complete OggPage.bytes count pages))
          hPart
      have hResume :
          (captureAt pages count).push data =
            OggHeaderCapture.scan
              { buf :=
                  stream OggPage.bytes
                      (complete OggPage.bytes count pages) ++
                    (stream OggPage.bytes extra ++ part)
                cursor :=
                  (stream OggPage.bytes
                    (complete OggPage.bytes count
                      pages)).length
                freshPacketPages :=
                  freshPages
                    (complete OggPage.bytes count pages)
                done := false
                failed := false } := by
        rw [push, if_neg (by rw [hOpen]; decide)]
        rw [hBuffer] at hLength
        simp only [hBuffer]
        rw [if_neg hLength]
        simp only [captureAt, hHead]
      have hNext :=
        headPages_append_of_none hHead extra
      rw [Nat.zero_add] at hNext
      rw [hResume, hScan]
      simp only [captureAt, hExtra, hNext]
      cases
        headPages
          (freshPages (complete OggPage.bytes count pages))
          extra with
      | some found => simp
      | none => simp [hTake, hExtra, List.append_assoc]

/- Feed the pieces of a stream one after the other. -/
def pushes
    (cap : OggHeaderCapture)
    (pieces : List Bytes) : OggHeaderCapture :=
  pieces.foldl push cap

/-
  The pieces of an initial part of the stream, cut so that
  the buffer stays within its limit until the capture
  settles.
-/
def KeepsWithin
    (pages : List OggPage)
    (pieces : List Bytes) : Prop :=
  pieces.flatten <+: stream OggPage.bytes pages ∧
    ∀ before data,
      before ++ [data] <+: pieces →
        (new.pushes before).isSettled = false →
          before.flatten.length + data.length ≤
            MAX_HEADER_BUFFER

theorem take_flatten
    {pages : List OggPage}
    {pieces : List Bytes}
    (hPrefix :
      pieces.flatten <+: stream OggPage.bytes pages) :
    (stream OggPage.bytes pages).take pieces.flatten.length =
      pieces.flatten :=
  (List.prefix_iff_eq_take.mp hPrefix).symm

/-
  However the stream is cut, the capture is the one of the
  bytes pushed so far.
-/
theorem pushes_captureAt
    {pages : List OggPage}
    {pieces : List Bytes}
    (hWithin : KeepsWithin pages pieces) :
    new.pushes pieces =
      captureAt pages pieces.flatten.length := by
  induction pieces using List.reverseRecOn with
  | nil => exact (captureAt_zero pages).symm
  | append_singleton before data ih =>
      rcases hWithin with ⟨hPrefix, hCap⟩
      have hSplit :
          (before ++ [data]).flatten =
            before.flatten ++ data := by
        simp
      have hBefore :
          before.flatten <+: stream OggPage.bytes pages := by
        rw [hSplit] at hPrefix
        exact (List.prefix_append _ _).trans hPrefix
      have hEarlier :=
        ih
          ⟨hBefore, by
            intro front piece hFront hOpen
            exact
              hCap front piece
                (hFront.trans (List.prefix_append _ _))
                hOpen⟩
      have hLength :
          before.flatten.length + data.length =
            (before ++ [data]).flatten.length := by
        rw [hSplit, List.length_append]
      have hPush :
          new.pushes (before ++ [data]) =
            (new.pushes before).push data := by
        simp [pushes]
      rw [hPush, hEarlier, ← hLength]
      apply push_captureAt
      · rw [take_flatten hBefore, hLength,
          take_flatten hPrefix, hSplit]
      · intro hOpen
        have hPiece :=
          hCap before data List.prefix_rfl
            (by rw [hEarlier]; exact hOpen)
        rw [List.length_take]
        omega

end OggHeaderCapture

end RustyIce
