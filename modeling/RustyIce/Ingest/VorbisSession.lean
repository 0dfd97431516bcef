import RustyIce.Ingest.Publish

/-
  A session broadcasting a chained Ogg Vorbis stream: which
  header pages a listener is primed with while a page of
  audio goes out.

  Main declarations:
    * `BroadcastSession`
    * `headerBytes_published_iff`
    * `BroadcastSession.HeadersMatch`
    * `BroadcastSession.OneHeader`
    * `headersMatch_iff_oneHeader`
-/

------------------------------------------------------------
-- Header Bytes Within The Buffer Limit
------------------------------------------------------------

namespace RustyIce

open Library.Frames OggHeaderCapture

/-
  The pages that come before the fourth that starts a
  packet, once that page is complete within the buffer
  limit: what a capture can keep of these pieces.
-/
def HeadersWithin
    (pages : List OggPage)
    (pieces : List Bytes)
    (found : List OggPage) : Prop :=
  ∃ front,
    front <+: pieces ∧
      front.flatten.length ≤ MAX_HEADER_BUFFER ∧
        headPages 0
            (complete OggPage.bytes front.flatten.length
              pages) =
          some found

theorem flatten_mono
    {front pieces : List Bytes}
    (hFront : front <+: pieces) :
    front.flatten <+: pieces.flatten := by
  rcases hFront with ⟨rest, rfl⟩
  rw [List.flatten_append]
  exact List.prefix_append _ _

/- Pieces that stay below the limit keep within it. -/
theorem keepsWithin_of_length
    {pages : List OggPage}
    {pieces : List Bytes}
    (hPrefix :
      pieces.flatten <+: stream OggPage.bytes pages)
    (hLength : pieces.flatten.length ≤ MAX_HEADER_BUFFER) :
    KeepsWithin pages pieces := by
  refine ⟨hPrefix, ?_⟩
  intro before data hCut _
  have hShort := (flatten_mono hCut).length_le
  rw [List.flatten_append, List.length_append] at hShort
  simp only [List.flatten_cons, List.flatten_nil,
    List.append_nil] at hShort
  omega

theorem pushes_snoc
    (pieces : List Bytes)
    (data : Bytes) :
    new.pushes (pieces ++ [data]) =
      (new.pushes pieces).push data := by
  simp [pushes]

/- A settled capture is not changed by later pieces. -/
theorem pushes_settled
    {front pieces : List Bytes}
    (hFront : front <+: pieces)
    (hSettled : (new.pushes front).isSettled = true) :
    new.pushes pieces = new.pushes front := by
  rcases hFront with ⟨rest, rfl⟩
  induction rest using List.reverseRecOn with
  | nil => rw [List.append_nil]
  | append_singleton rest data ih =>
      rw [← List.append_assoc, pushes_snoc, ih,
        push_settled hSettled]

/- A push beyond the limit gives the capture up. -/
theorem push_overflow
    {cap : OggHeaderCapture}
    (data : Bytes)
    (hOpen : cap.isSettled = false)
    (hLong :
      MAX_HEADER_BUFFER < cap.buf.length + data.length) :
    (cap.push data).isSettled = true ∧
      (cap.push data).done = false := by
  have hDone : cap.done = false := by
    unfold isSettled at hOpen
    simp at hOpen
    exact hOpen.1
  have hGt :
      (cap.buf ++ data).length > MAX_HEADER_BUFFER := by
    rw [List.length_append]
    exact hLong
  have hPush :
      cap.push data =
        { cap with failed := true, buf := [] } := by
    rw [push, if_neg (by rw [hOpen]; decide)]
    simp only [hGt, if_true, fail]
  rw [hPush]
  exact ⟨by simp [isSettled], hDone⟩

theorem captureAt_buf
    {pages : List OggPage}
    {count : Nat}
    (hOpen : (captureAt pages count).isSettled = false) :
    (captureAt pages count).buf =
      (stream OggPage.bytes pages).take count := by
  rw [captureAt_isSettled, Option.isSome_eq_false_iff,
    Option.isNone_iff_eq_none] at hOpen
  simp only [captureAt, hOpen]

/-
  A capture that is open or that succeeded never went over
  the limit.
-/
theorem keepsWithin_of_not_failed
    {pages : List OggPage}
    {pieces : List Bytes}
    (hPrefix :
      pieces.flatten <+: stream OggPage.bytes pages)
    (hState :
      (new.pushes pieces).isSettled = false ∨
        (new.pushes pieces).done = true) :
    KeepsWithin pages pieces := by
  induction pieces using List.reverseRecOn with
  | nil =>
      exact
        keepsWithin_of_length hPrefix
          (by simp [MAX_HEADER_BUFFER])
  | append_singleton before data ih =>
      have hBefore :
          before.flatten <+: stream OggPage.bytes pages :=
        (flatten_mono (List.prefix_append _ _)).trans
          hPrefix
      -- Cuts before the last piece are those of `before`.
      have hExtend :
          KeepsWithin pages before →
            ((new.pushes before).isSettled = false →
              before.flatten.length + data.length ≤
                MAX_HEADER_BUFFER) →
              KeepsWithin pages (before ++ [data]) := by
        intro hWithin hLast
        refine ⟨hPrefix, ?_⟩
        intro front piece hCut hOpen
        rcases List.prefix_concat_iff.mp hCut with
          hAll | hEarlier
        · have hParts := List.append_inj' hAll rfl
          rw [List.cons.injEq] at hParts
          rw [hParts.1] at hOpen ⊢
          rw [hParts.2.1]
          exact hLast hOpen
        · exact hWithin.2 front piece hEarlier hOpen
      rw [pushes_snoc] at hState
      cases hOpen : (new.pushes before).isSettled with
      | true =>
          rw [push_settled hOpen, hOpen] at hState
          rcases hState with hFalse | hDone
          · cases hFalse
          · apply hExtend (ih hBefore (Or.inr hDone))
            intro hFalse
            rw [hOpen] at hFalse
            cases hFalse
      | false =>
          have hWithin := ih hBefore (Or.inl hOpen)
          apply hExtend hWithin
          intro _
          by_contra hLong
          have hCapture := pushes_captureAt hWithin
          have hBuf :
              (new.pushes before).buf.length =
                before.flatten.length := by
            rw [hCapture, captureAt_buf
              (by rw [← hCapture]; exact hOpen),
              take_flatten hBefore]
          rcases push_overflow data hOpen (by omega) with
            ⟨hSettled, hNotDone⟩
          rw [hSettled, hNotDone] at hState
          rcases hState with hFalse | hFalse
          · cases hFalse
          · cases hFalse

/-
  What a capture has to offer after some pieces of a stream
  of pages.
-/
theorem headerBytes_pushes_iff
    {pages : List OggPage}
    {pieces : List Bytes}
    (hPrefix :
      pieces.flatten <+: stream OggPage.bytes pages)
    (headers : Bytes) :
    (new.pushes pieces).headerBytes = some headers ↔
      ∃ found,
        HeadersWithin pages pieces found ∧
          headers = stream OggPage.bytes found := by
  constructor
  · intro hBytes
    induction pieces using List.reverseRecOn with
    | nil => cases hBytes
    | append_singleton before data ih =>
        have hBefore :
            before.flatten <+: stream OggPage.bytes pages :=
          (flatten_mono (List.prefix_append _ _)).trans
            hPrefix
        cases hOpen : (new.pushes before).isSettled with
        | true =>
            rw [pushes_snoc, push_settled hOpen] at hBytes
            rcases ih hBefore hBytes with
              ⟨found, ⟨front, hFront, hShort, hFound⟩,
                hHeaders⟩
            exact
              ⟨found,
                ⟨front,
                  hFront.trans (List.prefix_append _ _),
                  hShort, hFound⟩,
                hHeaders⟩
        | false =>
            have hDone :
                (new.pushes (before ++ [data])).done =
                  true := by
              unfold headerBytes at hBytes
              split at hBytes
              · assumption
              · cases hBytes
            have hWithin :=
              keepsWithin_of_not_failed hPrefix
                (Or.inr hDone)
            have hShort :=
              hWithin.2 before data List.prefix_rfl hOpen
            rw [pushes_captureAt hWithin,
              captureAt_headerBytes,
              Option.map_eq_some_iff] at hBytes
            rcases hBytes with ⟨found, hFound, hHeaders⟩
            refine
              ⟨found,
                ⟨before ++ [data], List.prefix_rfl, ?_,
                  hFound⟩,
                hHeaders.symm⟩
            rw [List.flatten_append, List.length_append]
            simpa using hShort
  · rintro ⟨found, ⟨front, hFront, hShort, hFound⟩, rfl⟩
    have hFrontPrefix :=
      (flatten_mono hFront).trans hPrefix
    have hCapture :=
      pushes_captureAt
        (keepsWithin_of_length hFrontPrefix hShort)
    have hSettled :
        (new.pushes front).isSettled = true := by
      rw [hCapture, captureAt_isSettled, hFound]
      rfl
    rw [pushes_settled hFront hSettled, hCapture,
      captureAt_headerBytes, hFound]
    rfl

/- The header bytes of the mount during a session. -/
theorem headerBytes_published_iff
    {pages : List OggPage}
    {chunks : List Bytes}
    (hPrefix :
      chunks.flatten <+: stream OggPage.bytes pages)
    (headers : Bytes) :
    (Publisher.published .VORBIS chunks).headerBytes =
        some headers ↔
      ∃ found,
        HeadersWithin pages chunks found ∧
          headers = stream OggPage.bytes found := by
  rw [← headerBytes_pushes_iff hPrefix]
  rcases Publisher.published_vorbis chunks with
    ⟨hOpen, _, hBytes⟩ | ⟨_, _, hBytes⟩
  · have hNone : (new.pushes chunks).headerBytes = none := by
      unfold isSettled at hOpen
      simp at hOpen
      unfold headerBytes
      rw [hOpen.1]
      rfl
    rw [hBytes, hNone]
  · rw [hBytes]

end RustyIce

------------------------------------------------------------
-- Sessions
------------------------------------------------------------

namespace RustyIce

open Library.Frames

/- A page with the link of the chain it belongs to. -/
structure LinkedPage where
  page : OggPage
  link : VorbisStream
  isAudio : Bool

namespace LinkedPage

def bytes (p : LinkedPage) : Bytes :=
  p.page.bytes

end LinkedPage

/- The pages of one link of a chain. -/
def VorbisStream.linked
    (s : VorbisStream) : List LinkedPage :=
  s.headerPages.map (fun page => ⟨page, s, false⟩) ++
    s.audio.map (fun page => ⟨page, s, true⟩)

/-
  One source session: a chained Ogg Vorbis stream, published
  in chunks cut anywhere and ending anywhere.
-/
structure BroadcastSession where
  links : List VorbisStream
  chunks : List Bytes
  cut :
    chunks.flatten <+:
      stream LinkedPage.bytes
        (links.flatMap VorbisStream.linked)

namespace BroadcastSession

def linkedPages (s : BroadcastSession) : List LinkedPage :=
  s.links.flatMap VorbisStream.linked

def pages (s : BroadcastSession) : List OggPage :=
  s.links.flatMap VorbisStream.pages

/- The pages a chunk completes. -/
def completedBy
    (s : BroadcastSession)
    (before : List Bytes)
    (data : Bytes) : List LinkedPage :=
  (complete LinkedPage.bytes
    (before ++ [data]).flatten.length s.linkedPages).drop
      (complete LinkedPage.bytes before.flatten.length
        s.linkedPages).length

/-
  Whenever a chunk that completes a page of audio goes to
  the bus while the mount has header bytes, these are the
  header pages of the page's own link.
-/
def HeadersMatch (s : BroadcastSession) : Prop :=
  ∀ before data,
    before ++ [data] <+: s.chunks →
      ∀ headers,
        (Publisher.published .VORBIS
            (before ++ [data])).headerBytes =
          some headers →
          ∀ p ∈ s.completedBy before data,
            p.isAudio = true →
              headers =
                stream OggPage.bytes p.link.headerPages

/-
  From the chunk on that completes the stream's fourth page
  to start a packet, if that is within the buffer limit,
  every audio page completed has the header pages of the
  first link, exactly three of which start a packet.
-/
def OneHeader (s : BroadcastSession) : Prop :=
  ∀ before data,
    before ++ [data] <+: s.chunks →
      (∃ found,
        HeadersWithin s.pages (before ++ [data]) found) →
        ∀ p ∈ s.completedBy before data,
          p.isAudio = true →
            ∃ first,
              s.links.head? = some first ∧
                p.link.headerPages = first.headerPages ∧
                  freshPages first.headerPages = 3

theorem pages_eq (s : BroadcastSession) :
    s.linkedPages.map (·.page) = s.pages := by
  unfold linkedPages pages
  rw [List.map_flatMap]
  congr 1
  funext link
  simp [VorbisStream.linked, VorbisStream.pages,
    Function.comp_def]

/- The chunks are an initial part of the pages' bytes. -/
theorem cut_pages
    (s : BroadcastSession)
    {chunks : List Bytes}
    (hChunks : chunks <+: s.chunks) :
    chunks.flatten <+: stream OggPage.bytes s.pages := by
  have hCut := (flatten_mono hChunks).trans s.cut
  rw [← s.pages_eq, stream_map]
  exact hCut

/-
  After the header pages of the first link comes a page that
  starts a packet: its audio, or the next link.
-/
theorem exists_first
    (s : BroadcastSession)
    {found : List OggPage}
    (hFound : headPages 0 s.pages = some found) :
    ∃ first later,
      s.links.head? = some first ∧
        s.pages = first.headerPages ++ later ∧
          ∀ p, later.head? = some p →
            p.continued = false := by
  cases hLinks : s.links with
  | nil =>
      rw [pages, hLinks] at hFound
      cases hFound
  | cons first links =>
      refine
        ⟨first,
          first.audio ++
            links.flatMap VorbisStream.pages,
          rfl, ?_, ?_⟩
      · rw [pages, hLinks, List.flatMap_cons,
          VorbisStream.pages, List.append_assoc]
      · intro p hHead
        cases hAudio : first.audio with
        | cons q audio =>
            apply first.audio_fresh
            rw [hAudio] at hHead ⊢
            exact hHead
        | nil =>
            rw [hAudio, List.nil_append] at hHead
            cases links with
            | nil => cases hHead
            | cons next links =>
                cases hHead
                exact next.ident_fresh

/- Header pages found early are found in the whole stream. -/
theorem headPages_of_within
    (s : BroadcastSession)
    {pieces : List Bytes}
    {found : List OggPage}
    (hWithin : HeadersWithin s.pages pieces found) :
    headPages 0 s.pages = some found := by
  rcases hWithin with ⟨front, _, _, hFound⟩
  rcases complete_prefix OggPage.bytes front.flatten.length
      s.pages with ⟨later, hLater⟩
  rw [← hLater]
  exact headPages_append hFound later

/-
  The pages found are the header pages of a link exactly if
  these are the first link's, three of which start a packet.
-/
theorem found_eq_headerPages_iff
    (s : BroadcastSession)
    {found : List OggPage}
    (hFound : headPages 0 s.pages = some found)
    (link : VorbisStream) :
    found = link.headerPages ↔
      ∃ first,
        s.links.head? = some first ∧
          link.headerPages = first.headerPages ∧
            freshPages first.headerPages = 3 := by
  rcases s.exists_first hFound with
    ⟨first, later, hFirst, hPages, hLater⟩
  rw [hPages] at hFound
  have hIff := headPages_eq_iff hLater hFound
  constructor
  · intro hEq
    rcases headPages_prefix hFound with ⟨p, rest, hSplit, _⟩
    have hLeft :
        link.headerPages <+: first.headerPages ++ later := by
      rw [← hEq, hSplit]
      exact List.prefix_append _ _
    have hRight :
        first.headerPages <+: first.headerPages ++ later :=
      List.prefix_append _ _
    have hSame : link.headerPages = first.headerPages := by
      rcases List.prefix_or_prefix_of_prefix hLeft hRight with
        hShort | hLong
      · exact VorbisStream.headerPages_eq_of_prefix hShort
      · exact
          (VorbisStream.headerPages_eq_of_prefix hLong).symm
    refine ⟨first, hFirst, hSame, ?_⟩
    rw [← hIff, hEq, hSame]
  · rintro ⟨other, hOther, hSame, hThree⟩
    rw [hFirst] at hOther
    cases hOther
    rw [hSame]
    exact hIff.mpr hThree

end BroadcastSession

/-
  Listeners are primed with the headers of the audio that is
  going out exactly if, once headers are captured, all audio
  belongs with the header pages of the first link and three
  of these start a packet.
-/
theorem headersMatch_iff_oneHeader
    (s : BroadcastSession) :
    s.HeadersMatch ↔ s.OneHeader := by
  constructor
  · intro hMatch before data hChunks hSettled p hp hAudio
    rcases hSettled with ⟨found, hWithin⟩
    have hBytes :=
      (headerBytes_published_iff (s.cut_pages hChunks) _).mpr
        ⟨found, hWithin, rfl⟩
    have hStream :=
      hMatch before data hChunks _ hBytes p hp hAudio
    have hFound := s.headPages_of_within hWithin
    rw [← s.found_eq_headerPages_iff hFound]
    exact
      stream_injective OggPage.bytes
        OggPage.length_bytes_pos OggPage.bytes_prefixFree
        hStream
  · intro hOne before data hChunks headers hBytes p hp hAudio
    rcases (headerBytes_published_iff
        (s.cut_pages hChunks) _).mp hBytes with
      ⟨found, hWithin, hHeaders⟩
    have hLink :=
      hOne before data hChunks ⟨found, hWithin⟩ p hp hAudio
    have hFound := s.headPages_of_within hWithin
    rw [hHeaders,
      (s.found_eq_headerPages_iff hFound p.link).mpr hLink]

end RustyIce

------------------------------------------------------------
-- A Second Link
------------------------------------------------------------

namespace RustyIce

open Library.Frames

namespace BroadcastSession

/- A link published whole completes its own pages. -/
theorem completedBy_link
    {s : BroadcastSession}
    (before after : List VorbisStream)
    {link : VorbisStream}
    {chunks : List Bytes}
    {data : Bytes}
    (hLinks : s.links = before ++ link :: after)
    (hChunks :
      chunks.flatten =
        stream LinkedPage.bytes
          (before.flatMap VorbisStream.linked))
    (hData : data = stream LinkedPage.bytes link.linked) :
    s.completedBy chunks data = link.linked := by
  have hPos : ∀ p : LinkedPage, 0 < p.bytes.length :=
    fun p => p.page.length_bytes_pos
  have hPages :
      s.linkedPages =
        before.flatMap VorbisStream.linked ++
          (link.linked ++
            after.flatMap VorbisStream.linked) := by
    rw [linkedPages, hLinks, List.flatMap_append,
      List.flatMap_cons]
  have hFewer :
      complete LinkedPage.bytes chunks.flatten.length
          s.linkedPages =
        before.flatMap VorbisStream.linked := by
    rw [hChunks, hPages]
    exact complete_length_stream LinkedPage.bytes hPos _ _
  have hMore :
      complete LinkedPage.bytes
          (chunks ++ [data]).flatten.length s.linkedPages =
        before.flatMap VorbisStream.linked ++
          link.linked := by
    have hFlatten :
        (chunks ++ [data]).flatten =
          stream LinkedPage.bytes
            (before.flatMap VorbisStream.linked ++
              link.linked) := by
      rw [stream_append, List.flatten_append, hChunks, hData]
      simp
    rw [hFlatten, hPages, ← List.append_assoc]
    exact complete_length_stream LinkedPage.bytes hPos _ _
  rw [completedBy, hMore, hFewer, List.drop_left]

end BroadcastSession

theorem VorbisStream.stream_linked (s : VorbisStream) :
    stream LinkedPage.bytes s.linked =
      stream OggPage.bytes s.pages := by
  have hPages : s.linked.map (·.page) = s.pages := by
    simp [VorbisStream.linked, VorbisStream.pages,
      Function.comp_def]
  rw [← hPages, stream_map]
  rfl

/- Two links, each published in one chunk. -/
def twoLinks : BroadcastSession where
  links := [spreadStream 0, spreadStream 1]
  chunks :=
    [stream OggPage.bytes (spreadStream 0).pages,
      stream OggPage.bytes (spreadStream 1).pages]
  cut := by
    simp only [List.flatMap_cons, List.flatMap_nil,
      stream_append, VorbisStream.stream_linked]
    exact List.prefix_rfl

/-
  The audio of the second link goes out while listeners are
  primed with the header pages of the first.
-/
theorem twoLinks_not_headersMatch :
    ¬ twoLinks.HeadersMatch := by
  intro hMatch
  have hFirst :
      complete OggPage.bytes
          (stream OggPage.bytes (spreadStream 0).pages).length
          twoLinks.pages =
        (spreadStream 0).pages :=
    complete_length_stream OggPage.bytes
      OggPage.length_bytes_pos _ _
  have hFound :
      headPages 0 (spreadStream 0).pages =
        some (spreadStream 0).headerPages := by
    rfl
  have hBytes :
      (Publisher.published .VORBIS
          twoLinks.chunks).headerBytes =
        some
          (stream OggPage.bytes
            (spreadStream 0).headerPages) := by
    rw [headerBytes_published_iff
      (twoLinks.cut_pages List.prefix_rfl)]
    refine
      ⟨(spreadStream 0).headerPages,
        ⟨[stream OggPage.bytes (spreadStream 0).pages],
          ?_, ?_, ?_⟩, rfl⟩
    · exact List.prefix_append _ _
    · rw [List.flatten_singleton]
      exact length_spreadStream
    · rw [List.flatten_singleton, hFirst]
      exact hFound
  have hSecond :
      twoLinks.completedBy
          [stream OggPage.bytes (spreadStream 0).pages]
          (stream OggPage.bytes (spreadStream 1).pages) =
        (spreadStream 1).linked :=
    BroadcastSession.completedBy_link [spreadStream 0] [] rfl
      (by simp [VorbisStream.stream_linked])
      (spreadStream 1).stream_linked.symm
  have hPage :
      ∃ p ∈ (spreadStream 1).linked,
        p.isAudio = true ∧ p.link = spreadStream 1 :=
    ⟨⟨_, spreadStream 1, true⟩,
      List.mem_append_right _
        (List.mem_map_of_mem List.mem_cons_self),
      rfl, rfl⟩
  rcases hPage with ⟨p, hp, hAudio, hLink⟩
  rw [← hSecond] at hp
  have hEq :=
    hMatch [stream OggPage.bytes (spreadStream 0).pages]
      (stream OggPage.bytes (spreadStream 1).pages)
      List.prefix_rfl _ hBytes p hp hAudio
  rw [hLink] at hEq
  revert hEq
  decide

end RustyIce
