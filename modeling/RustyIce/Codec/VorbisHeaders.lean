import RustyIce.Codec.OggHeaderCapture

/-
  Ogg Vorbis streams and the header capture: which pages the
  capture keeps, and when these are the header pages.

  Main declarations:
    * `VorbisStream`
    * `headerBytes_eq_iff`
-/

------------------------------------------------------------
-- Vorbis Streams
------------------------------------------------------------

namespace RustyIce

open Library.Frames

def VORBIS_IDENT : Bytes :=
  [0x01, 0x76, 0x6F, 0x72, 0x62, 0x69, 0x73]

def VORBIS_COMMENT : Bytes :=
  [0x03, 0x76, 0x6F, 0x72, 0x62, 0x69, 0x73]

def VORBIS_SETUP : Bytes :=
  [0x05, 0x76, 0x6F, 0x72, 0x62, 0x69, 0x73]

/-
  A well-formed Ogg Vorbis stream: the identification packet
  alone on the first page, the comment and setup packets
  over the pages `headers` in any layout, the last of which
  the setup packet finishes, and audio from a fresh page on.
-/
structure VorbisStream where
  ident : OggPage
  headers : List OggPage
  audio : List OggPage
  identPacket : Bytes
  commentPacket : Bytes
  setupPacket : Bytes
  identKind : VORBIS_IDENT <+: identPacket
  commentKind : VORBIS_COMMENT <+: commentPacket
  setupKind : VORBIS_SETUP <+: setupPacket
  identBos : ident.bos = true
  noOtherBos :
    ∀ p ∈ headers ++ audio, p.bos = false
  oneSerial :
    ∀ p ∈ headers ++ audio, p.serial = ident.serial
  identAlone :
    readPackets [] [ident] = ([identPacket], [])
  headersLaid :
    readPackets [] headers =
      ([commentPacket, setupPacket], [])
  setupLast :
    (readPackets [] headers.dropLast).1.length < 2
  flags :
    FlagsAgree [] (ident :: (headers ++ audio))

namespace VorbisStream

/- The pages up to the end of the third header packet. -/
def headerPages (s : VorbisStream) : List OggPage :=
  s.ident :: s.headers

def pages (s : VorbisStream) : List OggPage :=
  s.headerPages ++ s.audio

end VorbisStream

end RustyIce

------------------------------------------------------------
-- Fresh Pages And Packets
------------------------------------------------------------

namespace RustyIce

/- Pages of whole packets need no continuation bits. -/
theorem readLacing_whole
    {part : Bytes}
    {lacing : List UInt8}
    (body : Bytes)
    (hWhole : ∀ segment ∈ lacing, segment < 255)
    (hPart : part = []) :
    (readLacing part lacing body).2 = [] := by
  induction lacing generalizing part body with
  | nil => exact hPart
  | cons segment lacing ih =>
      have hEnd : segment < 255 :=
        hWhole segment List.mem_cons_self
      simp only [readLacing, if_pos hEnd]
      exact
        ih _
          (fun s hs => hWhole s (List.mem_cons_of_mem _ hs))
          rfl

theorem flagsAgree_of_whole
    {pages : List OggPage}
    (hWhole :
      ∀ p ∈ pages,
        p.continued = false ∧
          ∀ segment ∈ p.lacing, segment < 255) :
    FlagsAgree [] pages := by
  induction pages with
  | nil => trivial
  | cons p pages ih =>
      rcases hWhole p List.mem_cons_self with
        ⟨hFresh, hLacing⟩
      refine ⟨by simp [hFresh], ?_⟩
      rw [readLacing_whole p.body hLacing rfl]
      exact
        ih fun q hq => hWhole q (List.mem_cons_of_mem _ hq)

theorem FlagsAgree.append
    {part : Bytes}
    {first second : List OggPage}
    (hFlags : FlagsAgree part (first ++ second)) :
    FlagsAgree part first ∧
      FlagsAgree (readPackets part first).2 second := by
  induction first generalizing part with
  | nil => exact ⟨trivial, hFlags⟩
  | cons p pages ih =>
      rcases hFlags with ⟨hHere, hRest⟩
      rcases ih hRest with ⟨hFirst, hSecond⟩
      exact ⟨⟨hHere, hFirst⟩, hSecond⟩

/- Packets read in two stretches of pages. -/
theorem readPackets_append
    (part : Bytes)
    (first second : List OggPage) :
    readPackets part (first ++ second) =
      ((readPackets part first).1 ++
          (readPackets (readPackets part first).2 second).1,
        (readPackets
          (readPackets part first).2 second).2) := by
  induction first generalizing part with
  | nil => rfl
  | cons p pages ih =>
      simp only [List.cons_append, readPackets, ih,
        List.append_assoc]

namespace VorbisStream

/- The first page starts a packet. -/
theorem ident_fresh (s : VorbisStream) :
    s.ident.continued = false := by
  have hHere := s.flags.1
  cases hContinued : s.ident.continued with
  | false => rfl
  | true => exact absurd rfl (hHere.mp hContinued)

/- Audio starts on a fresh page. -/
theorem audio_fresh
    (s : VorbisStream)
    {p : OggPage}
    (hHead : s.audio.head? = some p) :
    p.continued = false := by
  have hFlags := s.flags
  rw [← List.cons_append] at hFlags
  have hAudio := hFlags.append.2
  have hRest :
      (readPackets [] (s.ident :: s.headers)).2 = [] := by
    have hIdent := s.identAlone
    simp only [readPackets, Prod.mk.injEq] at hIdent
    simp only [readPackets, hIdent.2, s.headersLaid]
  rw [hRest] at hAudio
  cases hPages : s.audio with
  | nil =>
      rw [hPages] at hHead
      cases hHead
  | cons first later =>
      rw [hPages] at hHead hAudio
      cases hHead
      have hHere := hAudio.1
      cases hContinued : p.continued with
      | false => rfl
      | true => exact absurd rfl (hHere.mp hContinued)

/-
  The header pages of one stream are not the start of those
  of another: the setup packet ends on the last of them.
-/
theorem headerPages_eq_of_prefix
    {s t : VorbisStream}
    (hPrefix : s.headerPages <+: t.headerPages) :
    s.headerPages = t.headerPages := by
  rcases hPrefix with ⟨extra, hExtra⟩
  rcases List.eq_nil_or_concat extra with
    rfl | ⟨middle, last, rfl⟩
  · rw [← hExtra, List.append_nil]
  · rw [headerPages, headerPages, List.cons_append,
      List.cons.injEq, List.concat_eq_append,
      ← List.append_assoc] at hExtra
    have hLast := t.setupLast
    rw [← hExtra.2, List.dropLast_concat,
      readPackets_append, s.headersLaid] at hLast
    simp only [List.length_append, List.length_cons]
      at hLast
    omega

end VorbisStream

end RustyIce

------------------------------------------------------------
-- What The Capture Keeps
------------------------------------------------------------

namespace RustyIce

open Library.Frames OggHeaderCapture

/-
  A settled capture within the limit holds the pages before
  the fourth that starts a packet.
-/
theorem exists_headPages_of_settled
    {pages : List OggPage}
    {pieces : List Bytes}
    (hWithin : KeepsWithin pages pieces)
    (hSettled : (new.pushes pieces).isSettled = true) :
    ∃ found,
      headPages 0 pages = some found ∧
        (new.pushes pieces).headerBytes =
          some (stream OggPage.bytes found) := by
  rw [pushes_captureAt hWithin] at hSettled ⊢
  rw [captureAt_isSettled, Option.isSome_iff_exists]
    at hSettled
  rcases hSettled with ⟨found, hFound⟩
  rcases complete_prefix OggPage.bytes pieces.flatten.length
      pages with ⟨later, hLater⟩
  refine ⟨found, ?_, ?_⟩
  · rw [← hLater]
    exact headPages_append hFound later
  · rw [captureAt_headerBytes, hFound]
    rfl

/-
  The pages found are those before a fresh page, or before
  the end, exactly if three of these start a packet.
-/
theorem headPages_eq_iff
    {before found later : List OggPage}
    (hLater :
      ∀ p, later.head? = some p → p.continued = false)
    (hFound : headPages 0 (before ++ later) = some found) :
    found = before ↔ freshPages before = 3 := by
  rcases headPages_prefix hFound with
    ⟨p, rest, hPages, hFresh, hCount⟩
  have hThree : freshPages found = 3 := by
    have hTotal := hCount (by omega)
    omega
  constructor
  · intro hEq
    rw [← hEq]
    exact hThree
  · intro hBefore
    have hLeft : found <+: before ++ later := by
      rw [hPages]
      exact List.prefix_append _ _
    have hRight : before <+: before ++ later :=
      List.prefix_append _ _
    rcases List.prefix_or_prefix_of_prefix hLeft hRight with
      ⟨extra, rfl⟩ | ⟨extra, rfl⟩
    · cases extra with
      | nil => simp
      | cons q extra =>
          -- The page the search stopped at is in `before`.
          rw [List.append_assoc, List.append_cancel_left_eq,
            List.cons_append, List.cons.injEq] at hPages
          rw [hPages.1, freshPages_append, freshPages_cons,
            hFresh] at hBefore
          simp only [Bool.false_eq_true, if_false] at hBefore
          omega
    · cases extra with
      | nil => simp
      | cons q extra =>
          -- The search passed over the page after `before`.
          rw [List.append_assoc,
            List.append_cancel_left_eq] at hPages
          have hHead : later.head? = some q := by
            rw [hPages]
            rfl
          rw [freshPages_append, freshPages_cons,
            hLater q hHead] at hThree
          simp only [Bool.false_eq_true, if_false] at hThree
          omega

/-
  Once the capture settles, it holds exactly the header
  pages if and only if exactly three of them start a packet.
-/
theorem headerBytes_eq_iff
    (s : VorbisStream)
    (pieces : List Bytes)
    (hWithin : KeepsWithin s.pages pieces)
    (hSettled : (new.pushes pieces).isSettled = true) :
    (new.pushes pieces).headerBytes =
        some (stream OggPage.bytes s.headerPages) ↔
      freshPages s.headerPages = 3 := by
  rcases exists_headPages_of_settled hWithin hSettled with
    ⟨found, hFound, hBytes⟩
  rw [← headPages_eq_iff (fun _ => s.audio_fresh) hFound, hBytes,
    Option.some.injEq]
  constructor
  · intro hEq
    rcases headPages_prefix hFound with ⟨p, later, hPages, _⟩
    have hPrefix : found <+: s.pages := by
      rw [hPages]
      exact List.prefix_append _ _
    exact
      eq_of_length_stream OggPage.bytes
        OggPage.length_bytes_pos hPrefix
        (List.prefix_append _ _)
        (congrArg List.length hEq)
  · intro hEq
    rw [hEq]

end RustyIce

------------------------------------------------------------
-- Two Layouts
------------------------------------------------------------

namespace RustyIce

open Library.Frames OggHeaderCapture

/- A page of packets that end on it. -/
def buildPage
    (serial headerType : UInt8)
    (packets : List Bytes)
    (hSegments : packets.length ≤ 255)
    (hFramed :
      packets.flatten.length =
        ((packets.map fun packet =>
          UInt8.ofNat packet.length).map
            UInt8.toNat).sum) : OggPage where
  version := 0
  headerType := headerType
  granule := Vector.replicate 8 0
  serial := Vector.replicate 4 serial
  sequence := Vector.replicate 4 0
  checksum := Vector.replicate 4 0
  lacing := packets.map fun packet => UInt8.ofNat packet.length
  body := packets.flatten
  segments := by simpa using hSegments
  framed := hFramed

/- A stream with one packet on each page. -/
def spreadStream (serial : UInt8) : VorbisStream where
  ident :=
    buildPage serial 2 [VORBIS_IDENT] (by decide) (by decide)
  headers :=
    [buildPage serial 0 [VORBIS_COMMENT]
        (by decide) (by decide),
      buildPage serial 0 [VORBIS_SETUP]
        (by decide) (by decide)]
  audio :=
    [buildPage serial 0 [[0]] (by decide) (by decide),
      buildPage serial 0 [[2]] (by decide) (by decide)]
  identPacket := VORBIS_IDENT
  commentPacket := VORBIS_COMMENT
  setupPacket := VORBIS_SETUP
  identKind := List.prefix_rfl
  commentKind := List.prefix_rfl
  setupKind := List.prefix_rfl
  identBos := by simp [OggPage.bos, buildPage]
  noOtherBos := by simp [buildPage, OggPage.bos]
  oneSerial := by simp [buildPage]
  identAlone := rfl
  headersLaid := rfl
  setupLast := Nat.lt_succ_self 1
  flags := by
    apply flagsAgree_of_whole
    simp [buildPage, OggPage.continued, VORBIS_IDENT,
      VORBIS_COMMENT, VORBIS_SETUP]
    decide

/-
  The same packets with comment and setup on one page, as
  the Vorbis encoder lays them out.
-/
def packedStream (serial : UInt8) : VorbisStream where
  ident :=
    buildPage serial 2 [VORBIS_IDENT] (by decide) (by decide)
  headers :=
    [buildPage serial 0 [VORBIS_COMMENT, VORBIS_SETUP]
      (by decide) (by decide)]
  audio :=
    [buildPage serial 0 [[0]] (by decide) (by decide),
      buildPage serial 0 [[2]] (by decide) (by decide)]
  identPacket := VORBIS_IDENT
  commentPacket := VORBIS_COMMENT
  setupPacket := VORBIS_SETUP
  identKind := List.prefix_rfl
  commentKind := List.prefix_rfl
  setupKind := List.prefix_rfl
  identBos := by simp [OggPage.bos, buildPage]
  noOtherBos := by simp [buildPage, OggPage.bos]
  oneSerial := by simp [buildPage]
  identAlone := rfl
  headersLaid := rfl
  setupLast := Nat.zero_lt_succ 1
  flags := by
    apply flagsAgree_of_whole
    simp [buildPage, OggPage.continued, VORBIS_IDENT,
      VORBIS_COMMENT, VORBIS_SETUP]
    decide

/- A short stream may be pushed in one piece. -/
theorem keepsWithin_whole
    {pages : List OggPage}
    (hShort :
      (stream OggPage.bytes pages).length ≤
        MAX_HEADER_BUFFER) :
    KeepsWithin pages [stream OggPage.bytes pages] := by
  refine ⟨by simp, ?_⟩
  intro before data hPrefix _
  have hLength := hPrefix.length_le
  rw [List.length_append, List.length_singleton,
    List.length_singleton] at hLength
  have hNil : before = [] :=
    List.eq_nil_of_length_eq_zero (by omega)
  subst hNil
  rw [List.nil_append, List.cons_prefix_cons] at hPrefix
  rw [hPrefix.1]
  simpa using hShort

/- Pushed in one piece, a stream with four fresh pages settles. -/
theorem settled_whole
    {pages found : List OggPage}
    (hShort :
      (stream OggPage.bytes pages).length ≤
        MAX_HEADER_BUFFER)
    (hFound : headPages 0 pages = some found) :
    (new.pushes [stream OggPage.bytes pages]).isSettled =
      true := by
  have hAll :=
    complete_length_stream OggPage.bytes
      OggPage.length_bytes_pos pages []
  rw [List.append_nil] at hAll
  rw [pushes_captureAt (keepsWithin_whole hShort),
    captureAt_isSettled]
  simp only [List.flatten_cons, List.flatten_nil,
    List.append_nil, hAll, hFound]
  rfl

/- The length of a page, added up over a stream. -/
theorem length_stream_cons
    (p : OggPage)
    (pages : List OggPage) :
    (stream OggPage.bytes (p :: pages)).length =
      27 + p.lacing.length + p.body.length +
        (stream OggPage.bytes pages).length := by
  rw [stream_cons, List.length_append, p.length_bytes, p.framed]

theorem length_packedStream :
    (stream OggPage.bytes (packedStream 0).pages).length ≤
      MAX_HEADER_BUFFER := by
  have hPages : (packedStream 0).pages = [_, _, _, _] := rfl
  simp only [hPages, length_stream_cons, stream_nil]
  decide

theorem length_spreadStream :
    (stream OggPage.bytes (spreadStream 0).pages).length ≤
      MAX_HEADER_BUFFER := by
  have hPages : (spreadStream 0).pages = [_, _, _, _, _] := rfl
  simp only [hPages, length_stream_cons, stream_nil]
  decide

/- The spread layout pushed in one piece. -/
theorem headerBytes_eq_iff_spreadStream :
    (new.pushes
        [stream OggPage.bytes (spreadStream 0).pages]).isSettled =
          true ∧
      ((new.pushes
          [stream OggPage.bytes
            (spreadStream 0).pages]).headerBytes =
          some
            (stream OggPage.bytes (spreadStream 0).headerPages) ↔
        freshPages (spreadStream 0).headerPages = 3) := by
  have hFound :
      headPages 0 (spreadStream 0).pages =
        some (spreadStream 0).headerPages := by
    rfl
  have hSettled := settled_whole length_spreadStream hFound
  exact
    ⟨hSettled,
      headerBytes_eq_iff (spreadStream 0) _
        (keepsWithin_whole length_spreadStream) hSettled⟩

/- The packed layout pushed in one piece. -/
theorem packedStream_not_exact :
    KeepsWithin (packedStream 0).pages
        [stream OggPage.bytes (packedStream 0).pages] ∧
      (new.pushes
        [stream OggPage.bytes
          (packedStream 0).pages]).isSettled = true ∧
      (new.pushes
          [stream OggPage.bytes
            (packedStream 0).pages]).headerBytes ≠
        some
          (stream OggPage.bytes
            (packedStream 0).headerPages) := by
  have hFound :
      headPages 0 (packedStream 0).pages =
        some
          ((packedStream 0).headerPages ++
            (packedStream 0).audio.take 1) := by
    rfl
  have hWithin := keepsWithin_whole length_packedStream
  have hSettled := settled_whole length_packedStream hFound
  refine ⟨hWithin, hSettled, ?_⟩
  rcases exists_headPages_of_settled hWithin hSettled with
    ⟨found, hSome, hBytes⟩
  rw [hFound] at hSome
  cases hSome
  rw [hBytes]
  decide

end RustyIce
