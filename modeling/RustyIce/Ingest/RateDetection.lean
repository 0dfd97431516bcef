import RustyIce.Ingest.PacingRate

/-
  When the pacing rate of a Vorbis source is found: each read
  is scanned on its own, so a header that is cut by the first
  read is not seen.

  Main declarations:
    * `PublishLoop.after`
    * `LocksRate`
    * `VorbisCodec.probe_append_eq`
    * `locksRate_iff`
-/

------------------------------------------------------------
-- The Loop After Its Chunks
------------------------------------------------------------

namespace RustyIce

namespace Ingest

namespace PublishLoop

/- The variables of the loop once it has published all. -/
def after
    (codec : CodecId)
    (st : PublishLoop)
    (chunks : List Bytes) : PublishLoop :=
  chunks.foldl (publishChunk codec) st

/- A rate that is locked stays. -/
theorem after_locked
    (codec : CodecId)
    {st : PublishLoop}
    (hLocked : st.sourceRateLocked = true)
    (chunks : List Bytes) :
    (st.after codec chunks).sourceRate = st.sourceRate ∧
      (st.after codec chunks).sourceRateLocked = true := by
  induction chunks generalizing st with
  | nil => exact ⟨rfl, hLocked⟩
  | cons data rest ih =>
      have hLock : st.lockRate codec data = st := by
        simp [lockRate, hLocked]
      simp only [after, List.foldl_cons, publishChunk, hLock]
      exact ih hLocked

/- An open one is that of the first chunk to show one. -/
theorem after_open
    (codec : CodecId)
    {st : PublishLoop}
    (hOpen : st.sourceRateLocked = false)
    (hRate : st.sourceRate = none)
    (chunks : List Bytes) :
    (st.after codec chunks).sourceRate =
        chunks.findSome? (detectRate codec) ∧
      (st.after codec chunks).sourceRateLocked =
        (chunks.findSome? (detectRate codec)).isSome := by
  induction chunks generalizing st with
  | nil => exact ⟨hRate, hOpen⟩
  | cons data rest ih =>
      rw [List.findSome?_cons]
      cases hShown : detectRate codec data with
      | none =>
          have hLock : st.lockRate codec data = st := by
            simp [lockRate, hOpen, hShown]
          simp only [after, List.foldl_cons, publishChunk,
            hLock]
          exact ih hOpen hRate
      | some bps =>
          have hLock :
              st.lockRate codec data =
                { st with
                  sourceRate := some bps
                  sourceRateLocked := true } := by
            simp [lockRate, hOpen, hShown]
          simp only [after, List.foldl_cons, publishChunk,
            hLock]
          exact after_locked codec rfl rest

end PublishLoop

/- The variables of a run's loop after its last read. -/
def loopAfter
    (ingest : IcecastIngest)
    (codec : CodecId)
    (fragments : List Bytes) : PublishLoop :=
  (PublishLoop.start ingest codec).after codec
    (drainReader codec (reads ingest.chunkSize fragments))

/-
  A run that locks its pacing rate to what a scan of the
  whole stream gives, and can divide by it.
-/
structure LocksRate
    (ingest : IcecastIngest)
    (fragments : List Bytes) : Prop where
  locked :
    (loopAfter ingest .VORBIS fragments).sourceRateLocked =
      true
  rate_eq :
    (loopAfter ingest .VORBIS fragments).sourceRate =
      scanNominalBitrateBps fragments.flatten
  paced :
    ∃ bps,
      0 < bps ∧
        (loopAfter ingest .VORBIS fragments).sourceRate =
          some bps

end Ingest

end RustyIce

------------------------------------------------------------
-- A Cut Header
------------------------------------------------------------

namespace RustyIce

namespace VorbisCodec

/- The rate is read off the bytes that are probed. -/
theorem nominalField_append
    {header : Bytes}
    (hLong : probedLength header ≤ header.length)
    (more : Bytes) :
    nominalField (header ++ more) = nominalField header := by
  unfold probedLength at hLong
  have hSegments :
      (header ++ more).getD 26 0 = header.getD 26 0 :=
    List.getD_append header more 0 26 (by omega)
  have hBody :
      (header ++ more).drop
          (27 + (header.getD 26 0).toNat) =
        header.drop (27 + (header.getD 26 0).toNat) ++
          more :=
    List.drop_append_of_le_length (by omega)
  have hField :
      ∀ i < 30,
        (header.drop (27 + (header.getD 26 0).toNat) ++
            more).getD i 0 =
          (header.drop
            (27 + (header.getD 26 0).toNat)).getD i 0 := by
    intro i hLess
    apply List.getD_append
    rw [List.length_drop]
    omega
  simp (disch := omega) only [nominalField, hSegments, hBody,
    hField]

end VorbisCodec

/- Data that begins with a page has that page's bitrate. -/
theorem firstNominal_of_positive
    {data : Bytes}
    {nominal : Nat}
    (hPositive :
      VorbisCodec.positiveNominal data = some nominal) :
    firstNominal data = some nominal := by
  cases data with
  | nil => cases hPositive
  | cons byte rest =>
      rw [firstNominal_cons, hPositive]
      rfl

namespace Ingest

variable {page : OggPage}
variable {info : CodecInfo}

/- A stream that begins with an identification page. -/
theorem firstNominal_page
    (hProbe : VorbisCodec.probe page.bytes = some info)
    (hNominal : 0 < VorbisCodec.nominalField page.bytes)
    (rest : Bytes) :
    firstNominal (page.bytes ++ rest) =
      some (VorbisCodec.nominalField page.bytes).toNat := by
  apply firstNominal_of_positive
  have hLong := VorbisCodec.probedLength_le hProbe
  simp [VorbisCodec.positiveNominal,
    VorbisCodec.probe_append_eq hLong,
    VorbisCodec.nominalField_append hLong, hProbe, hNominal]

/- A first read that holds its identification packet. -/
theorem firstNominal_part
    (hProbe : VorbisCodec.probe page.bytes = some info)
    (hNominal : 0 < VorbisCodec.nominalField page.bytes)
    {first more rest : Bytes}
    (hSplit : first ++ more = page.bytes ++ rest)
    (hLong : 57 + page.lacing.length ≤ first.length) :
    firstNominal first =
      some (VorbisCodec.nominalField page.bytes).toNat := by
  have hSegments :
      (first.getD 26 0).toNat = page.lacing.length := by
    rw [← page.getD_segments rest, ← hSplit,
      List.getD_append first more 0 26 (by omega)]
  have hProbed :
      VorbisCodec.probedLength first ≤ first.length := by
    unfold VorbisCodec.probedLength
    omega
  have hPage := VorbisCodec.probedLength_le hProbe
  apply firstNominal_of_positive
  unfold VorbisCodec.positiveNominal
  rw [← VorbisCodec.probe_append_eq hProbed more,
    ← VorbisCodec.nominalField_append hProbed more, hSplit,
    VorbisCodec.probe_append_eq hPage,
    VorbisCodec.nominalField_append hPage, hProbe,
    if_pos ⟨rfl, hNominal⟩]

/- A scan shows what the first bitrate amounts to. -/
theorem findSome?_detectRate (chunks : List Bytes) :
    chunks.findSome? (PublishLoop.detectRate .VORBIS) =
      (chunks.findSome? firstNominal).map fun nominal =>
        nominal / 1000 * 1000 / 8 := by
  rw [List.map_findSome?]
  congr 1
  funext data
  exact scanNominalBitrateBps_eq data

/- An uncapped loop has the rate its reads show first. -/
theorem loopAfter_uncapped
    {ingest : IcecastIngest}
    (hUncapped : ingest.maxRateBps = none)
    (fragments : List Bytes) :
    (loopAfter ingest .VORBIS fragments).sourceRate =
        Option.map
          (fun nominal => nominal / 1000 * 1000 / 8)
          ((reads ingest.chunkSize fragments).findSome?
            firstNominal) ∧
      (loopAfter ingest .VORBIS fragments).sourceRateLocked =
        ((reads ingest.chunkSize fragments).findSome?
          firstNominal).isSome := by
  have hReader :
      drainReader .VORBIS (reads ingest.chunkSize fragments) =
        reads ingest.chunkSize fragments :=
    if_neg (by decide)
  have hOpen :
      (PublishLoop.start ingest .VORBIS).sourceRateLocked =
        false := by
    simp [PublishLoop.start, hUncapped]
  have hNone :
      (PublishLoop.start ingest .VORBIS).sourceRate =
        none := by
    simp [PublishLoop.start, hUncapped]
  obtain ⟨hRate, hLocked⟩ :=
    PublishLoop.after_open .VORBIS hOpen hNone
      (reads ingest.chunkSize fragments)
  rw [findSome?_detectRate] at hRate hLocked
  unfold loopAfter
  rw [hReader]
  refine ⟨hRate, ?_⟩
  rw [hLocked, Option.isSome_map]

/-
  The rate of an uncapped source that begins with a page of
  an identification header is found exactly if the first read
  holds that header, or else the first read that does hold
  one gives the same number of kbps.
-/
theorem locksRate_iff
    (page : OggPage)
    (info : CodecInfo)
    (hProbe : VorbisCodec.probe page.bytes = some info)
    (hNominal : 1000 ≤ VorbisCodec.nominalField page.bytes)
    (rest : Bytes)
    (ingest : IcecastIngest)
    (hUncapped : ingest.maxRateBps = none)
    (hSize : 1 ≤ ingest.chunkSize)
    (fragments : List Bytes)
    (hStream : fragments.flatten = page.bytes ++ rest) :
    LocksRate ingest fragments ↔
      57 + page.lacing.length ≤
          ((reads ingest.chunkSize fragments).headD
            []).length ∨
        ∃ nominal,
          (reads ingest.chunkSize fragments).findSome?
                firstNominal =
              some nominal ∧
            nominal / 1000 =
              (VorbisCodec.nominalField page.bytes).toNat /
                1000 := by
  have hPositive : 0 < VorbisCodec.nominalField page.bytes := by
    omega
  obtain ⟨hRate, hLocked⟩ :=
    loopAfter_uncapped hUncapped fragments
  have hScan :
      scanNominalBitrateBps fragments.flatten =
        some
          ((VorbisCodec.nominalField page.bytes).toNat /
              1000 * 1000 / 8) := by
    rw [hStream, scanNominalBitrateBps_eq,
      firstNominal_page hProbe hPositive]
    rfl
  constructor
  · intro hLocks
    right
    obtain ⟨nominal, hFirst⟩ :=
      Option.isSome_iff_exists.mp
        (hLocked.symm.trans hLocks.locked)
    refine ⟨nominal, hFirst, ?_⟩
    have hSame := hLocks.rate_eq
    rw [hRate, hFirst, hScan] at hSame
    simp only [Option.map_some, Option.some.injEq] at hSame
    omega
  · intro hShown
    have hFirst :
        ∃ nominal,
          (reads ingest.chunkSize fragments).findSome?
                firstNominal =
              some nominal ∧
            nominal / 1000 =
              (VorbisCodec.nominalField page.bytes).toNat /
                1000 := by
      rcases hShown with hLong | hFirst
      · obtain ⟨hReads, _⟩ := reads_spec fragments hSize
        rw [hStream] at hReads
        cases hAll : reads ingest.chunkSize fragments with
        | nil =>
            rw [hAll, List.headD_nil, List.length_nil]
              at hLong
            omega
        | cons first later =>
            rw [hAll, List.headD_cons] at hLong
            rw [hAll, List.flatten_cons] at hReads
            refine ⟨_, ?_, rfl⟩
            rw [List.findSome?_cons,
              firstNominal_part hProbe hPositive hReads hLong]
      · exact hFirst
    obtain ⟨nominal, hFirst, hSame⟩ := hFirst
    rw [hFirst] at hRate hLocked
    exact
      { locked := hLocked
        rate_eq := by
          rw [hRate, hScan, Option.map_some, hSame]
        paced := by
          refine ⟨nominal / 1000 * 1000 / 8, ?_, hRate⟩
          omega }

/-
  A page of an identification header: mono, 44100 Hz and a
  nominal bitrate of 128000 bits a second.
-/
def identPage : OggPage where
  version := 0
  headerType := 0x02
  granule := Vector.replicate 8 0
  serial := Vector.replicate 4 0
  sequence := Vector.replicate 4 0
  checksum := Vector.replicate 4 0
  lacing := [30]
  body :=
    VORBIS_IDENT ++ [0, 0, 0, 0, 1] ++
      [0x44, 0xAC, 0x00, 0x00] ++ [0, 0, 0, 0] ++
        [0x00, 0xF4, 0x01, 0x00] ++ [0, 0, 0, 0, 0xB8, 0x01]
  segments := by decide
  framed := by decide

def uncapped : IcecastIngest where
  chunkSize := 4096
  maxRateBps := none
  headerCaptureSink := true

/- Read in two parts the header is not seen. -/
theorem identPage_cut :
    (VorbisCodec.probe identPage.bytes).isSome ∧
      VorbisCodec.nominalField identPage.bytes = 128000 ∧
      ¬ LocksRate uncapped
        [identPage.bytes.take 20,
          identPage.bytes.drop 20] := by
  refine ⟨by decide, by decide, ?_⟩
  intro hLocks
  exact absurd hLocks.locked (by decide)

/- Once more behind, and read in one, it is. -/
theorem identPage_repeated :
    LocksRate uncapped
      [identPage.bytes.take 20, identPage.bytes.drop 20,
        identPage.bytes] := by
  apply
    (locksRate_iff identPage _
      (by decide :
        VorbisCodec.probe identPage.bytes =
          some
            { id := .VORBIS
              sampleRate := 44100
              channels := 1
              bitrateKbps := some 128 })
      (by decide) identPage.bytes uncapped rfl (by decide) _
      (by decide)).mpr
  exact .inr ⟨128000, by decide, by decide⟩

end Ingest

end RustyIce
