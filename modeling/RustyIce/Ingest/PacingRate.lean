import RustyIce.Ingest.Passthrough

/-
  The divisor of the pacing: what source data makes of it,
  and the runs that divide by zero.

  The rate of a Vorbis source goes through kbps, so a nominal
  bitrate below a thousand becomes a rate of zero.

  Main declarations:
    * `VorbisCodec.positiveNominal`, `firstNominal`
    * `scanNominalBitrateBps_eq`
    * `Ingest.PacedRun`
    * `Ingest.pacing_divisor_iff`
-/

------------------------------------------------------------
-- The Field Behind The Rate
------------------------------------------------------------

namespace RustyIce

namespace VorbisCodec

/- The field `bitrate_nominal` of a page, read as signed. -/
def nominalField (data : Bytes) : Int :=
  let body := data.drop (27 + (data.getD 26 0).toNat)
  i32FromLeBytes (body.getD 20 0) (body.getD 21 0)
    (body.getD 22 0) (body.getD 23 0)

/-
  The nominal bitrate, in bits a second, of the page that
  data begins with, if the probe takes it and it is positive.
-/
def positiveNominal (data : Bytes) : Option Nat :=
  if (probe data).isSome ∧ 0 < nominalField data then
    some (nominalField data).toNat
  else
    none

theorem readIdent_bitrate
    {body : Bytes}
    {info : CodecInfo}
    (hRead : readIdent body = some info) :
    info.bitrateKbps =
      nominalKbps
        (i32FromLeBytes (body.getD 20 0) (body.getD 21 0)
          (body.getD 22 0) (body.getD 23 0)) := by
  simp only [readIdent] at hRead
  split_ifs at hRead
  cases hRead
  rfl

/- The probe reports that field in kbps. -/
theorem probe_bitrate
    {data : Bytes}
    {info : CodecInfo}
    (hProbe : probe data = some info) :
    info.bitrateKbps = nominalKbps (nominalField data) := by
  simp only [probe] at hProbe
  split_ifs at hProbe
  exact readIdent_bitrate hProbe

theorem positiveNominal_of_none
    {data : Bytes}
    (hProbe : probe data = none) :
    positiveNominal data = none := by
  simp [positiveNominal, hProbe]

/- Where the probe takes the page, both see the same field. -/
theorem bitrate_eq_positiveNominal
    {data : Bytes}
    {info : CodecInfo}
    (hProbe : probe data = some info) :
    info.bitrateKbps =
      (positiveNominal data).map (· / 1000) := by
  rw [probe_bitrate hProbe]
  simp only [positiveNominal, nominalKbps, hProbe,
    Option.isSome_some, true_and]
  split_ifs
  · rfl
  · rfl

end VorbisCodec

/- The first of these in data. -/
def firstNominal (data : Bytes) : Option Nat :=
  data.tails.findSome? VorbisCodec.positiveNominal

theorem firstNominal_cons
    (byte : UInt8)
    (rest : Bytes) :
    firstNominal (byte :: rest) =
      (VorbisCodec.positiveNominal (byte :: rest)).or
        (firstNominal rest) := by
  show ((byte :: rest) :: rest.tails).findSome?
      VorbisCodec.positiveNominal = _
  rw [List.findSome?_cons]
  cases VorbisCodec.positiveNominal (byte :: rest) with
  | none => rfl
  | some nominal => rfl

/- No page begins with less than its magic. -/
theorem probe_of_magic
    {data : Bytes}
    (hMagic : data.take 4 ≠ OGG_MAGIC) :
    VorbisCodec.probe data = none := by
  simp [VorbisCodec.probe, hMagic]

/- The scan is the first field, rounded down to kbps. -/
theorem scanNominalBitrateBps_eq (data : Bytes) :
    scanNominalBitrateBps data =
      (firstNominal data).map fun nominal =>
        nominal / 1000 * 1000 / 8 := by
  induction data with
  | nil => rfl
  | cons b0 rest ih =>
      rw [firstNominal_cons]
      by_cases hLong : ∃ b1 b2 b3 more,
          rest = b1 :: b2 :: b3 :: more
      · rcases hLong with ⟨b1, b2, b3, more, rfl⟩
        rw [scanNominalBitrateBps]
        cases hProbe : VorbisCodec.probe
            (b0 :: b1 :: b2 :: b3 :: more) with
        | none =>
            rw [VorbisCodec.positiveNominal_of_none hProbe,
              Option.none_or]
            split
            · exact ih
            · exact ih
        | some info =>
            have hMagic :
                (b0 :: b1 :: b2 :: b3 :: more).take 4 =
                  OGG_MAGIC := by
              by_contra hNot
              rw [probe_of_magic hNot] at hProbe
              cases hProbe
            rw [if_neg (not_not_intro hMagic)]
            have hSame :=
              VorbisCodec.bitrate_eq_positiveNominal hProbe
            cases hNominal : VorbisCodec.positiveNominal
                (b0 :: b1 :: b2 :: b3 :: more) with
            | none =>
                rw [hNominal] at hSame
                rcases info with ⟨_, _, _, kbps⟩
                cases hSame
                exact ih
            | some nominal =>
                rw [hNominal] at hSame
                rcases info with ⟨_, _, _, kbps⟩
                cases hSame
                rfl
      · have hShort : (b0 :: rest).take 4 ≠ OGG_MAGIC := by
          intro hMagic
          apply hLong
          rcases rest with
            _ | ⟨b1, _ | ⟨b2, _ | ⟨b3, more⟩⟩⟩
          · cases hMagic
          · cases hMagic
          · cases hMagic
          · exact ⟨b1, b2, b3, more, rfl⟩
        rw [VorbisCodec.positiveNominal_of_none
          (probe_of_magic hShort), Option.none_or, ← ih]
        rcases rest with _ | ⟨b1, _ | ⟨b2, _ | ⟨b3, more⟩⟩⟩
        · rfl
        · rfl
        · rfl
        · exact absurd ⟨b1, b2, b3, more, rfl⟩ hLong

/- The rate is zero for a field below a thousand. -/
theorem scanNominalBitrateBps_pos_iff (data : Bytes) :
    (∀ bps,
      scanNominalBitrateBps data = some bps → 0 < bps) ↔
      ∀ nominal, firstNominal data = some nominal →
        1000 ≤ nominal := by
  rw [scanNominalBitrateBps_eq]
  constructor
  · intro hPos nominal hFirst
    have hRate :=
      hPos (nominal / 1000 * 1000 / 8) (by rw [hFirst]; rfl)
    omega
  · intro hHigh bps hScan
    rcases Option.map_eq_some_iff.mp hScan with
      ⟨nominal, hFirst, rfl⟩
    have := hHigh nominal hFirst
    omega

end RustyIce

------------------------------------------------------------
-- The Publish Loop
------------------------------------------------------------

namespace RustyIce

namespace Ingest

namespace PublishLoop

/- A rate that is set and not zero stays. -/
theorem publishAll_locked_isSome_iff
    (codec : CodecId)
    {st : PublishLoop}
    {bps : Nat}
    (hLocked : st.sourceRateLocked = true)
    (hRate : st.sourceRate = some bps)
    (chunks : List Bytes) :
    (st.publishAll codec chunks).stats.isSome ↔
      (bps = 0 → chunks = []) := by
  by_cases hZero : bps = 0
  · rw [hZero] at hRate
    simp only [hZero, true_implies]
    constructor
    · intro hSome
      by_contra hChunks
      rw [publishAll_zero codec st hLocked hRate hChunks]
        at hSome
      cases hSome
    · rintro rfl
      rfl
  · refine iff_of_true ?_ fun h => absurd h hZero
    rw [publishAll_finishes
      (by rw [hRate]; simpa using hZero) (.inl hLocked)]
    rfl

/- An open rate is that of the first chunk to show one. -/
theorem publishAll_open_isSome_iff
    (codec : CodecId)
    {st : PublishLoop}
    (hOpen : st.sourceRateLocked = false)
    (hRate : st.sourceRate = none)
    (chunks : List Bytes) :
    (st.publishAll codec chunks).stats.isSome ↔
      chunks.findSome? (detectRate codec) ≠ some 0 := by
  induction chunks generalizing st with
  | nil => exact iff_of_true rfl (by simp)
  | cons data rest ih =>
      rw [List.findSome?_cons]
      cases hShown : detectRate codec data with
      | none =>
          have hLock : st.lockRate codec data = st := by
            simp [lockRate, hOpen, hShown]
          simp only [publishAll, publishChunk, hLock]
          rw [if_neg (by rw [hRate]; simp)]
          exact ih hOpen hRate
      | some bps =>
          have hLock :
              st.lockRate codec data =
                { st with
                  sourceRate := some bps
                  sourceRateLocked := true } := by
            simp [lockRate, hOpen, hShown]
          simp only [publishAll, publishChunk, hLock,
            Option.some.injEq]
          by_cases hZero : bps = 0
          · rw [if_pos hZero]
            simp [hZero]
          · rw [if_neg hZero,
              publishAll_locked_isSome_iff codec rfl rfl]
            simp [hZero]

end PublishLoop

/-
  The input of a run that paces by a rate other than zero: a
  maximum that is set rules, and otherwise the first nominal
  bitrate of a Vorbis source is a thousand at least.
-/
def PacedRun
    (ingest : IcecastIngest)
    (codec : CodecId)
    (fragments : List Bytes) : Prop :=
  let chunks :=
    drainReader codec (reads ingest.chunkSize fragments)
  match ingest.maxRateBps with
  | some bps => bps = 0 → chunks = []
  | none =>
      codec = .VORBIS →
        ∀ nominal, chunks.findSome? firstNominal =
            some nominal →
          1000 ≤ nominal

/- What the chunks of a source show, codec by codec. -/
theorem detectRate_ne_zero_iff
    (codec : CodecId)
    (chunks : List Bytes) :
    chunks.findSome? (PublishLoop.detectRate codec) ≠
        some 0 ↔
      (codec = .VORBIS →
        ∀ nominal, chunks.findSome? firstNominal =
            some nominal →
          1000 ≤ nominal) := by
  induction chunks with
  | nil => simp
  | cons data rest ih =>
      rw [List.findSome?_cons, List.findSome?_cons]
      by_cases hVorbis : codec = .VORBIS
      · subst hVorbis
        have hShown :
            PublishLoop.detectRate .VORBIS data =
              (firstNominal data).map fun nominal =>
                nominal / 1000 * 1000 / 8 :=
          scanNominalBitrateBps_eq data
        rw [hShown]
        cases firstNominal data with
        | none => exact ih
        | some nominal =>
            simp only [Option.map_some, ne_eq,
              Option.some.injEq, forall_eq', true_implies]
            omega
      · refine iff_of_true ?_ fun h => absurd h hVorbis
        simp only [hVorbis, false_implies, iff_true] at ih
        cases hShown : PublishLoop.detectRate codec data with
        | none => exact ih
        | some bps =>
            simp only [PublishLoop.detectRate, hVorbis,
              if_false] at hShown
            split_ifs at hShown
            have := scanBitrateBps_pos hShown
            simp only [ne_eq, Option.some.injEq]
            omega

/- A run returns its stats or divides by zero. -/
theorem run_isSome_iff
    (ingest : IcecastIngest)
    (codec : CodecId)
    (fragments : List Bytes) :
    (ingest.run codec fragments).stats.isSome ↔
      PacedRun ingest codec fragments := by
  unfold IcecastIngest.run PacedRun
  cases hMax : ingest.maxRateBps with
  | some bps =>
      apply PublishLoop.publishAll_locked_isSome_iff
      · simp [PublishLoop.start, hMax]
      · simp [PublishLoop.start, hMax]
  | none =>
      simp only
      rw [← detectRate_ne_zero_iff]
      apply PublishLoop.publishAll_open_isSome_iff
      · simp [PublishLoop.start, hMax]
      · simp [PublishLoop.start, hMax]

/-
  When source data gives a rate that can be divided by: an
  MP3 frame always, a Vorbis page from a nominal bitrate of a
  thousand on, and a run on the input `PacedRun` says.
-/
theorem pacing_divisor_iff
    (data : Bytes)
    (ingest : IcecastIngest)
    (codec : CodecId)
    (fragments : List Bytes) :
    (∀ bps, scanBitrateBps data = some bps → 0 < bps) ∧
      ((∀ bps,
          scanNominalBitrateBps data = some bps →
            0 < bps) ↔
        ∀ nominal, firstNominal data = some nominal →
          1000 ≤ nominal) ∧
        ((ingest.run codec fragments).stats.isSome ↔
          PacedRun ingest codec fragments) :=
  ⟨fun _ => scanBitrateBps_pos,
    scanNominalBitrateBps_pos_iff data,
    run_isSome_iff ingest codec fragments⟩

/-
  A first page with 30 bytes of identification header: mono,
  44100 Hz and a nominal bitrate of 500 bits a second.
-/
def slowIdent : Bytes :=
  OGG_MAGIC ++ [0x00, 0x02] ++ List.replicate 20 0x00 ++
    [0x01, 30] ++ VORBIS_IDENT ++ [0, 0, 0, 0, 1] ++
      [0x44, 0xAC, 0x00, 0x00] ++ [0, 0, 0, 0] ++
        [0xF4, 0x01, 0x00, 0x00] ++ [0, 0, 0, 0, 0xB8, 0x01]

/- The scan gives the rate zero, and the ingest panics. -/
theorem slowIdent_zero :
    scanNominalBitrateBps slowIdent = some 0 ∧
      (IcecastIngest.run
          { chunkSize := 4096
            maxRateBps := none
            headerCaptureSink := true }
          .VORBIS [slowIdent]).stats =
        none := by
  constructor
  · decide
  · decide

end Ingest

end RustyIce
