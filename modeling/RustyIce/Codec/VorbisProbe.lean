import RustyIce.Codec.VorbisHeaders

/-
  The identification header of Ogg Vorbis: the probe and the
  bitrate scan.

  Main declarations:
    * `VorbisCodec.probe`, `VorbisCodec.probedLength`
    * `VorbisCodec.probe_append`
    * `scanNominalBitrateBps`
-/

------------------------------------------------------------
-- The Probe
------------------------------------------------------------

namespace RustyIce

def u32FromLeBytes (b0 b1 b2 b3 : UInt8) : Nat :=
  b0.toNat + 256 * b1.toNat + 65536 * b2.toNat +
    16777216 * b3.toNat

def i32FromLeBytes (b0 b1 b2 b3 : UInt8) : Int :=
  let n := u32FromLeBytes b0 b1 b2 b3
  if n < 2 ^ 31 then n else n - 2 ^ 32

/- The nominal bitrate in kbps, where one is given. -/
def nominalKbps (bitrateNominal : Int) : Option Nat :=
  if 0 < bitrateNominal then
    some (bitrateNominal.toNat / 1000)
  else
    none

namespace VorbisCodec

/- The fields of an identification packet. -/
def readIdent (body : Bytes) : Option CodecInfo :=
  if body.take 7 ≠ VORBIS_IDENT then none
  else if u32FromLeBytes (body.getD 7 0) (body.getD 8 0)
      (body.getD 9 0) (body.getD 10 0) ≠ 0 then none
  else if body.getD 11 0 = 0 then none
  else
    let rate :=
      u32FromLeBytes (body.getD 12 0) (body.getD 13 0)
        (body.getD 14 0) (body.getD 15 0)
    if rate = 0 then none
    else
      let bitrateNominal :=
        i32FromLeBytes (body.getD 20 0) (body.getD 21 0)
          (body.getD 22 0) (body.getD 23 0)
      some
        { id := .VORBIS
          sampleRate := rate
          channels := (body.getD 11 0).toNat
          bitrateKbps := nominalKbps bitrateNominal }

/-
  The page that data begins with, when it opens a stream with
  an identification packet that gives all fields up to the
  bitrates.
-/
def probe (header : Bytes) : Option CodecInfo :=
  if header.length < 27 then none
  else if header.take 4 ≠ OGG_MAGIC then none
  else if header.getD 5 0 &&& 0x02 = 0 then none
  else
    let nSegments := (header.getD 26 0).toNat
    let headerLen := 27 + nSegments
    if header.length < headerLen + 30 then none
    else readIdent (header.drop headerLen)

end VorbisCodec

/-
  The loop over the offsets, on the bytes from the offset
  on: the first page whose nominal bitrate the probe gives,
  in bytes a second.
-/
def scanNominalBitrateBps : Bytes → Option Nat
  | b0 :: b1 :: b2 :: b3 :: rest =>
      let data := b0 :: b1 :: b2 :: b3 :: rest
      if data.take 4 ≠ OGG_MAGIC then
        scanNominalBitrateBps (b1 :: b2 :: b3 :: rest)
      else
        match VorbisCodec.probe data with
        | some { bitrateKbps := some kbps, .. } =>
            some (kbps * 1000 / 8)
        | _ => scanNominalBitrateBps (b1 :: b2 :: b3 :: rest)
  | _ => none

end RustyIce

------------------------------------------------------------
-- Pages In A Longer String
------------------------------------------------------------

namespace RustyIce

namespace VorbisCodec

theorem readIdent_append
    {body : Bytes}
    (more : Bytes)
    (hLength : 30 ≤ body.length) :
    readIdent (body ++ more) = readIdent body := by
  have hByte :
      ∀ i < 30, (body ++ more).getD i 0 = body.getD i 0 :=
    fun i hLess =>
      List.getD_append body more 0 i (by omega)
  have hKind : (body ++ more).take 7 = body.take 7 :=
    List.take_append_of_le_length (by omega)
  simp (disch := omega) only [readIdent, hKind, hByte]

/- The bytes up to the end of the identification packet. -/
def probedLength (data : Bytes) : Nat :=
  27 + (data.getD 26 0).toNat + 30

/- A page that the probe takes has them all. -/
theorem probedLength_le
    {data : Bytes}
    {info : CodecInfo}
    (hProbe : probe data = some info) :
    probedLength data ≤ data.length := by
  simp only [probe] at hProbe
  split_ifs at hProbe with hHeader hMagic hBos hBody
  unfold probedLength
  omega

/- What follows them makes no difference to the probe. -/
theorem probe_append_eq
    {header : Bytes}
    (hLong : probedLength header ≤ header.length)
    (more : Bytes) :
    probe (header ++ more) = probe header := by
  unfold probedLength at hLong
  have hByte :
      ∀ i < 27, (header ++ more).getD i 0 = header.getD i 0 :=
    fun i hLess =>
      List.getD_append header more 0 i (by omega)
  have hBody :
      (header ++ more).drop
          (27 + (header.getD 26 0).toNat) =
        header.drop (27 + (header.getD 26 0).toNat) ++
          more :=
    List.drop_append_of_le_length (by omega)
  have hIdent :
      30 ≤
        (header.drop
          (27 + (header.getD 26 0).toNat)).length := by
    rw [List.length_drop]
    omega
  simp only [probe, hByte 5 (by omega), hByte 26 (by omega),
    hBody, readIdent_append more hIdent,
    List.take_append_of_le_length
      (show 4 ≤ header.length by omega)]
  rw [if_neg (by rw [List.length_append]; omega),
    if_neg (by omega : ¬ header.length < 27)]
  split
  · rfl
  · split
    · rfl
    · rw [if_neg (by rw [List.length_append]; omega),
        if_neg (by omega)]

/- Bytes behind the page change nothing about it. -/
theorem probe_append
    {header : Bytes}
    {info : CodecInfo}
    (more : Bytes)
    (hProbe : probe header = some info) :
    probe (header ++ more) = some info := by
  rw [probe_append_eq (probedLength_le hProbe), hProbe]

end VorbisCodec

/-
  A scan gives the rate zero where it meets a page whose
  nominal bitrate is below a thousand.
-/
theorem probe_of_scanNominalBitrateBps
    {data : Bytes}
    {bps : Nat}
    (hScan : scanNominalBitrateBps data = some bps) :
    ∃ i info kbps,
      VorbisCodec.probe (data.drop i) = some info ∧
        info.bitrateKbps = some kbps ∧
          bps = kbps * 1000 / 8 := by
  induction data with
  | nil => cases hScan
  | cons b0 rest ih =>
      have hLater :
          scanNominalBitrateBps rest = some bps →
            ∃ i info kbps,
              VorbisCodec.probe ((b0 :: rest).drop i) =
                  some info ∧
                info.bitrateKbps = some kbps ∧
                  bps = kbps * 1000 / 8 := by
        intro hRest
        obtain ⟨i, found⟩ := ih hRest
        exact ⟨i + 1, found⟩
      rcases rest with _ | ⟨b1, _ | ⟨b2, _ | ⟨b3, rest⟩⟩⟩
      case cons.cons.cons =>
          simp only [scanNominalBitrateBps] at hScan
          split_ifs at hScan with hMagic
          · exact hLater hScan
          · split at hScan
            · rename_i hProbe
              cases hScan
              exact ⟨0, _, _, hProbe, rfl, rfl⟩
            · exact hLater hScan
      all_goals cases hScan

/- A scan takes the first page, where its bitrate is given. -/
theorem scanNominalBitrateBps_of_probe
    {data : Bytes}
    {info : CodecInfo}
    {kbps : Nat}
    (hProbe : VorbisCodec.probe data = some info)
    (hKbps : info.bitrateKbps = some kbps) :
    scanNominalBitrateBps data = some (kbps * 1000 / 8) := by
  have hOpens := hProbe
  simp only [VorbisCodec.probe] at hOpens
  split_ifs at hOpens with hHeader hMagic
  rcases data with _ | ⟨b0, _ | ⟨b1, _ | ⟨b2, _ | ⟨b3, rest⟩⟩⟩⟩
  case cons.cons.cons.cons =>
      rw [scanNominalBitrateBps, if_neg hMagic, hProbe]
      rcases info with ⟨id, rate, channels, bitrate⟩
      cases hKbps
      rfl
  all_goals
    simp only [List.length_cons, List.length_nil] at hHeader
    omega

end RustyIce
