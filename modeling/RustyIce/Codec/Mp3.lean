import RustyIce.Core.Types
import Mathlib.Tactic.SplitIfs
import Mathlib.Tactic.ByContra
import Mathlib.Tactic.Tauto
import Mathlib.Algebra.Order.Ring.Nat

/-
  MPEG audio frame headers: the probe, the bitrate scan, and
  the search for the metadata frame of a file.

  Main declarations:
    * `mp3FrameSize` and `mp3FrameSize_pos`
    * `Mp3Codec.probe`
    * `scanBitrateBps`
    * `detectXingFrameEnd` and `detectXingFrom_eq_some_iff`
    * `leadingTagFrame` and `taggedFrameLength_eq`
-/

------------------------------------------------------------
-- The Probe
------------------------------------------------------------

namespace RustyIce

/- kbps by the four bitrate bits: 0 is free, 15 is bad. -/
def MPEG1_L3_BITRATES : List (Option Nat) :=
  [none, some 32, some 40, some 48, some 56, some 64,
    some 80, some 96, some 112, some 128, some 160,
    some 192, some 224, some 256, some 320, none]

def MPEG2_L3_BITRATES : List (Option Nat) :=
  [none, some 8, some 16, some 24, some 32, some 40,
    some 48, some 56, some 64, some 80, some 96,
    some 112, some 128, some 144, some 160, none]

def sampleRate (version index : UInt8) : Option Nat :=
  if version = 0b11 then
    if index = 0b00 then some 44100
    else if index = 0b01 then some 48000
    else if index = 0b10 then some 32000
    else none
  else if version = 0b10 then
    if index = 0b00 then some 22050
    else if index = 0b01 then some 24000
    else if index = 0b10 then some 16000
    else none
  else if version = 0b00 then
    if index = 0b00 then some 11025
    else if index = 0b01 then some 12000
    else if index = 0b10 then some 8000
    else none
  else none

/- Eleven set bits open a frame header. -/
def isSync (b0 b1 : UInt8) : Bool :=
  b0 = 0xFF && b1 &&& 0xE0 = 0xE0

def versionBits (b1 : UInt8) : UInt8 :=
  b1 >>> 3 &&& 0x03

def layerBits (b1 : UInt8) : UInt8 :=
  b1 >>> 1 &&& 0x03

/-
  The byte length of the frame whose header `header` begins
  with.
-/
def mp3FrameSize : Bytes → Option Nat
  | b0 :: b1 :: b2 :: _ :: _ =>
      if ¬ isSync b0 b1 then none
      else if versionBits b1 = 0b01 ∨ layerBits b1 = 0b00 ∨
          layerBits b1 ≠ 0b01 then
        none
      else
        match sampleRate (versionBits b1)
            (b2 >>> 2 &&& 0x03) with
        | none => none
        | some rate =>
            let index := (b2 >>> 4 &&& 0x0F).toNat
            let mpeg1 : Bool := versionBits b1 = 0b11
            let kbps? :=
              if mpeg1 then MPEG1_L3_BITRATES.getD index none
              else MPEG2_L3_BITRATES.getD index none
            kbps?.map fun kbps =>
              let padding := (b2 >>> 1 &&& 0x01).toNat
              if mpeg1 then
                144 * kbps * 1000 / rate + padding
              else 72 * kbps * 1000 / rate + padding
  | _ => none

theorem sampleRate_bounds
    {version index : UInt8}
    {rate : Nat}
    (hRate : sampleRate version index = some rate) :
    0 < rate ∧ rate ≤ 48000 ∧
      (version ≠ 0b11 → rate ≤ 24000) := by
  unfold sampleRate at hRate
  split_ifs at hRate
  all_goals cases hRate
  all_goals simp_all

theorem bitrate_pos
    {table : List (Option Nat)}
    (hTable : ∀ kbps, some kbps ∈ table → 8 ≤ kbps)
    {index kbps : Nat}
    (hKbps : table.getD index none = some kbps) :
    8 ≤ kbps := by
  rw [List.getD_eq_getElem?_getD] at hKbps
  cases hEntry : table[index]? with
  | none =>
      rw [hEntry] at hKbps
      cases hKbps
  | some entry =>
      rw [hEntry, Option.getD_some] at hKbps
      rw [hKbps] at hEntry
      exact hTable kbps (List.mem_of_getElem? hEntry)

/- A frame is not empty. -/
theorem mp3FrameSize_pos
    {header : Bytes}
    {size : Nat}
    (hSize : mp3FrameSize header = some size) :
    0 < size := by
  match header, hSize with
  | b0 :: b1 :: b2 :: b3 :: rest, hSize =>
      simp only [mp3FrameSize] at hSize
      split_ifs at hSize with hSync hKind hMpeg
      · split at hSize
        · cases hSize
        · rename_i rate hRate
          have hBounds := sampleRate_bounds hRate
          rcases Option.map_eq_some_iff.mp hSize with
            ⟨kbps, hKbps, rfl⟩
          have hLow :=
            bitrate_pos (by simp [MPEG1_L3_BITRATES]) hKbps
          have : 0 < 144 * kbps * 1000 / rate :=
            Nat.div_pos (by omega) hBounds.1
          omega
      · split at hSize
        · cases hSize
        · rename_i rate hRate
          have hBounds := sampleRate_bounds hRate
          rcases Option.map_eq_some_iff.mp hSize with
            ⟨kbps, hKbps, rfl⟩
          have hLow :=
            bitrate_pos (by simp [MPEG2_L3_BITRATES]) hKbps
          have hRateLow :=
            hBounds.2.2 (by simpa using hMpeg)
          have : 0 < 72 * kbps * 1000 / rate :=
            Nat.div_pos (by omega) hBounds.1
          omega

namespace Mp3Codec

def probe : Bytes → Option CodecInfo
  | b0 :: b1 :: b2 :: b3 :: _ =>
      if isSync b0 b1 = false then none
      else if versionBits b1 = 0b01 ∨ layerBits b1 = 0b00 then
        none
      else if layerBits b1 ≠ 0b01 then none
      else
        (sampleRate (versionBits b1) (b2 >>> 2 &&& 0x03)).map
          fun rate =>
            { id := .MP3
              sampleRate := rate
              channels := if b3 >>> 6 = 0b11 then 1 else 2
              bitrateKbps :=
                if versionBits b1 = 0b11 then
                  MPEG1_L3_BITRATES.getD
                    (b2 >>> 4 &&& 0x0F).toNat none
                else none }
  | _ => none

end Mp3Codec

/-
  The loop over the offsets, on the bytes from the offset
  on: the first frame whose bitrate the probe knows, in
  bytes a second.
-/
def scanBitrateBps : Bytes → Option Nat
  | b0 :: b1 :: b2 :: b3 :: rest =>
      if isSync b0 b1 = false then
        scanBitrateBps (b1 :: b2 :: b3 :: rest)
      else
        match Mp3Codec.probe (b0 :: b1 :: b2 :: b3 :: rest) with
        | some { bitrateKbps := some kbps, .. } =>
            some (kbps * 1000 / 8)
        | _ => scanBitrateBps (b1 :: b2 :: b3 :: rest)
  | _ => none

end RustyIce

------------------------------------------------------------
-- The Metadata Frame
------------------------------------------------------------

namespace RustyIce

def XING : Bytes := [0x58, 0x69, 0x6E, 0x67]
def INFO : Bytes := [0x49, 0x6E, 0x66, 0x6F]
def VBRI : Bytes := [0x56, 0x42, 0x52, 0x49]

/- The tag follows the header and the side information. -/
def tagOffset (mpeg1 : Bool) (channels : Nat) : Option Nat :=
  match mpeg1, channels with
  | true, 2 => some (4 + 32)
  | true, 1 => some (4 + 17)
  | false, 2 => some (4 + 17)
  | false, 1 => some (4 + 9)
  | _, _ => none

/-
  The body of the search at a sync word, on the bytes from
  the sync word on: the length of a tagged frame that is
  there completely.
-/
def taggedFrameLength (header : Bytes) : Option Nat := do
  let info ← Mp3Codec.probe header
  let mpeg1 : Bool := versionBits (header.getD 1 0) = 0b11
  let offset ← tagOffset mpeg1 info.channels
  if header.length < offset + 4 then none
  else
    let tag := (header.drop offset).take 4
    if tag ≠ XING ∧ tag ≠ INFO ∧ tag ≠ VBRI then none
    else
      let bitrate ← info.bitrateKbps.map (· * 1000)
      let padding :=
        (header.getD 2 0 >>> 1 &&& 0x01).toNat
      let frameLength :=
        (if mpeg1 then 144 else 72) * bitrate /
          info.sampleRate + padding
      if header.length < frameLength then none
      else some frameLength

/-
  The loop over `sync`, on the bytes from there on. It ends
  at the first sync word, whatever follows.
-/
def detectXingFrom (sync : Nat) : Bytes → Option Nat
  | b0 :: b1 :: b2 :: b3 :: rest =>
      if isSync b0 b1 = false then
        detectXingFrom (sync + 1) (b1 :: b2 :: b3 :: rest)
      else
        (taggedFrameLength (b0 :: b1 :: b2 :: b3 :: rest)).map
          (sync + ·)
  | _ => none

def detectXingFrameEnd (data : Bytes) : Option Nat :=
  detectXingFrom 0 data

end RustyIce

------------------------------------------------------------
-- A Leading Tagged Frame
------------------------------------------------------------

namespace RustyIce

/- The fields of a frame header, by its number's digits. -/
structure Mpeg1Header where
  sampleRate : Nat
  kbps : Nat
  mono : Bool
  padding : Nat
deriving DecidableEq, Repr

/-
  What an MPEG-1 Layer III header of known bitrate says:
  eleven bits of sync, version 3, layer 1, a bitrate and a
  sample rate out of the tables.
-/
def readMpeg1Header : Bytes → Option Mpeg1Header
  | b0 :: b1 :: b2 :: b3 :: _ =>
      if b0.toNat = 255 ∧ b1.toNat / 32 = 7 ∧
          b1.toNat / 8 % 4 = 3 ∧ b1.toNat / 2 % 4 = 1 then
        [44100, 48000, 32000][b2.toNat / 4 % 4]?.bind
          fun rate =>
            (MPEG1_L3_BITRATES.getD (b2.toNat / 16) none).map
              fun kbps =>
                { sampleRate := rate
                  kbps := kbps
                  mono := b3.toNat / 64 = 3
                  padding := b2.toNat / 2 % 2 }
      else none
  | _ => none

namespace Mpeg1Header

def frameLength (h : Mpeg1Header) : Nat :=
  144 * (h.kbps * 1000) / h.sampleRate + h.padding

/- Where a tag stands: behind the side information. -/
def sideInfoEnd (h : Mpeg1Header) : Nat :=
  if h.mono then 21 else 36

end Mpeg1Header

/-
  The length of the frame that data begins with, where that
  is an MPEG-1 Layer III frame of known bitrate, completely
  there, with a tag behind its side information.
-/
def leadingTagFrame (data : Bytes) : Option Nat :=
  match readMpeg1Header data with
  | none => none
  | some h =>
      let tag := (data.drop h.sideInfoEnd).take 4
      if h.frameLength ≤ data.length ∧
          (tag = XING ∨ tag = INFO ∨ tag = VBRI) then
        some h.frameLength
      else none

/- The digits of a byte, as the code's masks read them. -/
theorem isSync_iff (b0 b1 : UInt8) :
    isSync b0 b1 = true ↔
      b0.toNat = 255 ∧ b1.toNat / 32 = 7 := by
  have hMask :
      ∀ n < 256, n &&& 224 = 224 ↔ n / 32 = 7 := by
    decide +kernel
  rw [isSync, Bool.and_eq_true, decide_eq_true_iff,
    decide_eq_true_iff, ← hMask b1.toNat b1.toNat_lt,
    ← UInt8.toNat_inj, ← UInt8.toNat_inj, UInt8.toNat_and]
  rfl

theorem toNat_shiftRight_and
    (b mask : UInt8)
    (shift width : Nat)
    (hShift : shift < 8)
    (hMask : mask.toNat = 2 ^ width - 1) :
    (b >>> UInt8.ofNat shift &&& mask).toNat =
      b.toNat / 2 ^ shift % 2 ^ width := by
  rw [UInt8.toNat_and, UInt8.toNat_shiftRight, hMask,
    Nat.and_two_pow_sub_one_eq_mod,
    Nat.shiftRight_eq_div_pow]
  congr 3
  rw [UInt8.toNat_ofNat']
  omega

theorem toNat_versionBits (b : UInt8) :
    (versionBits b).toNat = b.toNat / 8 % 4 :=
  toNat_shiftRight_and b 0x03 3 2 (by omega) rfl

theorem toNat_layerBits (b : UInt8) :
    (layerBits b).toNat = b.toNat / 2 % 4 :=
  toNat_shiftRight_and b 0x03 1 2 (by omega) rfl

theorem sampleRate_mpeg1 (index : UInt8) :
    sampleRate 0b11 index =
      [44100, 48000, 32000][index.toNat]? := by
  have hEq :
      ∀ c : UInt8, index = c ↔ index.toNat = c.toNat :=
    fun c => UInt8.toNat_inj.symm
  simp only [sampleRate, if_true, hEq]
  split_ifs with h0 h1 h2
  · rw [h0]; rfl
  · rw [h1]; rfl
  · rw [h2]; rfl
  · rw [eq_comm, List.getElem?_eq_none]
    have hZero : (0 : UInt8).toNat = 0 := rfl
    have hOne : (1 : UInt8).toNat = 1 := rfl
    have hTwo : (2 : UInt8).toNat = 2 := rfl
    simp only [List.length_cons, List.length_nil]
    omega

theorem toNat_rateBits (b : UInt8) :
    (b >>> 2 &&& 0x03).toNat = b.toNat / 4 % 4 :=
  toNat_shiftRight_and b 0x03 2 2 (by omega) rfl

theorem toNat_kbpsBits (b : UInt8) :
    (b >>> 4 &&& 0x0F).toNat = b.toNat / 16 := by
  have hDigits :=
    toNat_shiftRight_and b 0x0F 4 4 (by omega) rfl
  have hByte := b.toNat_lt
  exact hDigits.trans (Nat.mod_eq_of_lt (by omega))

theorem toNat_paddingBit (b : UInt8) :
    (b >>> 1 &&& 0x01).toNat = b.toNat / 2 % 2 :=
  toNat_shiftRight_and b 0x01 1 1 (by omega) rfl

theorem mono_iff (b : UInt8) :
    b >>> 6 = 0b11 ↔ b.toNat / 64 = 3 := by
  rw [← UInt8.toNat_inj, UInt8.toNat_shiftRight,
    Nat.shiftRight_eq_div_pow]
  rfl

/- The probe knows a bitrate for MPEG-1 headers only. -/
theorem probe_of_mpeg1
    {b0 b1 b2 b3 : UInt8}
    {rest : Bytes}
    (hSync : isSync b0 b1 = true)
    (hVersion : versionBits b1 = 0b11)
    (hLayer : layerBits b1 = 0b01) :
    Mp3Codec.probe (b0 :: b1 :: b2 :: b3 :: rest) =
      [44100, 48000, 32000][b2.toNat / 4 % 4]?.map
        fun rate =>
          { id := .MP3
            sampleRate := rate
            channels := if b3.toNat / 64 = 3 then 1 else 2
            bitrateKbps :=
              MPEG1_L3_BITRATES.getD (b2.toNat / 16) none } := by
  simp only [Mp3Codec.probe, hSync, hVersion, hLayer,
    sampleRate_mpeg1, toNat_rateBits, toNat_kbpsBits,
    mono_iff]
  rfl

theorem bitrate_of_probe
    {b0 b1 b2 b3 : UInt8}
    {rest : Bytes}
    {info : CodecInfo}
    {kbps : Nat}
    (hProbe :
      Mp3Codec.probe (b0 :: b1 :: b2 :: b3 :: rest) =
        some info)
    (hKbps : info.bitrateKbps = some kbps) :
    isSync b0 b1 = true ∧ versionBits b1 = 0b11 ∧
      layerBits b1 = 0b01 := by
  rw [Mp3Codec.probe] at hProbe
  by_cases hSync : isSync b0 b1 = false
  · simp [hSync] at hProbe
  by_cases hReserved :
      versionBits b1 = 0b01 ∨ layerBits b1 = 0b00
  · simp [hSync, hReserved] at hProbe
  by_cases hLayer : layerBits b1 = 0b01
  · rw [if_neg hSync, if_neg hReserved,
      if_neg (not_not.mpr hLayer)] at hProbe
    obtain ⟨rate, -, rfl⟩ := Option.map_eq_some_iff.mp hProbe
    refine ⟨by simpa using hSync, ?_, hLayer⟩
    by_contra hVersion
    simp [hVersion] at hKbps
  · simp [hSync, hReserved, hLayer] at hProbe

theorem readMpeg1Header_eq
    {b0 b1 b2 b3 : UInt8}
    {rest : Bytes} :
    readMpeg1Header (b0 :: b1 :: b2 :: b3 :: rest) =
      if isSync b0 b1 = true ∧ versionBits b1 = 0b11 ∧
          layerBits b1 = 0b01 then
        [44100, 48000, 32000][b2.toNat / 4 % 4]?.bind
          fun rate =>
            (MPEG1_L3_BITRATES.getD (b2.toNat / 16) none).map
              fun kbps =>
                { sampleRate := rate
                  kbps := kbps
                  mono := b3.toNat / 64 = 3
                  padding := b2.toNat / 2 % 2 }
      else none := by
  have hVersion :
      versionBits b1 = 0b11 ↔ b1.toNat / 8 % 4 = 3 := by
    rw [← UInt8.toNat_inj, toNat_versionBits]
    rfl
  have hLayer :
      layerBits b1 = 0b01 ↔ b1.toNat / 2 % 4 = 1 := by
    rw [← UInt8.toNat_inj, toNat_layerBits]
    rfl
  simp only [readMpeg1Header, isSync_iff, hVersion, hLayer,
    and_assoc]

/- A tag that is there has the bytes in front of it. -/
theorem le_length_of_tag
    {data : Bytes}
    {offset : Nat}
    (hTag :
      (data.drop offset).take 4 = XING ∨
        (data.drop offset).take 4 = INFO ∨
          (data.drop offset).take 4 = VBRI) :
    offset + 4 ≤ data.length := by
  have hFour : ((data.drop offset).take 4).length = 4 := by
    rcases hTag with h | h | h <;> rw [h] <;> rfl
  rw [List.length_take, List.length_drop] at hFour
  omega

/- The guards in front of a frame's length, as one. -/
theorem guarded_tag
    (data : Bytes)
    (offset length : Nat) :
    (if data.length < offset + 4 then none
      else if (data.drop offset).take 4 ≠ XING ∧
          (data.drop offset).take 4 ≠ INFO ∧
            (data.drop offset).take 4 ≠ VBRI then none
      else if data.length < length then none
      else some length) =
      if length ≤ data.length ∧
          ((data.drop offset).take 4 = XING ∨
            (data.drop offset).take 4 = INFO ∨
              (data.drop offset).take 4 = VBRI) then
        some length
      else none := by
  by_cases hTag :
      (data.drop offset).take 4 = XING ∨
        (data.drop offset).take 4 = INFO ∨
          (data.drop offset).take 4 = VBRI
  · have hLength := le_length_of_tag hTag
    have hNot :
        ¬((data.drop offset).take 4 ≠ XING ∧
          (data.drop offset).take 4 ≠ INFO ∧
            (data.drop offset).take 4 ≠ VBRI) := by
      tauto
    rw [if_neg (by omega), if_neg hNot]
    by_cases hComplete : length ≤ data.length
    · rw [if_neg (by omega), if_pos ⟨hComplete, hTag⟩]
    · rw [if_pos (by omega), if_neg (by tauto)]
  · have hNone :
        (data.drop offset).take 4 ≠ XING ∧
          (data.drop offset).take 4 ≠ INFO ∧
            (data.drop offset).take 4 ≠ VBRI := by
      tauto
    rw [if_pos hNone, ite_self, if_neg fun h => hTag h.2]

/- A frame whose bitrate is not known is not cut. -/
theorem bitrate_of_taggedFrameLength
    {data : Bytes}
    {length : Nat}
    (hTagged : taggedFrameLength data = some length) :
    ∃ info kbps,
      Mp3Codec.probe data = some info ∧
        info.bitrateKbps = some kbps := by
  obtain ⟨info, hProbe, hInfo⟩ :=
    Option.bind_eq_some_iff.mp hTagged
  obtain ⟨offset, -, hOffset⟩ :=
    Option.bind_eq_some_iff.mp hInfo
  refine ⟨info, ?_⟩
  rcases hKbps : info.bitrateKbps with _ | kbps
  · simp [hKbps] at hOffset
  · exact ⟨kbps, hProbe, rfl⟩

/-
  The search, where it looks at a frame, finds the length of
  a leading tagged frame and nothing else.
-/
theorem taggedFrameLength_eq (data : Bytes) :
    taggedFrameLength data = leadingTagFrame data := by
  match data with
  | [] | [_] | [_, _] | [_, _, _] => rfl
  | b0 :: b1 :: b2 :: b3 :: rest =>
      by_cases hOpens :
          isSync b0 b1 = true ∧ versionBits b1 = 0b11 ∧
            layerBits b1 = 0b01
      · obtain ⟨hSync, hVersion, hLayer⟩ := hOpens
        have hPadding := toNat_paddingBit b2
        rw [leadingTagFrame, readMpeg1Header_eq, if_pos
          ⟨hSync, hVersion, hLayer⟩, taggedFrameLength,
          probe_of_mpeg1 hSync hVersion hLayer]
        rcases hRate :
            [44100, 48000, 32000][b2.toNat / 4 % 4]? with
          _ | rate
        · rfl
        rcases hKbps :
            MPEG1_L3_BITRATES.getD (b2.toNat / 16) none with
          _ | kbps
        · simp
        · have hOffset :
              tagOffset true
                  (if b3.toNat / 64 = 3 then 1 else 2) =
                some
                  (if decide (b3.toNat / 64 = 3) = true then
                    21 else 36) := by
            by_cases hMono : b3.toNat / 64 = 3 <;>
              simp [hMono, tagOffset]
          simp only [hVersion, hPadding, hOffset, decide_true,
            List.getD_cons_succ, List.getD_cons_zero,
            Option.map_some, Option.bind_eq_bind,
            Option.bind_some, if_true]
          exact guarded_tag _ _ _
      · rw [leadingTagFrame, readMpeg1Header_eq,
          if_neg hOpens]
        rcases hTagged :
            taggedFrameLength
              (b0 :: b1 :: b2 :: b3 :: rest) with _ | length
        · rfl
        · obtain ⟨info, kbps, hProbe, hKbps⟩ :=
            bitrate_of_taggedFrameLength hTagged
          exact absurd (bitrate_of_probe hProbe hKbps) hOpens

theorem kbps_bounds
    {index kbps : Nat}
    (hKbps : MPEG1_L3_BITRATES.getD index none = some kbps) :
    32 ≤ kbps ∧ kbps ≤ 320 := by
  have hTable : some kbps ∈ MPEG1_L3_BITRATES := by
    rw [List.getD_eq_getElem?_getD] at hKbps
    rcases hEntry : MPEG1_L3_BITRATES[index]? with _ | entry
    · simp [hEntry] at hKbps
    · rw [hEntry, Option.getD_some] at hKbps
      rw [← hKbps]
      exact List.mem_of_getElem? hEntry
  simp only [MPEG1_L3_BITRATES, List.mem_cons,
    Option.some.injEq, List.not_mem_nil, or_false,
    reduceCtorEq, false_or] at hTable
  omega

theorem probe_kbps
    {b0 b1 b2 b3 : UInt8}
    {rest : Bytes}
    {info : CodecInfo}
    {kbps : Nat}
    (hProbe :
      Mp3Codec.probe (b0 :: b1 :: b2 :: b3 :: rest) =
        some info)
    (hKbps : info.bitrateKbps = some kbps) :
    32 ≤ kbps ∧ kbps ≤ 320 := by
  obtain ⟨hSync, hVersion, hLayer⟩ :=
    bitrate_of_probe hProbe hKbps
  rw [probe_of_mpeg1 hSync hVersion hLayer] at hProbe
  obtain ⟨rate, -, rfl⟩ := Option.map_eq_some_iff.mp hProbe
  exact kbps_bounds hKbps

/- Frames of a known bitrate have 96 to 1441 bytes. -/
theorem readMpeg1Header_bounds
    {data : Bytes}
    {h : Mpeg1Header}
    (hRead : readMpeg1Header data = some h) :
    4 ≤ data.length ∧ 96 ≤ h.frameLength ∧
      h.frameLength ≤ 1441 := by
  match data with
  | [] | [_] | [_, _] | [_, _, _] => cases hRead
  | b0 :: b1 :: b2 :: b3 :: rest =>
      rw [readMpeg1Header] at hRead
      split_ifs at hRead with hOpens
      obtain ⟨rate, hRate, hRest⟩ :=
        Option.bind_eq_some_iff.mp hRead
      obtain ⟨kbps, hKbps, rfl⟩ :=
        Option.map_eq_some_iff.mp hRest
      have hRates : rate ∈ [44100, 48000, 32000] :=
        List.mem_of_getElem? hRate
      have hBound := kbps_bounds hKbps
      simp only [List.mem_cons, List.not_mem_nil, or_false]
        at hRates
      refine ⟨by simp, ?_⟩
      rcases hRates with rfl | rfl | rfl <;>
        · simp only [Mpeg1Header.frameLength]
          omega

theorem readMpeg1Header_append
    {data : Bytes}
    (more : Bytes)
    (hLength : 4 ≤ data.length) :
    readMpeg1Header (data ++ more) = readMpeg1Header data := by
  match data with
  | [] | [_] | [_, _] | [_, _, _] => simp at hLength
  | b0 :: b1 :: b2 :: b3 :: rest => rfl

theorem leadingTagFrame_eq_some_iff
    {data : Bytes}
    {length : Nat} :
    leadingTagFrame data = some length ↔
      ∃ h,
        readMpeg1Header data = some h ∧
          h.frameLength = length ∧ length ≤ data.length ∧
            ((data.drop h.sideInfoEnd).take 4 = XING ∨
              (data.drop h.sideInfoEnd).take 4 = INFO ∨
                (data.drop h.sideInfoEnd).take 4 = VBRI) := by
  rw [leadingTagFrame]
  rcases readMpeg1Header data with _ | h
  · simp
  · by_cases hTagged :
        h.frameLength ≤ data.length ∧
          ((data.drop h.sideInfoEnd).take 4 = XING ∨
            (data.drop h.sideInfoEnd).take 4 = INFO ∨
              (data.drop h.sideInfoEnd).take 4 = VBRI)
    · simp only [if_pos hTagged, Option.some.injEq]
      constructor
      · rintro rfl
        exact ⟨h, rfl, rfl, hTagged⟩
      · rintro ⟨_, rfl, hFrame, -⟩
        exact hFrame
    · simp only [if_neg hTagged, Option.some.injEq]
      constructor
      · intro hNone
        cases hNone
      · rintro ⟨_, rfl, rfl, hAll⟩
        exact absurd hAll hTagged

/- Bytes behind a complete tagged frame change nothing. -/
theorem leadingTagFrame_append
    {data : Bytes}
    {length : Nat}
    (more : Bytes)
    (hFound : leadingTagFrame data = some length) :
    leadingTagFrame (data ++ more) = some length := by
  obtain ⟨h, hRead, hFrame, hComplete, hTag⟩ :=
    leadingTagFrame_eq_some_iff.mp hFound
  have hLength := le_length_of_tag hTag
  refine leadingTagFrame_eq_some_iff.mpr
    ⟨h, ?_, hFrame, ?_, ?_⟩
  · rw [readMpeg1Header_append more
      (readMpeg1Header_bounds hRead).1, hRead]
  · rw [List.length_append]
    omega
  · rw [List.drop_append_of_le_length (by omega),
      List.take_append_of_le_length
        (by rw [List.length_drop]; omega)]
    exact hTag

/- Nor does what lies beyond the longest frame. -/
theorem leadingTagFrame_of_long
    {data : Bytes}
    (more : Bytes)
    (hLong : 1441 ≤ data.length) :
    leadingTagFrame (data ++ more) = leadingTagFrame data := by
  rcases hFound : leadingTagFrame data with _ | length
  · rcases hMore : leadingTagFrame (data ++ more) with
      _ | length
    · rfl
    obtain ⟨h, hRead, hFrame, -, hTag⟩ :=
      leadingTagFrame_eq_some_iff.mp hMore
    have hBounds := readMpeg1Header_bounds hRead
    have hOffset : h.sideInfoEnd ≤ 36 := by
      unfold Mpeg1Header.sideInfoEnd
      split_ifs <;> omega
    rw [readMpeg1Header_append more (by omega)] at hRead
    rw [List.drop_append_of_le_length (by omega),
      List.take_append_of_le_length
        (by rw [List.length_drop]; omega)] at hTag
    have hHere : leadingTagFrame data = some length :=
      leadingTagFrame_eq_some_iff.mpr
        ⟨h, hRead, hFrame, by omega, hTag⟩
    rw [hFound] at hHere
    cases hHere
  · exact leadingTagFrame_append more hFound

end RustyIce

------------------------------------------------------------
-- The Search
------------------------------------------------------------

namespace RustyIce

def startsWithSync : Bytes → Bool
  | b0 :: b1 :: _ => isSync b0 b1
  | _ => false

/- The size of a frame is told by its first four bytes. -/
theorem mp3FrameSize_append
    {header : Bytes}
    (more : Bytes)
    (hLength : 4 ≤ header.length) :
    mp3FrameSize (header ++ more) = mp3FrameSize header := by
  match header with
  | [] | [_] | [_, _] | [_, _, _] => simp at hLength
  | b0 :: b1 :: b2 :: b3 :: rest => rfl

theorem startsWithSync_of_mp3FrameSize
    {header : Bytes}
    {size : Nat}
    (hSize : mp3FrameSize header = some size) :
    4 ≤ header.length ∧ startsWithSync header = true := by
  match header with
  | [] | [_] | [_, _] | [_, _, _] => cases hSize
  | b0 :: b1 :: b2 :: b3 :: rest =>
      rw [mp3FrameSize] at hSize
      split_ifs at hSize with hSync
      refine ⟨by simp, ?_⟩
      rw [startsWithSync]
      simpa using hSync

/-
  A tagged frame that the data does not begin with, at its
  first sync word.
-/
def LateTagFrame (data : Bytes) : Prop :=
  ∃ k,
    0 < k ∧
      (∀ j < k, startsWithSync (data.drop j) = false) ∧
        (leadingTagFrame (data.drop k)).isSome

theorem startsWithSync_of_leadingTagFrame
    {data : Bytes}
    {length : Nat}
    (hFound : leadingTagFrame data = some length) :
    startsWithSync data = true := by
  obtain ⟨h, hRead, -⟩ := leadingTagFrame_eq_some_iff.mp hFound
  match data with
  | [] | [_] | [_, _] | [_, _, _] => cases hRead
  | b0 :: b1 :: b2 :: b3 :: rest =>
      rw [readMpeg1Header_eq] at hRead
      split_ifs at hRead with hOpens
      exact hOpens.1

theorem length_of_leadingTagFrame
    {data : Bytes}
    {length : Nat}
    (hFound : leadingTagFrame data = some length) :
    4 ≤ data.length ∧ 0 < length ∧ length ≤ data.length := by
  obtain ⟨h, hRead, hFrame, hComplete, -⟩ :=
    leadingTagFrame_eq_some_iff.mp hFound
  have hBounds := readMpeg1Header_bounds hRead
  exact ⟨hBounds.1, by omega, hComplete⟩

/- The search sees the first sync word and no other. -/
theorem detectXingFrom_eq_some_iff
    {sync stop : Nat}
    {data : Bytes} :
    detectXingFrom sync data = some stop ↔
      ∃ k length,
        (∀ j < k, startsWithSync (data.drop j) = false) ∧
          leadingTagFrame (data.drop k) = some length ∧
            stop = sync + k + length := by
  induction data generalizing sync with
  | nil =>
      constructor
      · intro hNone
        cases hNone
      · rintro ⟨k, length, -, hFound, -⟩
        rw [List.drop_nil] at hFound
        cases hFound
  | cons b0 rest ih =>
      rcases rest with _ | ⟨b1, _ | ⟨b2, _ | ⟨b3, rest⟩⟩⟩
      case cons.cons.cons =>
          rw [detectXingFrom]
          split_ifs with hSync
          · rw [ih]
            constructor
            · rintro ⟨k, length, hBefore, hFound, rfl⟩
              refine ⟨k + 1, length, ?_, hFound, by omega⟩
              rintro (_ | j) hLess
              · exact hSync
              · exact hBefore j (by omega)
            · rintro ⟨_ | k, length, hBefore, hFound, rfl⟩
              · have hHere :=
                  startsWithSync_of_leadingTagFrame hFound
                rw [List.drop_zero, startsWithSync, hSync]
                  at hHere
                cases hHere
              · exact ⟨k, length,
                  fun j hLess => hBefore (j + 1) (by omega),
                  hFound, by omega⟩
          · rw [Option.map_eq_some_iff, taggedFrameLength_eq]
            constructor
            · rintro ⟨length, hFound, rfl⟩
              exact ⟨0, length, by omega, hFound, rfl⟩
            · rintro ⟨_ | k, length, hBefore, hFound, rfl⟩
              · exact ⟨length, hFound, rfl⟩
              · exact absurd (hBefore 0 (by omega)) hSync
      -- No frame header fits into three bytes.
      all_goals
        constructor
        · intro hNone
          cases hNone
        · rintro ⟨k, length, -, hFound, -⟩
          have hShort := (length_of_leadingTagFrame hFound).1
          simp at hShort
          omega

theorem startsWithSync_append
    {data : Bytes}
    (more : Bytes)
    (hLength : 2 ≤ data.length) :
    startsWithSync (data ++ more) = startsWithSync data := by
  match data with
  | [] | [_] => simp at hLength
  | b0 :: b1 :: rest => rfl

/-
  Where no tagged frame comes late, the search on a long
  enough part of the data finds the leading one.
-/
theorem detectXingFrameEnd_eq
    {data more : Bytes}
    (hEnough : more = [] ∨ 1441 ≤ data.length)
    (hNotLate : ¬LateTagFrame (data ++ more)) :
    detectXingFrameEnd data =
      leadingTagFrame (data ++ more) := by
  have hLeading :
      leadingTagFrame (data ++ more) = leadingTagFrame data := by
    rcases hEnough with rfl | hLong
    · rw [List.append_nil]
    · exact leadingTagFrame_of_long more hLong
  rw [hLeading]
  rcases hFound : leadingTagFrame data with _ | length
  · rcases hStop : detectXingFrameEnd data with _ | stop
    · rfl
    obtain ⟨k, length, hBefore, hTagged, -⟩ :=
      detectXingFrom_eq_some_iff.mp hStop
    rcases Nat.eq_zero_or_pos k with rfl | hPos
    · rw [List.drop_zero, hFound] at hTagged
      cases hTagged
    · have hLength := length_of_leadingTagFrame hTagged
      rw [List.length_drop] at hLength
      refine absurd ⟨k, hPos, fun j hLess => ?_, ?_⟩ hNotLate
      · rw [List.drop_append_of_le_length (by omega),
          startsWithSync_append more
            (by rw [List.length_drop]; omega)]
        exact hBefore j hLess
      · rw [List.drop_append_of_le_length (by omega),
          leadingTagFrame_append more hTagged]
        rfl
  · exact detectXingFrom_eq_some_iff.mpr
      ⟨0, length, by omega, hFound, by omega⟩

/- A late tagged frame is cut with all that precedes it. -/
theorem detectXingFrameEnd_of_late
    {data : Bytes}
    (hLate : LateTagFrame data) :
    leadingTagFrame data = none ∧
      ∃ stop,
        detectXingFrameEnd data = some stop ∧ 0 < stop := by
  obtain ⟨k, hPos, hBefore, hSome⟩ := hLate
  obtain ⟨length, hTagged⟩ := Option.isSome_iff_exists.mp hSome
  have hLength := length_of_leadingTagFrame hTagged
  rw [List.length_drop] at hLength
  constructor
  · rcases hFound : leadingTagFrame data with _ | first
    · rfl
    · have hSync := startsWithSync_of_leadingTagFrame hFound
      have hNoSync := hBefore 0 hPos
      rw [List.drop_zero, hSync] at hNoSync
      cases hNoSync
  · exact ⟨0 + k + length, detectXingFrom_eq_some_iff.mpr
      ⟨k, length, hBefore, hTagged, rfl⟩, by omega⟩

theorem detectXingFrameEnd_le
    {data : Bytes}
    {stop : Nat}
    (hStop : detectXingFrameEnd data = some stop) :
    stop ≤ data.length := by
  obtain ⟨k, length, -, hTagged, rfl⟩ :=
    detectXingFrom_eq_some_iff.mp hStop
  have hLength := length_of_leadingTagFrame hTagged
  rw [List.length_drop] at hLength
  omega

/- No frame of known bitrate has the rate zero. -/
theorem scanBitrateBps_pos
    {data : Bytes}
    {bps : Nat}
    (hScan : scanBitrateBps data = some bps) :
    0 < bps := by
  induction data with
  | nil => cases hScan
  | cons b0 rest ih =>
      rcases rest with _ | ⟨b1, _ | ⟨b2, _ | ⟨b3, rest⟩⟩⟩
      case cons.cons.cons =>
          rw [scanBitrateBps] at hScan
          split_ifs at hScan with hSync
          · exact ih hScan
          · split at hScan
            · rename_i hProbe
              have hKbps := probe_kbps hProbe rfl
              cases hScan
              omega
            · exact ih hScan
      all_goals cases hScan

end RustyIce
